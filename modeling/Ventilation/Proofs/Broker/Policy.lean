import Ventilation.Proofs.Broker.Attendance
import Ventilation.Proofs.Bus.Single
import Ventilation.Proofs.Feed.Absence
import Ventilation.Proofs.Script
import Ventilation.Proofs.Server.Horizon

namespace Ventilation
namespace Broker

/-!
# The policy towards the broker

The bridge is looked at together with its clock, the hub, the connection and a book
of all that it has attended to.  Time passes, others do anything to the hub, anything
comes out of the connection, and the bridge turns to its branches in any order.

What the bridge asks of the broker, and when it leaves the connection alone, follow
from the book, without any look at the bridge.  A failure begins a pause.  The pause
is short if the broker has ever accepted a connection, and it goes on until the bridge
tries again.  States are passed on only if the broker has accepted a connection since
the last failure.

The proof compares the bridge with the book after each turn: `Knows` is kept by one
turn, and so by all of them.  Only a demand that waits for room keeps the bridge from
its branches, and only an instant that the clock cannot hold ends it without a signal.
-/

open Bus (Hub Topic)
open Feed (Call Demand Presence PendingUntil Relay Tells Topics)

/-- When the bridge has attended to something, and what it has asked of the broker. -/
structure Entry where
  now : Instant
  matter : Matter
  deeds : List Deed
  deriving DecidableEq, Repr

namespace Entry

/-- Whether there is a connection, if this is what has come out of it. -/
def link? (entry : Entry) : Option Bool :=
  match entry.matter with
  | .outcome .accepted => some true
  | .outcome .failed => some false
  | _ => none

/-- What the tracker is called for. -/
def call? (topics : Topics) (entry : Entry) : Option Call :=
  match entry.matter with
  | .outcome (.message topic payload) =>
    match Feed.Event.read topics topic payload with
    | .ok (some event) => some (.report event entry.now)
    | _ => none
  | .deadline => some (.deadline entry.now)
  | _ => none

end Entry

/-! ## What the book says -/

/-- The last connection was accepted, and has not failed. -/
def connected (book : List Entry) : Bool := (book.filterMap Entry.link?).getLast?.getD false

def accepted (book : List Entry) : Bool := book.any fun entry => entry.link? = some true

/-- The pause after a failure, if this was before it. -/
def pauseAfter (backoff : Span) (before : List Entry) : Span :=
  if accepted before then shortPause else backoff

/-- A failure has begun a pause, and the bridge has not tried again. -/
def PausedUntil (backoff : Span) (book : List Entry) (ends : Instant) : Prop :=
  ∃ before failure later, book = before ++ failure :: later ∧
    failure.matter = .outcome .failed ∧ ends = failure.now + pauseAfter backoff before ∧
    ∀ entry ∈ later, entry.matter ≠ .retry

def calls (topics : Topics) (book : List Entry) : List Call := book.filterMap (Entry.call? topics)

/-- What the bridge has to ask of the broker, if this was before. -/
def owed (topics : Topics) (before : List Entry) : Matter → List Deed
  | .outcome .accepted => [.subscribed topics.laser, .subscribed topics.presence]
  | .state state => if connected before then [.republished state] else []
  | .shutdown => if connected before then [.disconnected] else []
  | _ => []

/-- The clock could not hold the end of a pause or the deadline of an absence. -/
def Overran (topics : Topics) (backoff autoOff : Span) (book : List Entry) : Prop :=
  ∃ before last, book = before ++ [last] ∧
    ((last.matter = .outcome .failed ∧
        Instant.limit ≤ last.now + pauseAfter backoff before) ∨
      (last.call? topics = some (.report (.presence false) last.now) ∧
        Instant.limit ≤ last.now + autoOff))

section History

variable {book : List Entry} {entry : Entry} {backoff : Span} {ends : Instant}

theorem connected_concat :
    connected (book ++ [entry]) = entry.link?.getD (connected book) := by
  unfold connected
  rw [List.filterMap_append, List.getLast?_append]
  cases told : entry.link? with
  | none => simp [told]
  | some up => simp [told]

theorem accepted_concat :
    accepted (book ++ [entry]) = (accepted book || decide (entry.link? = some true)) := by
  simp [accepted]

theorem calls_concat (topics : Topics) :
    calls topics (book ++ [entry]) = calls topics book ++ (entry.call? topics).toList := by
  unfold calls
  rw [List.filterMap_append]
  cases told : entry.call? topics with
  | none => simp [told]
  | some call => simp [told]

/-- How one more entry changes what the book says of a pause. -/
theorem pausedUntil_concat_iff :
    PausedUntil backoff (book ++ [entry]) ends ↔
      (entry.matter = .outcome .failed ∧ ends = entry.now + pauseAfter backoff book) ∨
      (PausedUntil backoff book ends ∧ entry.matter ≠ .retry) := by
  constructor
  · rintro ⟨before, failure, later, split, failed, counted, still⟩
    rcases List.eq_nil_or_concat' later with rfl | ⟨earlier, final, rfl⟩
    · rcases List.append_inj' split rfl with ⟨rfl, same⟩
      obtain rfl : entry = failure := by simpa using same
      exact .inl ⟨failed, counted⟩
    · rw [← List.cons_append, ← List.append_assoc] at split
      rcases List.append_inj' split rfl with ⟨rfl, same⟩
      obtain rfl : entry = final := by simpa using same
      refine .inr ⟨⟨before, failure, earlier, rfl, failed, counted, ?_⟩, still entry (by simp)⟩
      exact fun other among => still other (List.mem_append_left _ among)
  · rintro (⟨failed, counted⟩ | ⟨⟨before, failure, later, rfl, failed, counted, still⟩, stays⟩)
    · exact ⟨book, entry, [], rfl, failed, counted, by simp⟩
    · refine ⟨before, failure, later ++ [entry], by simp, failed, counted, ?_⟩
      intro other among
      rcases List.mem_append.mp among with among | among
      · exact still other among
      · exact List.mem_singleton.mp among ▸ stays

end History

/-! ## Runs -/

/-- The bridge, what lies around it, and what it has attended to. -/
structure Crossing where
  now : Instant
  hub : Hub
  line : Line
  bridge : Bridge
  book : List Entry

namespace Crossing

def start (topics : Topics) (backoff autoOff : Span) (now : Instant) (hub : Hub) (line : Line) :
    Crossing :=
  let (bridge, hub) := Bridge.start topics backoff autoOff hub
  ⟨now, hub, line, bridge, []⟩

def adopt (x : Crossing) (matter : Matter) : Bridge × Hub × Line × List Deed → Crossing
  | (bridge, hub, line, deeds) => { x with
      hub := hub
      line := line
      bridge := bridge
      book := x.book ++ [⟨x.now, matter, deeds⟩] }

def turn? (x : Crossing) (branch : Bridge.Branch) : Option (Bridge × Hub × Line × List Deed) :=
  x.bridge.turn? x.now x.hub x.line branch

inductive Turns (x : Crossing) : Crossing → Prop
  | turn {branch : Bridge.Branch} {matter : Matter} {outcome : Bridge × Hub × Line × List Deed}
      (waiting : x.bridge.phase = .waiting)
      (found : x.bridge.finds? x.hub x.line branch = some matter)
      (turned : x.turn? branch = some outcome) : Turns x (x.adopt matter outcome)

inductive Move (x : Crossing) : Crossing → Prop
  | passes {later : Instant} (after : x.now ≤ later) : Move x { x with now := later }
  | stirs (hub : Hub) (line : Line) : Move x { x with hub := hub, line := line }
  | turns {y : Crossing} (turns : x.Turns y) : Move x y
  | goesOn {wait : Hub.Wait} {outcome : Bridge × Hub × Line × List Deed}
      (relaying : x.bridge.phase = .relaying wait)
      (stepped : x.bridge.step? x.now x.hub x.line = some outcome) :
      Move x (x.adopt .demand outcome)

/-- A step of the bridge, which takes the first branch with something in it. -/
theorem Move.of_step {x : Crossing} {outcome : Bridge × Hub × Line × List Deed}
    (stepped : x.bridge.step? x.now x.hub x.line = some outcome) :
    ∃ matter, x.Move (x.adopt matter outcome) := by
  cases phase : x.bridge.phase with
  | waiting =>
    simp only [Bridge.step?, phase] at stepped
    rcases List.exists_of_findSome?_eq_some stepped with ⟨branch, -, turned⟩
    rcases Bridge.exists_found turned with ⟨matter, found⟩
    exact ⟨matter, .turns (.turn phase found turned)⟩
  | relaying wait => exact ⟨.demand, .goesOn phase stepped⟩
  | ended | crashed => simp [Bridge.step?, phase] at stepped

/-- What can come of a start. -/
def Reachable (topics : Topics) (backoff autoOff : Span) (x : Crossing) : Prop :=
  ∃ now hub line, Relation.ReflTransGen Move (start topics backoff autoOff now hub line) x

end Crossing

/-! ## The bridge and the book -/

/-- The bridge knows what the book says. -/
structure Knows (topics : Topics) (backoff autoOff : Span) (book : List Entry)
    (bridge : Bridge) : Prop where
  topics_eq : bridge.topics = topics
  link_eq : bridge.link = ⟨backoff, connected book, accepted book⟩
  retry_iff : ∀ ends, bridge.retry = some ends ↔ PausedUntil backoff book ends
  tells : Tells autoOff (calls topics book) bridge.tracker

/-- What the history before an entry says about it. -/
structure Lawful (topics : Topics) (backoff : Span) (before : List Entry) (entry : Entry) :
    Prop where
  deeds_eq : entry.deeds = owed topics before entry.matter
  polled : ∀ outcome, entry.matter = .outcome outcome → ∀ ends, ¬ PausedUntil backoff before ends
  retried : entry.matter = .retry → ∀ ends, PausedUntil backoff before ends → ends ≤ entry.now

section Step

variable {topics : Topics} {backoff autoOff : Span} {book : List Entry} {bridge after : Bridge}
  {now : Instant} {hub next : Hub} {matter : Matter} {deeds : List Deed} {entry : Entry}

namespace Knows

theorem start (topics : Topics) (backoff autoOff : Span) (hub : Hub) :
    Knows topics backoff autoOff [] (Bridge.start topics backoff autoOff hub).1 where
  topics_eq := rfl
  link_eq := rfl
  retry_iff ends := iff_of_false nofun (by simp [PausedUntil])
  tells := .start autoOff

theorem pause_eq (knows : Knows topics backoff autoOff book bridge) :
    bridge.link.pause = pauseAfter backoff book := by
  rw [knows.link_eq]
  rfl

theorem not_paused (knows : Knows topics backoff autoOff book bridge)
    (free : bridge.retry = none) (ends : Instant) : ¬ PausedUntil backoff book ends := by
  rw [← knows.retry_iff, free]
  nofun

/-- An entry of which the bridge need not know more than before. -/
theorem of_concat (knows : Knows topics backoff autoOff book bridge)
    (topics_eq : after.topics = bridge.topics)
    (link_eq : after.link =
      entry.link?.elim bridge.link fun up => if up then bridge.link.up else bridge.link.down)
    (retry_iff : ∀ ends, after.retry = some ends ↔
      (entry.matter = .outcome .failed ∧ ends = entry.now + bridge.link.pause) ∨
      (bridge.retry = some ends ∧ entry.matter ≠ .retry))
    (tells : Tells autoOff (calls topics book ++ (entry.call? topics).toList) after.tracker) :
    Knows topics backoff autoOff (book ++ [entry]) after where
  topics_eq := topics_eq.trans knows.topics_eq
  link_eq := by
    rw [link_eq, knows.link_eq, connected_concat, accepted_concat]
    rcases entry.link? with - | - | -
    · simp
    · simp [Link.down]
    · simp [Link.up]
  retry_iff ends := by
    rw [retry_iff, pausedUntil_concat_iff, knows.retry_iff, knows.pause_eq]
  tells := by rwa [calls_concat]

theorem attends (knows : Knows topics backoff autoOff book bridge)
    (attends : bridge.Attends now hub matter after next deeds)
    (lasts : after.phase ≠ .crashed) :
    Knows topics backoff autoOff (book ++ [⟨now, matter, deeds⟩]) after := by
  have tells := knows.tells
  cases attends with
  | shutdown taken | state received | accepted free | other free | retry due | demand runs =>
    exact knows.of_concat rfl rfl (by simp) (by simpa [Entry.call?] using tells)
  | @unread topic payload free unread =>
    have silent : Entry.call? topics ⟨now, .outcome (.message topic payload), []⟩ = none := by
      rw [← knows.topics_eq]
      simp only [Entry.call?]
    exact knows.of_concat rfl rfl (by simp) (by simpa [silent] using tells)
  | @report topic payload event demanded tracker phase free read handled runs =>
    have called : Entry.call? topics ⟨now, .outcome (.message topic payload), []⟩ =
        some (.report event now) := by
      rw [← knows.topics_eq]
      simp only [Entry.call?, read]
    have answered : bridge.tracker.answer? (.report event now) =
        some (Feed.eventsOf demanded, tracker) := by
      rw [Presence.answer?, handled]
      rfl
    exact knows.of_concat rfl rfl (by simp) (called ▸ (tells.answer answered).1)
  | unhandled free read lost => exact absurd rfl lasts
  | failed free held =>
    exact knows.of_concat rfl rfl (by simp [free, eq_comm]) (by simpa [Entry.call?] using tells)
  | unheld free late => exact absurd rfl lasts
  | deadline due runs =>
    have answered : bridge.tracker.answer? (.deadline now) =
        some (Feed.eventsOf (Feed.atDeadline bridge.tracker now).1,
          (Feed.atDeadline bridge.tracker now).2) := rfl
    exact knows.of_concat rfl rfl (by simp) (tells.answer answered).1

theorem lawful (knows : Knows topics backoff autoOff book bridge)
    (attends : bridge.Attends now hub matter after next deeds) :
    Lawful topics backoff book ⟨now, matter, deeds⟩ := by
  have link : bridge.link.connected = connected book := by rw [knows.link_eq]
  cases attends with
  | shutdown taken => exact ⟨by rw [link, owed], nofun, nofun⟩
  | state received => exact ⟨by rw [link, owed], nofun, nofun⟩
  | accepted free => exact ⟨by rw [knows.topics_eq, owed], fun _ _ => knows.not_paused free, nofun⟩
  | other free | unread free | report free | unhandled free | failed free | unheld free =>
    exact ⟨rfl, fun _ _ => knows.not_paused free, nofun⟩
  | retry due =>
    refine ⟨rfl, nofun, fun _ ends paused => ?_⟩
    rw [(knows.retry_iff ends).mpr paused] at due
    exact of_decide_eq_true due
  | deadline due runs | demand runs => exact ⟨rfl, nofun, nofun⟩

/-- The bridge is lost only to an instant that the clock cannot hold. -/
theorem overran (knows : Knows topics backoff autoOff book bridge)
    (attends : bridge.Attends now hub matter after next deeds)
    (running : bridge.phase.runs = true) (crashed : after.phase = .crashed) :
    Overran topics backoff autoOff (book ++ [⟨now, matter, deeds⟩]) := by
  refine ⟨book, _, rfl, ?_⟩
  rcases attends.fate running with runs | ⟨ended, -⟩ |
    ⟨-, ⟨rfl, late⟩ | ⟨topic, payload, event, rfl, read, unhandled⟩⟩
  · rw [crashed] at runs
    cases runs
  · rw [crashed] at ended
    cases ended
  · exact .inl ⟨rfl, knows.pause_eq ▸ late⟩
  · rcases Feed.late_of_handle? unhandled with ⟨rfl, late⟩
    refine .inr ⟨?_, knows.tells.autoOff_eq ▸ late⟩
    rw [← knows.topics_eq]
    simp only [Entry.call?, read]

end Knows
end Step

namespace Crossing

variable {topics : Topics} {backoff autoOff : Span} {x y : Crossing}

/-- What holds in every run.  The book has been kept in the order of time, and all of it
is as its history says; the bridge knows what it says, unless it is lost. -/
structure Kept (topics : Topics) (backoff autoOff : Span) (x : Crossing) : Prop where
  past : ∀ entry ∈ x.book, entry.now ≤ x.now
  sorted : x.book.Pairwise fun first second => first.now ≤ second.now
  lawful : ∀ before entry later, x.book = before ++ entry :: later →
    Lawful topics backoff before entry
  knows : x.bridge.phase ≠ .crashed → Knows topics backoff autoOff x.book x.bridge
  crashes : x.bridge.phase = .crashed → Overran topics backoff autoOff x.book
  ends : x.bridge.phase = .ended → ∃ before last, x.book = before ++ [last] ∧
    last.matter = .shutdown

namespace Kept

theorem start (topics : Topics) (backoff autoOff : Span) (now : Instant) (hub : Hub)
    (line : Line) : Kept topics backoff autoOff (start topics backoff autoOff now hub line) where
  past _ among := absurd among List.not_mem_nil
  sorted := .nil
  lawful _ _ _ split := by simp [Crossing.start] at split
  knows _ := .start topics backoff autoOff hub
  crashes := nofun
  ends := nofun

theorem attends (kept : Kept topics backoff autoOff x) (runs : x.bridge.phase.runs = true)
    {matter : Matter} {bridge : Bridge} {hub : Hub} {line : Line} {deeds : List Deed}
    (attends : x.bridge.Attends x.now x.hub matter bridge hub deeds) :
    Kept topics backoff autoOff (x.adopt matter (bridge, hub, line, deeds)) := by
  have knows : Knows topics backoff autoOff x.book x.bridge := by
    apply kept.knows
    intro crashed
    rw [crashed] at runs
    cases runs
  refine ⟨?_, ?_, ?_, knows.attends attends, knows.overran attends runs, ?_⟩
  · intro entry among
    rcases List.mem_append.mp among with among | among
    · exact kept.past entry among
    · exact List.mem_singleton.mp among ▸ Nat.le_refl x.now
  · refine List.pairwise_append.mpr ⟨kept.sorted, List.pairwise_singleton _ _, ?_⟩
    intro entry among last here
    rw [List.mem_singleton.mp here]
    exact kept.past entry among
  · intro before entry later split
    rcases List.eq_nil_or_concat' later with rfl | ⟨earlier, final, rfl⟩
    · rcases List.append_inj' split rfl with ⟨rfl, same⟩
      exact List.singleton_inj.mp same ▸ knows.lawful attends
    · rw [← List.cons_append, ← List.append_assoc] at split
      exact kept.lawful before entry earlier (List.append_inj' split rfl).1
  · intro ended
    have here : bridge.phase = .ended := ended
    rcases attends.fate runs with running | ⟨-, signalled⟩ | ⟨crashed, -⟩
    · rw [here] at running
      cases running
    · exact ⟨x.book, _, rfl, signalled⟩
    · cases here.symm.trans crashed

theorem turns (kept : Kept topics backoff autoOff x) (turns : x.Turns y) :
    Kept topics backoff autoOff y := by
  rcases turns with ⟨waiting, found, turned⟩
  exact kept.attends (by rw [waiting]; rfl) (Bridge.attends_of_turn waiting found turned)

theorem move (kept : Kept topics backoff autoOff x) (move : x.Move y) :
    Kept topics backoff autoOff y := by
  cases move with
  | passes after =>
    exact ⟨fun entry among => (kept.past entry among).trans after, kept.sorted, kept.lawful,
      kept.knows, kept.crashes, kept.ends⟩
  | stirs hub line =>
    exact ⟨kept.past, kept.sorted, kept.lawful, kept.knows, kept.crashes, kept.ends⟩
  | turns turns => exact kept.turns turns
  | goesOn relaying stepped =>
    exact kept.attends (by rw [relaying]; rfl) (Bridge.attends_of_step relaying stepped)

end Kept

theorem Reachable.kept (reached : Reachable topics backoff autoOff x) :
    Kept topics backoff autoOff x := by
  rcases reached with ⟨now, hub, line, moves⟩
  induction moves with
  | refl => exact .start topics backoff autoOff now hub line
  | tail _ move inductionHypothesis => exact inductionHypothesis.move move

/-- After a failure the pause goes on, unless it has been over and the bridge has tried
again. -/
theorem Kept.paused_or_tried (kept : Kept topics backoff autoOff x)
    {before within later : List Entry} {failure : Entry}
    (split : x.book = before ++ failure :: (within ++ later))
    (failed : failure.matter = .outcome .failed) :
    PausedUntil backoff (before ++ failure :: within)
        (failure.now + pauseAfter backoff before) ∨
      ∃ entry ∈ within, failure.now + pauseAfter backoff before ≤ entry.now := by
  -- By induction on what has come since; only a try that the book allows ends the pause.
  induction within using List.reverseRecOn generalizing later with
  | nil => exact .inl ⟨before, failure, [], rfl, failed, rfl, by simp⟩
  | append_singleton within entry inductionHypothesis =>
    rw [List.append_assoc] at split
    rcases inductionHypothesis split with paused | ⟨tried, among, ended⟩
    · by_cases again : entry.matter = .retry
      · have law := kept.lawful (before ++ failure :: within) entry later (by simp [split])
        exact .inr ⟨entry, by simp, law.retried again _ paused⟩
      · rw [← List.cons_append, ← List.append_assoc]
        exact .inl (pausedUntil_concat_iff.mpr (.inr ⟨paused, again⟩))
    · exact .inr ⟨tried, List.mem_append_left _ among, ended⟩

/-- Between a failure and the next look at the connection the pause is over. -/
theorem Kept.rests (kept : Kept topics backoff autoOff x) {before within later : List Entry}
    {failure entry : Entry} {outcome : Outcome}
    (split : x.book = before ++ failure :: (within ++ entry :: later))
    (failed : failure.matter = .outcome .failed) (polled : entry.matter = .outcome outcome) :
    failure.now + pauseAfter backoff before ≤ entry.now := by
  have law := kept.lawful (before ++ failure :: within) entry later (by simp [split])
  rcases kept.paused_or_tried split failed with paused | ⟨tried, among, ended⟩
  · exact absurd paused (law.polled outcome polled _)
  · have sorted := kept.sorted
    rw [split, List.pairwise_append, List.pairwise_cons, List.pairwise_append] at sorted
    exact ended.trans (sorted.2.1.2.2.2 tried among entry List.mem_cons_self)

/-! ## What the bridge can turn to -/

/-- A bridge that does not wait for the end of a pause takes what comes out of the
connection. -/
theorem isSome_turn_outcome {bridge : Bridge} (free : bridge.retry = none) (now : Instant)
    (hub : Hub) (line : Line) :
    (bridge.turn? now hub line .outcome).isSome = line.next?.isSome := by
  cases yields : line.next? with
  | none => simp [Bridge.turn?, free, yields]
  | some outcome => simp [Bridge.turn?, free, yields]

section Present

variable (knows : Knows topics backoff autoOff x.book x.bridge)

include knows

/-- A pause keeps the bridge from the connection, and only until it is over. -/
theorem turn_paused {ends : Instant} (paused : PausedUntil backoff x.book ends) :
    x.turn? .outcome = none ∧
      x.turn? .retry =
        if ends ≤ x.now then some ({ x.bridge with retry := none }, x.hub, x.line, [])
        else none := by
  have retry := (knows.retry_iff ends).mpr paused
  constructor
  · simp [turn?, Bridge.turn?, retry]
  · simp [turn?, Bridge.turn?, retry, Instant.due]

/-- Without a pause the bridge takes what comes out of the connection. -/
theorem turn_free (free : ∀ ends, ¬ PausedUntil backoff x.book ends) :
    (x.turn? .outcome).isSome = x.line.next?.isSome ∧ x.turn? .retry = none := by
  have retry : x.bridge.retry = none := by
    rw [Option.eq_none_iff_forall_ne_some]
    exact fun ends set => free ends ((knows.retry_iff ends).mp set)
  constructor
  · exact isSome_turn_outcome retry x.now x.hub x.line
  · simp [turn?, Bridge.turn?, retry, Instant.due]

/-- An announced state is taken, pause or not. -/
theorem turn_state {state : State} {states : Topic State}
    (received : x.hub.states.receive? x.bridge.states = some (state, states)) :
    x.turn? .state = some (x.bridge, { x.hub with states := states }, x.line,
      owed topics x.book (.state state)) := by
  have link : x.bridge.link.connected = connected x.book := by rw [knows.link_eq]
  simp [turn?, Bridge.turn?, received, link, owed]

/-- The deadline of an absence is attended to once it is reached, pause or not. -/
theorem turn_deadline (waiting : x.bridge.phase = .waiting) {deadline : Instant}
    (pending : PendingUntil autoOff (calls topics x.book) deadline) (reached : deadline ≤ x.now) :
    ∃ bridge, x.turn? .deadline =
        some (bridge, (x.hub.postAll [.request Feed.closing]).2, x.line, []) ∧
      bridge.retry = x.bridge.retry := by
  have set := (knows.tells.deadline_iff deadline).mpr pending
  have due : Instant.due x.bridge.tracker.deadline x.now = true := by
    rw [set]
    exact decide_eq_true reached
  rcases knows.tells.bridge_rests due rfl x.hub x.line with ⟨bridge, turned, -, -⟩
  refine ⟨bridge, turned, ?_⟩
  have attends := Bridge.attends_of_turn waiting rfl turned
  generalize (x.hub.postAll _).2 = hub at attends
  cases attends with
  | deadline due runs => rfl

end Present

/-! ## What a pause can be put off by -/

/-- How much the bridge can attend to before it has to try again: what is announced to it,
the deadline of an absence, and the signal. -/
def load (x : Crossing) : Nat :=
  (x.hub.states.coming x.bridge.states).length + x.bridge.tracker.deadline.toList.length +
    match x.bridge.phase with
    | .waiting => 1
    | _ => 0

theorem load_le (x : Crossing) : x.load ≤ (x.hub.states.coming x.bridge.states).length + 2 := by
  have once : x.bridge.tracker.deadline.toList.length ≤ 1 := by
    cases x.bridge.tracker.deadline <;> simp
  unfold load
  split <;> omega

theorem publish_states (hub : Hub) (demanded : Option Demand) :
    (Relay.publish hub demanded).2.states = hub.states := by
  rcases demanded with - | active | -
  · rfl
  · rfl
  · rfl

/-- In a pause every turn makes the load smaller, unless the bridge tries again. -/
theorem Turns.load_lt (kept : Kept topics backoff autoOff x) (turns : x.Turns y) :
    ∃ entry, y.book = x.book ++ [entry] ∧
      (x.bridge.retry ≠ none → entry.matter ≠ .retry →
        y.load < x.load ∧ y.bridge.retry = x.bridge.retry) := by
  rcases turns with @⟨branch, matter, ⟨bridge, hub, line, deeds⟩, waiting, found, turned⟩
  have knows := kept.knows (by simp [waiting])
  refine ⟨_, rfl, fun paused other => ?_⟩
  cases Bridge.attends_of_turn waiting found turned with
  | @shutdown next taken =>
    have fewer := (next.states.coming_unsubscribe_sublist x.bridge.states x.bridge.states).length_le
    rw [(Server.Undisturbed.takeShutdown? taken).states_eq] at fewer
    simp only [load, adopt, waiting, (Server.Undisturbed.takeShutdown? taken).states_eq, and_true]
    omega
  | state received =>
    have first := congrArg List.length (Topic.coming_receive received)
    rw [List.length_cons] at first
    simp only [load, adopt, first, and_true]
    omega
  | accepted free | other free | unread free | report free | unhandled free | failed free
  | unheld free => exact absurd free paused
  | retry due => exact absurd rfl other
  | deadline due runs =>
    have closed := Feed.answer?_deadline_due due (knows.tells.present_of_due due)
    simp only [Presence.answer?, Option.some.injEq, Prod.mk.injEq] at closed
    have set : x.bridge.tracker.deadline.toList.length = 1 := by
      cases armed : x.bridge.tracker.deadline with
      | none => simp [armed, Instant.due] at due
      | some deadline => rfl
    simp only [load, adopt, publish_states, closed.2, set, waiting, Option.toList_none,
      List.length_nil, and_true]
    split <;> omega
  | demand runs => cases branch <;> simp [Bridge.finds?] at found

/-- In a pause there are no more turns than the load, unless the bridge tries again. -/
theorem length_le_load (kept : Kept topics backoff autoOff x) (paused : x.bridge.retry ≠ none)
    (turns : Relation.ReflTransGen Turns x y) :
    Kept topics backoff autoOff y ∧ ∃ more, y.book = x.book ++ more ∧
      ((∀ entry ∈ more, entry.matter ≠ .retry) →
        more.length + y.load ≤ x.load ∧ y.bridge.retry = x.bridge.retry) := by
  induction turns with
  | refl => exact ⟨kept, [], by simp, fun _ => ⟨by simp, rfl⟩⟩
  | tail _ turns inductionHypothesis =>
    rcases inductionHypothesis with ⟨keeps, more, split, less⟩
    rcases turns.load_lt keeps with ⟨entry, next, smaller⟩
    refine ⟨keeps.turns turns, more ++ [entry], by rw [next, split, List.append_assoc], ?_⟩
    intro never
    rcases List.forall_mem_append.mp never with ⟨before, last⟩
    rcases less before with ⟨loaded, same⟩
    rcases smaller (same ▸ paused) (last entry List.mem_cons_self) with ⟨fewer, still⟩
    rw [List.length_append, List.length_singleton]
    exact ⟨by omega, still.trans same⟩

/-! ## The policy -/

/-- The policy of the bridge, at any point of a run. -/
structure Policy (topics : Topics) (backoff autoOff : Span) (x : Crossing) : Prop where
  /-- Whatever the bridge attends to, it asks of the broker what is owed then, and nothing
  else: both feeds whenever a connection is accepted, and a state when it is taken, if
  there is a connection. -/
  deeds_eq : ∀ before entry later, x.book = before ++ entry :: later →
    entry.deeds = owed topics before entry.matter
  /-- After a failure nothing comes out of the connection before the pause is over. -/
  rests : ∀ before failure within entry later outcome,
    x.book = before ++ failure :: (within ++ entry :: later) →
    failure.matter = .outcome .failed → entry.matter = .outcome outcome →
    failure.now + pauseAfter backoff before ≤ entry.now
  /-- In a pause the bridge does not look at the connection.  It tries again exactly when
  the pause is over, and then takes whatever comes out of the connection. -/
  paused : x.bridge.phase = .waiting → ∀ ends, PausedUntil backoff x.book ends →
    x.turn? .outcome = none ∧
      x.turn? .retry =
        (if ends ≤ x.now then some ({ x.bridge with retry := none }, x.hub, x.line, [])
        else none) ∧
      ({ x.bridge with retry := none }.turn? x.now x.hub x.line .outcome).isSome =
        x.line.next?.isSome
  /-- Without a pause the bridge takes whatever comes out of the connection. -/
  free : x.bridge.phase = .waiting → (∀ ends, ¬ PausedUntil backoff x.book ends) →
    (x.turn? .outcome).isSome = x.line.next?.isSome ∧ x.turn? .retry = none
  /-- However the bridge chooses its branches, what lies before it puts off the next try
  for so many turns only. -/
  soon : x.bridge.phase = .waiting → ∀ ends, PausedUntil backoff x.book ends →
    ∀ y more, Relation.ReflTransGen Turns x y → y.book = x.book ++ more →
    (∀ entry ∈ more, entry.matter ≠ .retry) →
    more.length ≤ (x.hub.states.coming x.bridge.states).length + 2
  /-- An announced state is taken, pause or not. -/
  states : x.bridge.phase = .waiting → ∀ state states,
    x.hub.states.receive? x.bridge.states = some (state, states) →
    x.turn? .state = some (x.bridge, { x.hub with states := states }, x.line,
      owed topics x.book (.state state))
  /-- The deadline of an absence shuts everything once it is reached, pause or not. -/
  deadlines : x.bridge.phase = .waiting → ∀ deadline,
    PendingUntil autoOff (calls topics x.book) deadline → deadline ≤ x.now →
    ∃ bridge, x.turn? .deadline =
        some (bridge, (x.hub.postAll [.request Feed.closing]).2, x.line, []) ∧
      bridge.retry = x.bridge.retry
  /-- A demand that waits for room keeps the bridge exactly until there is room. -/
  goesOn : ∀ wait, x.bridge.phase = .relaying wait →
    (x.bridge.step? x.now x.hub x.line).isSome = x.hub.canProceed wait
  /-- The bridge ends with the signal, or with an instant that the clock cannot hold. -/
  lasts : x.bridge.phase.runs = true ∨
    (∃ before last, x.book = before ++ [last] ∧ last.matter = .shutdown) ∨
    Overran topics backoff autoOff x.book

/-- The bridge keeps to its policy, whatever comes out of the connection, whatever is
announced, and however much time passes. -/
theorem bridge_keeps_policy (reached : Reachable topics backoff autoOff x) :
    x.Policy topics backoff autoOff := by
  have kept := reached.kept
  have knows : x.bridge.phase = .waiting → Knows topics backoff autoOff x.book x.bridge :=
    fun waiting => kept.knows (by simp [waiting])
  refine ⟨?_, ?_, ?_, ?_, ?_, ?_, ?_, ?_, ?_⟩
  · intro before entry later split
    exact (kept.lawful before entry later split).deeds_eq
  · intro before failure within entry later outcome split failed polled
    exact kept.rests split failed polled
  · intro waiting ends paused
    rcases turn_paused (knows waiting) paused with ⟨left, again⟩
    exact ⟨left, again, isSome_turn_outcome rfl x.now x.hub x.line⟩
  · exact fun waiting free => turn_free (knows waiting) free
  · intro waiting ends paused y more turns split never
    have set : x.bridge.retry ≠ none := by
      rw [((knows waiting).retry_iff ends).mpr paused]
      nofun
    rcases length_le_load kept set turns with ⟨-, attended, same, less⟩
    rcases List.append_cancel_left (same.symm.trans split) with rfl
    exact ((Nat.le_add_right _ _).trans (less never).1).trans x.load_le
  · exact fun waiting state states received => turn_state (knows waiting) received
  · exact fun waiting deadline pending due => turn_deadline (knows waiting) waiting pending due
  · intro wait relaying
    simp only [Bridge.step?, relaying]
    cases x.hub.canProceed wait with
    | false => rfl
    | true => rcases x.hub.proceed wait with ⟨- | -, next⟩ <;> rfl
  · cases phase : x.bridge.phase with
    | waiting | relaying wait => exact .inl rfl
    | ended => exact .inr (.inl (kept.ends phase))
    | crashed => exact .inr (.inr (kept.crashes phase))

/-! ## Scripts -/

inductive Act
  | passes (span : Span)
  | announces (state : State)
  | yields (line : Line)
  | turns (branch : Bridge.Branch)

def act (x : Crossing) : Act → Option Crossing
  | .passes span => some { x with now := x.now + span }
  | .announces state => some { x with hub := (x.hub.publishState state).2 }
  | .yields line => some { x with line := line }
  | .turns branch =>
    if x.bridge.phase = .waiting then do
      let matter ← x.bridge.finds? x.hub x.line branch
      let outcome ← x.turn? branch
      return x.adopt matter outcome
    else none

theorem move_of_act {turn : Act} (acted : x.act turn = some y) : x.Move y := by
  cases turn with
  | passes span =>
    rcases Option.some.inj acted with rfl
    exact .passes (Nat.le_add_right _ _)
  | announces state =>
    rcases Option.some.inj acted with rfl
    exact .stirs (x.hub.publishState state).2 x.line
  | yields line =>
    rcases Option.some.inj acted with rfl
    exact .stirs x.hub line
  | turns branch =>
    simp only [act, Option.ite_none_right_eq_some, Option.bind_eq_bind, Option.bind_eq_some_iff,
      Option.pure_def, Option.some.injEq] at acted
    rcases acted with ⟨waiting, matter, found, outcome, turned, rfl⟩
    exact .turns (.turn waiting found turned)

def absence : List UInt8 := "\x7b\x22Present\x22:false\x7d".toUTF8.toList

/-- The broker cannot be reached at first.  When it can, the space is reported empty, and
the connection fails just before the deadline of the absence. -/
def faltering : List Act :=
  [.yields .unreachable, .turns .outcome, .announces .shut, .turns .state,
    .passes (Span.ofSeconds 300), .turns .retry,
    .yields ⟨[.accepted, .message Topics.standard.presence absence, .failed], true⟩,
    .turns .outcome, .turns .outcome, .announces .shut, .turns .state,
    .passes (Span.ofMillis 59500), .turns .outcome, .announces .shut, .turns .state,
    .passes (Span.ofMillis 500), .turns .deadline]

/-- In the pause after the second failure, which is a short one, the deadline of the
absence has been attended to, and the connection is still left alone. -/
theorem bridge_keeps_policy_when_faltering :
    ∃ x, Reachable .standard (Span.ofSeconds 300) (Span.ofSeconds 60) x ∧
      x.now = Span.ofSeconds 360 ∧ x.turn? .outcome = none ∧ x.turn? .retry = none ∧
      x.book.map (fun entry => entry.deeds) =
        [[], [], [], [.subscribed Topics.standard.laser, .subscribed Topics.standard.presence],
          [], [.republished .shut], [], [], []] := by
  let first := start .standard (Span.ofSeconds 300) (Span.ofSeconds 60) 0 (.empty 3) .unreachable
  have told : (faltering.foldlM act first).map (fun x =>
      (x.now, x.bridge.phase, x.bridge.retry, x.book.map fun entry => entry.deeds)) =
      some (Span.ofSeconds 360, .waiting, some (Span.ofMillis 360500),
        [[], [], [], [.subscribed Topics.standard.laser, .subscribed Topics.standard.presence],
          [], [.republished .shut], [], [], []]) := by
    decide +kernel
  rcases Option.map_eq_some_iff.mp told with ⟨x, played, looks⟩
  simp only [Prod.mk.injEq] at looks
  rcases looks with ⟨now, waiting, retry, deeds⟩
  have reached : Reachable .standard (Span.ofSeconds 300) (Span.ofSeconds 60) x :=
    ⟨0, .empty 3, .unreachable, Script.reflTransGen move_of_act played⟩
  have knows := reached.kept.knows (by simp [waiting])
  obtain ⟨left, again, -⟩ := (bridge_keeps_policy reached).paused waiting _
    ((knows.retry_iff _).mp retry)
  rw [now, if_neg (by decide)] at again
  exact ⟨x, reached, now, left, again, deeds⟩

end Crossing
end Broker
end Ventilation
