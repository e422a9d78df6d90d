import Ventilation.Proofs.Arbitration.Docket
import Ventilation.Proofs.Client.Rewording
import Ventilation.Proofs.Client.Wrapping
import Ventilation.Proofs.Server.Posting

namespace Ventilation

/-!
# What remote clients can bring about

Everything that reaches the arbiter is asked for in a text of a client or by the
feeds, or it is a deadline.  The desk takes all this in the order in which it
comes, each thing until the arbiter has ruled on everything that it asks for.

Two tours of the desk are compared.  In the second one, the texts in which a
remote client would change interlocks are missing, and requests for a state say
whatever they like about the flags.  Nobody but the sender of a missing text can
tell the two apart: the same states are announced, the same is known after each
thing that is left, interlocks and their deadlines included, and all others are
told the same.
-/

open Bus (Hub)
open Client (Command Reworded wish)
open Json (Document)

/-! ## What can be told of a ruling -/

/-- What can be told of a ruling from outside: whose event it was, what is
announced, what the sender is told, and what is known afterwards. -/
structure Effect where
  client : Option Nat
  announced : Option State
  told : List Client.Reply
  arb : Arbitration
  deriving DecidableEq, Repr

/-- What can be told of a case from outside. -/
def Case.effect (case : Case) : Effect :=
  ⟨case.event.client, case.verdict.announced, case.verdict.told, case.verdict.arb⟩

namespace ArbiterEvent

/-- Two events that differ at most in the flags of a state that is asked for. -/
inductive Alike : ArbiterEvent → ArbiterEvent → Prop
  | same (event : ArbiterEvent) : Alike event event
  | request {first second : State} {origin : Origin} {reply : Option Nat}
      (same : second.withLocks .none = first.withLocks .none) :
      Alike (.request ⟨first, origin, reply⟩) (.request ⟨second, origin, reply⟩)

theorem Alike.client_eq {first second : ArbiterEvent} (alike : Alike first second) :
    second.client = first.client := by
  cases alike <;> rfl

/-- A request to change an interlock by someone who may not. -/
def Refused (event : ArbiterEvent) : Prop := ∃ r, event = .lock r ∧ r.origin = .remote

end ArbiterEvent

namespace Arbitration

variable {arb : Arbitration} {now : Instant}

theorem request_withLocks (arb : Arbitration) (requested : State) (locks : Locks)
    (origin : Origin) :
    arb.request (requested.withLocks locks) origin = arb.request requested origin := by
  cases origin with
  | «local» => rfl
  | remote => rfl

/-- Events that are alike have the same effect; only what is logged may differ. -/
theorem judge_of_alike (arb : Arbitration) (now : Instant) {first second : ArbiterEvent}
    (alike : first.Alike second) :
    (arb.judge now second).map (fun verdict => (verdict.announced, verdict.told, verdict.arb)) =
      (arb.judge now first).map fun verdict => (verdict.announced, verdict.told, verdict.arb) := by
  cases alike with
  | same event => rfl
  | @request first second origin reply same =>
    have answer : arb.request second origin = arb.request first origin := by
      rw [← arb.request_withLocks second .none, same, arb.request_withLocks]
    simp only [judge, answer]
    rcases arb.request first origin with hazard | ⟨state, next⟩
    · simp only [Option.map_some]
    · simp only [Option.map_some]

/-- Someone who may not change an interlock changes nothing. -/
theorem judge_of_refused (arb : Arbitration) (now : Instant) {event : ArbiterEvent}
    (refused : event.Refused) :
    ∃ verdict, arb.judge now event = some verdict ∧ verdict.announced = none ∧
      verdict.arb = arb := by
  rcases refused with ⟨⟨lock, active, origin, reply⟩, rfl, rfl⟩
  exact ⟨_, rfl, rfl, rfl⟩

/-- Events that are alike, one by one, have the same effects. -/
theorem docket_of_alike (arb : Arbitration) {events others : List (Instant × ArbiterEvent)}
    (alike : List.Forall₂ (fun first second => second.1 = first.1 ∧ first.2.Alike second.2)
      events others) :
    (arb.docket others).map Case.effect = (arb.docket events).map Case.effect := by
  induction alike generalizing arb with
  | nil => rfl
  | @cons first second events others head tail inductionHypothesis =>
    rcases first with ⟨now, first⟩
    rcases second with ⟨same, second⟩
    rcases head with ⟨rfl, head⟩
    have ruled := arb.judge_of_alike same head
    cases judged : arb.judge same first with
    | none =>
      rw [judged, Option.map_none, Option.map_eq_none_iff] at ruled
      rw [docket_of_unjudged judged, docket_of_unjudged ruled]
    | some verdict =>
      rw [judged, Option.map_some, Option.map_eq_some_iff] at ruled
      rcases ruled with ⟨other, judgedToo, ruled⟩
      simp only [Prod.mk.injEq] at ruled
      rcases ruled with ⟨announced, told, known⟩
      rw [docket_of_judged judged, docket_of_judged judgedToo, List.map_cons, List.map_cons,
        known, inductionHypothesis]
      simp only [Case.effect, head.client_eq, announced, told, known]

/-- What is known after some cases is seen from their effects. -/
theorem closing_eq_of_effects {cases others : List Case}
    (same : others.map Case.effect = cases.map Case.effect) :
    arb.closing others = arb.closing cases := by
  have last := congrArg (fun effects => effects.getLast?.map Effect.arb) same
  simp only [List.getLast?_map, Option.map_map] at last
  exact congrArg (Option.getD · arb) last

/-- Those who may not change interlocks are all heard, and nothing comes of it. -/
theorem docket_of_refused (arb : Arbitration) {events : List (Instant × ArbiterEvent)}
    (refused : ∀ entry ∈ events, entry.2.Refused) :
    (arb.docket events).length = events.length ∧
      Case.announcements (arb.docket events) = [] ∧ arb.closing (arb.docket events) = arb := by
  induction events with
  | nil => exact ⟨rfl, rfl, rfl⟩
  | cons first rest inductionHypothesis =>
    rcases first with ⟨now, event⟩
    rcases arb.judge_of_refused now (refused _ List.mem_cons_self) with
      ⟨verdict, judged, silent, still⟩
    rcases inductionHypothesis fun entry later => refused entry (List.mem_cons_of_mem _ later) with
      ⟨whole, nothing, same⟩
    rw [docket_of_judged judged, Case.announcements_cons, closing_cons, silent, still]
    exact ⟨congrArg Nat.succ whole, nothing, same⟩

/-- There is a verdict on every event if the clock can hold the deadlines. -/
theorem docket_length {events : List (Instant × ArbiterEvent)}
    (held : ∀ entry ∈ events, entry.1 + arb.lockTimeout < Instant.limit) :
    (arb.docket events).length = events.length := by
  induction events generalizing arb with
  | nil => rfl
  | cons first rest inductionHypothesis =>
    rcases first with ⟨now, event⟩
    cases judged : arb.judge now event with
    | none =>
      rcases judge_eq_none_iff.mp judged with ⟨r, -, -, -, late⟩
      exact absurd (held _ List.mem_cons_self) (Nat.not_lt.mpr late)
    | some verdict =>
      rcases performs_of_judge judged with ⟨answer, performs, -⟩
      rw [docket_of_judged judged, List.length_cons, List.length_cons, inductionHypothesis]
      intro entry later
      rw [performs.lockTimeout_eq]
      exact held entry (List.mem_cons_of_mem _ later)

end Arbitration

/-! ## The desk -/

namespace Server

/-- What is known at the desk: the arbitration, and what the feeds reported last. -/
structure Desk where
  arb : Arbitration
  presence : Feed.Presence
  deriving DecidableEq, Repr

namespace Desk

inductive Input
  /-- A client sends a text. -/
  | text (client : Nat) (origin : Origin) (text : String)
  /-- A feed reports something. -/
  | report (event : Feed.Event)
  /-- The space may have been empty for long enough. -/
  | absence
  /-- Interlocks may have been held for long enough. -/
  | expiry
  deriving DecidableEq, Repr

/-- Something that comes to the desk, when it is taken, and when the arbiter
rules on each of the things that it asks for. -/
structure Entry where
  input : Input
  now : Instant
  ruled : Nat → Instant

namespace Entry

/-- Whether this is a text in which a remote client would change interlocks. -/
def forbidden (entry : Entry) : Bool :=
  match entry.input with
  | .text _ .remote text =>
    match Command.read text with
    | .ok (.lock _) => true
    | _ => false
  | _ => false

def allowed (entry : Entry) : Bool := !entry.forbidden

/-- The events that are asked for, each with the instant of its ruling. -/
def timed (entry : Entry) (events : List ArbiterEvent) : List (Instant × ArbiterEvent) :=
  events.mapIdx fun place event => (entry.ruled place, event)

/-- The same comes at the same time, except that the flags in a request for a
state may differ, as long as both requests are understood. -/
inductive Alike : Entry → Entry → Prop
  | same (entry : Entry) : Alike entry entry
  | reworded {client : Nat} {origin : Origin} {before after : String} {now : Instant}
      {ruled : Nat → Instant} {documentOne documentTwo : Document} {state : State}
      {command : Command} (parsedOne : Document.ofChars? before.toList = some documentOne)
      (parsedTwo : Document.ofChars? after.toList = some documentTwo)
      (reworded : Reworded documentOne documentTwo)
      (asked : Command.read before = .ok (.change state))
      (understood : Command.read after = .ok command) :
      Alike ⟨.text client origin before, now, ruled⟩ ⟨.text client origin after, now, ruled⟩

end Entry

def asked? (desk : Desk) (entry : Entry) : Option (List ArbiterEvent × Feed.Presence) :=
  match entry.input with
  | .text client origin text => some (Command.eventsOf client origin text, desk.presence)
  | .report event =>
    (Feed.handle? desk.presence event entry.now).map fun (demanded, presence) =>
      (Feed.eventsOf demanded, presence)
  | .absence =>
    let (demanded, presence) := Feed.atDeadline desk.presence entry.now
    some (Feed.eventsOf demanded, presence)
  | .expiry => some ([.deadline], desk.presence)

section Relaying

variable {desk : Desk} {events : List ArbiterEvent} {presence : Feed.Presence}
  {relay : Feed.Relay} {now : Instant} {ruled : Nat → Instant} (hub : Hub)

/-- The relay does with a report what the desk does. -/
theorem relay_of_report {event : Feed.Event} {later : List Feed.Event}
    (asked : desk.asked? ⟨.report event, now, ruled⟩ = some (events, presence))
    (same : relay.tracker = desk.presence) (next : relay.inbox = event :: later) :
    ∃ after, relay.turn? now hub .report = some (after, (hub.postAll events).2) ∧
      after.tracker = presence := by
  rcases Option.map_eq_some_iff.mp asked with ⟨⟨demanded, tracker⟩, handled, answer⟩
  rcases Prod.mk.inj answer with ⟨rfl, rfl⟩
  exact Feed.Relay.turn_report hub next (same ▸ handled)

/-- The relay does with a deadline that is reached what the desk does. -/
theorem relay_of_absence (asked : desk.asked? ⟨.absence, now, ruled⟩ = some (events, presence))
    (same : relay.tracker = desk.presence) (due : Instant.due relay.tracker.deadline now = true) :
    ∃ after, relay.turn? now hub .deadline = some (after, (hub.postAll events).2) ∧
      after.tracker = presence := by
  rcases Prod.mk.inj (Option.some.inj asked) with ⟨rfl, rfl⟩
  rw [← same]
  exact Feed.Relay.turn_deadline hub due

end Relaying

/-- What an input has led to. -/
structure Point where
  entry : Entry
  before : Desk
  cases : List Case
  after : Desk

/-- What can be told of a point from outside: the announced states, what each
sender was told, and what is known afterwards. -/
structure Outcome where
  published : List State
  told : List (Option Nat × List Client.Reply)
  after : Desk
  deriving DecidableEq, Repr

/-- What can be told of a point from outside. -/
def Point.outcome (point : Point) : Outcome where
  published := Case.announcements point.cases
  told := point.cases.map fun case => (case.event.client, case.verdict.told)
  after := point.after

/-- Have the arbiter rule on what an entry asks for. -/
def rule (desk : Desk) (entry : Entry) (events : List ArbiterEvent) (presence : Feed.Presence) :
    Point :=
  let cases := desk.arb.docket (entry.timed events)
  ⟨entry, desk, cases, ⟨desk.arb.closing cases, presence⟩⟩

/-- Take one entry after another, up to the first at which the clock overflows. -/
def tour (desk : Desk) : List Entry → List Point
  | [] => []
  | entry :: rest =>
    match desk.asked? entry with
    | none => []
    | some (events, presence) =>
      let point := desk.rule entry events presence
      point :: if point.cases.length = events.length then point.after.tour rest else []

/-- The clock can hold the deadlines that an entry may set. -/
def Holds (desk : Desk) (entry : Entry) : Prop :=
  entry.now + desk.presence.autoOff < Instant.limit ∧
    ∀ place, entry.ruled place + desk.arb.lockTimeout < Instant.limit

variable {desk : Desk} {entry first second : Entry} {events : List ArbiterEvent}
  {presence : Feed.Presence} {entries others : List Entry}

theorem tour_of_asked (asked : desk.asked? entry = some (events, presence)) (rest : List Entry) :
    desk.tour (entry :: rest) =
      desk.rule entry events presence ::
        if (desk.rule entry events presence).cases.length = events.length then
          (desk.rule entry events presence).after.tour rest
        else [] := by
  simp only [tour, asked]

theorem tour_of_unasked (unasked : desk.asked? entry = none) (rest : List Entry) :
    desk.tour (entry :: rest) = [] := by
  simp only [tour, unasked]

/-! ## Texts that are missing -/

theorem mem_timed {placed : Instant × ArbiterEvent} (among : placed ∈ entry.timed events) :
    placed.2 ∈ events := by
  rcases List.mem_mapIdx.mp among with ⟨place, below, rfl⟩
  exact List.getElem_mem below

@[simp] theorem length_timed (entry : Entry) (events : List ArbiterEvent) :
    (entry.timed events).length = events.length := List.length_mapIdx

/-- A text that is to be missing asks for nothing but what is refused. -/
theorem asked?_of_forbidden (desk : Desk) (forbidden : entry.allowed = false) :
    ∃ events, desk.asked? entry = some (events, desk.presence) ∧
      ∀ event ∈ events, event.Refused := by
  rcases entry with ⟨input, now, ruled⟩
  simp only [Entry.allowed, Entry.forbidden, Bool.not_eq_false'] at forbidden
  split at forbidden
  · next client text =>
    split at forbidden
    · next changes read =>
      refine ⟨changes.map (Command.lockEvent client .remote), ?_, ?_⟩
      · simp only [asked?, Command.eventsOf, read, Command.events]
      · intro event among
        rcases List.mem_map.mp among with ⟨change, -, rfl⟩
        exact ⟨_, rfl, rfl⟩
    · cases forbidden
  · cases forbidden

/-- Nothing comes of a text that is to be missing. -/
theorem rule_of_refused (desk : Desk) (entry : Entry) (refused : ∀ event ∈ events, event.Refused) :
    (desk.rule entry events desk.presence).cases.length = events.length ∧
      (desk.rule entry events desk.presence).outcome.published = [] ∧
      (desk.rule entry events desk.presence).after = desk := by
  have among : ∀ placed ∈ entry.timed events, placed.2.Refused :=
    fun placed among => refused _ (mem_timed among)
  rcases desk.arb.docket_of_refused among with ⟨whole, nothing, same⟩
  refine ⟨?_, nothing, ?_⟩
  · rw [← length_timed entry events]
    exact whole
  · simp only [rule, same]

/-- Without the texts that are to be missing, the other points are the same. -/
theorem tour_filter (desk : Desk) (entries : List Entry) :
    (desk.tour entries).filter (fun point => point.entry.allowed) =
      desk.tour (entries.filter Entry.allowed) := by
  induction entries generalizing desk with
  | nil => rfl
  | cons entry rest inductionHypothesis =>
    cases allowed : entry.allowed with
    | false =>
      -- The desk is as before after a text that is missing, so the rest goes on alike.
      rw [List.filter_cons_of_neg (by simp [allowed]), ← inductionHypothesis]
      rcases asked?_of_forbidden desk allowed with ⟨events, asked, refused⟩
      rcases rule_of_refused desk entry refused with ⟨whole, -, same⟩
      have missing : ¬ (desk.rule entry events desk.presence).entry.allowed = true := by
        simp [rule, allowed]
      rw [tour_of_asked asked, if_pos whole, same, List.filter_cons, if_neg missing]
    | true =>
      rw [List.filter_cons_of_pos allowed]
      cases asked : desk.asked? entry with
      | none => rw [tour_of_unasked asked, tour_of_unasked asked, List.filter_nil]
      | some answer =>
        rcases answer with ⟨events, presence⟩
        have stays : (desk.rule entry events presence).entry.allowed = true := allowed
        rw [tour_of_asked asked, tour_of_asked asked, ← inductionHypothesis, List.filter_cons,
          if_pos stays]
        congr 1
        split
        · rfl
        · rfl

/-- Nothing is announced and nothing changes at a point that is to be missing. -/
theorem unchanged_of_mem_tour {point : Point} (among : point ∈ desk.tour entries)
    (forbidden : point.entry.allowed = false) :
    point.outcome.published = [] ∧ point.after = point.before := by
  induction entries generalizing desk with
  | nil => cases among
  | cons entry rest inductionHypothesis =>
    cases asked : desk.asked? entry with
    | none =>
      rw [tour_of_unasked asked] at among
      cases among
    | some answer =>
      rcases answer with ⟨events, presence⟩
      rw [tour_of_asked asked] at among
      rcases List.mem_cons.mp among with rfl | later
      · rcases asked?_of_forbidden desk forbidden with ⟨heard, said, refused⟩
        cases said.symm.trans asked
        exact (rule_of_refused desk entry refused).2
      · split at later
        · exact inductionHypothesis later
        · cases later

/-- Altogether the same is announced at the other points. -/
theorem flatMap_published_filter (desk : Desk) (entries : List Entry) :
    ((desk.tour entries).filter fun point => point.entry.allowed).flatMap
        (fun point => point.outcome.published) =
      (desk.tour entries).flatMap fun point => point.outcome.published := by
  have silent : ∀ point ∈ desk.tour entries, point.entry.allowed = false →
      point.outcome.published = [] :=
    fun point among forbidden => (unchanged_of_mem_tour among forbidden).1
  generalize desk.tour entries = points at silent
  induction points with
  | nil => rfl
  | cons point rest inductionHypothesis =>
    have later := inductionHypothesis fun other among => silent other (List.mem_cons_of_mem _ among)
    rw [List.filter_cons, List.flatMap_cons]
    cases allowed : point.entry.allowed with
    | false =>
      rw [silent point List.mem_cons_self allowed]
      exact later
    | true => exact congrArg (point.outcome.published ++ ·) later

/-! ## Texts that are reworded -/

/-- Entries that are alike ask for the same apart from flags. -/
theorem asked?_of_alike (desk : Desk) (alike : first.Alike second) :
    (desk.asked? first = none ∧ desk.asked? second = none) ∨
      ∃ events others presence, desk.asked? first = some (events, presence) ∧
        desk.asked? second = some (others, presence) ∧ events.length = others.length ∧
        List.Forall₂ (fun one two => two.1 = one.1 ∧ one.2.Alike two.2)
          (first.timed events) (second.timed others) := by
  cases alike with
  | same =>
    cases asked : desk.asked? first with
    | none => exact .inl ⟨rfl, rfl⟩
    | some answer =>
      refine .inr ⟨answer.1, answer.1, answer.2, rfl, rfl, rfl, ?_⟩
      exact List.forall₂_same.mpr fun placed _ => ⟨rfl, .same placed.2⟩
  | @reworded client origin before after now ruled _ _ state _ parsedOne parsedTwo reworded asked
      understood =>
    rcases Command.change_of_reworded parsedOne parsedTwo reworded asked understood with
      ⟨other, rfl, same⟩
    refine .inr ⟨[.request ⟨state, origin, some client⟩], [.request ⟨other, origin, some client⟩],
      desk.presence, ?_, ?_, rfl, ?_⟩
    · simp only [asked?, Command.eventsOf, asked, Command.events]
    · simp only [asked?, Command.eventsOf, understood, Command.events]
    · exact .cons ⟨rfl, .request same⟩ .nil

/-- What can be told of a point is seen from the effects of its cases. -/
theorem outcome_of_effects {one two : Point} (same : two.after = one.after)
    (effects : two.cases.map Case.effect = one.cases.map Case.effect) :
    two.outcome = one.outcome := by
  have published := congrArg (List.filterMap Effect.announced) effects
  have told := congrArg (List.map fun effect => (effect.client, effect.told)) effects
  rw [List.filterMap_map, List.filterMap_map] at published
  rw [List.map_map, List.map_map] at told
  simp only [Point.outcome, Outcome.mk.injEq]
  exact ⟨published, told, same⟩

/-- Entries that are alike, one by one, have the same outcomes. -/
theorem tour_of_alike (alike : List.Forall₂ Entry.Alike entries others) :
    (desk.tour others).map Point.outcome = (desk.tour entries).map Point.outcome := by
  induction alike generalizing desk with
  | nil => rfl
  | @cons first second entries others head tail inductionHypothesis =>
    rcases asked?_of_alike desk head with
      ⟨unasked, unaskedToo⟩ | ⟨events, heard, presence, asked, askedToo, many, alike⟩
    · rw [tour_of_unasked unasked, tour_of_unasked unaskedToo]
    · have effects := desk.arb.docket_of_alike alike
      have known : (desk.rule second heard presence).after =
          (desk.rule first events presence).after := by
        simp only [rule, Arbitration.closing_eq_of_effects effects]
      have ruled : (desk.rule second heard presence).cases.length =
          (desk.rule first events presence).cases.length := by
        have counted := congrArg List.length effects
        rw [List.length_map, List.length_map] at counted
        exact counted
      rw [tour_of_asked asked, tour_of_asked askedToo, List.map_cons, List.map_cons,
        outcome_of_effects known effects, ruled, known, many]
      congr 1
      split
      · exact inductionHypothesis
      · rfl

/-! ## The whole tour -/

/-- If the clock can hold the deadlines, an entry is heard. -/
theorem exists_asked (holds : desk.Holds entry) :
    ∃ events presence, desk.asked? entry = some (events, presence) ∧
      presence.autoOff = desk.presence.autoOff := by
  rcases entry with ⟨input, now, ruled⟩
  rcases input with ⟨client, origin, text⟩ | ⟨inUse | present⟩ | - | -
  · exact ⟨_, _, rfl, rfl⟩
  · exact ⟨_, _, rfl, rfl⟩
  · have named : now.after? desk.presence.autoOff = some (now + desk.presence.autoOff) :=
      if_pos holds.1
    simp only [asked?, Feed.handle?, Feed.Presence.report?, named, Option.map_some]
    split
    · exact ⟨_, _, rfl, rfl⟩
    · split
      · exact ⟨_, _, rfl, rfl⟩
      · exact ⟨_, _, rfl, rfl⟩
  · exact ⟨_, _, rfl, Feed.atDeadline_autoOff desk.presence now⟩
  · exact ⟨_, _, rfl, rfl⟩

/-- If the clock can hold the deadlines, there is a ruling on everything, and how
long interlocks are held does not change. -/
theorem rule_of_holds (holds : desk.Holds entry) (events : List ArbiterEvent)
    (presence : Feed.Presence) :
    (desk.rule entry events presence).cases.length = events.length ∧
      (desk.rule entry events presence).after.arb.lockTimeout = desk.arb.lockTimeout := by
  constructor
  · rw [← length_timed entry events]
    apply Arbitration.docket_length
    intro placed among
    rcases List.mem_mapIdx.mp among with ⟨place, -, rfl⟩
    exact holds.2 place
  · apply @Arbitration.closing_docket_kept _ (fun arb => arb.lockTimeout = desk.arb.lockTimeout)
    · intro before event answer after performs kept
      rw [performs.lockTimeout_eq, kept]
    · rfl

/-- If the clock can hold all deadlines, every entry has its point. -/
theorem tour_entries (holds : ∀ entry ∈ entries, desk.Holds entry) :
    (desk.tour entries).map Point.entry = entries := by
  induction entries generalizing desk with
  | nil => rfl
  | cons entry rest inductionHypothesis =>
    have first := holds entry List.mem_cons_self
    rcases exists_asked first with ⟨events, presence, asked, autoOff⟩
    rcases rule_of_holds first events presence with ⟨whole, lockTimeout⟩
    rw [tour_of_asked asked, if_pos whole, List.map_cons, inductionHypothesis]
    · rfl
    · intro later among
      have held := holds later (List.mem_cons_of_mem _ among)
      unfold Holds at held ⊢
      rw [lockTimeout]
      exact ⟨autoOff ▸ held.1, held.2⟩

/-- Remote clients cannot influence interlocks.  Let the texts be missing in which
remote clients would change interlocks, and let the requests for a state say
whatever they like about the flags.  Then the same states are announced
altogether, and at every point that is left the same is announced, the same is
known afterwards, and everyone is told the same.  Nothing is announced and
nothing changes at a point that is missing.  The tours are whole unless the clock
overflows. -/
theorem remote_clients_cannot_touch_interlocks (desk : Desk)
    (alike : List.Forall₂ Entry.Alike (entries.filter Entry.allowed) others) :
    (desk.tour others).flatMap (fun point => point.outcome.published) =
        (desk.tour entries).flatMap (fun point => point.outcome.published) ∧
      (desk.tour others).map Point.outcome =
        ((desk.tour entries).filter fun point => point.entry.allowed).map Point.outcome ∧
      (∀ point ∈ desk.tour entries, point.entry.allowed = false →
        point.outcome.published = [] ∧ point.after = point.before) ∧
      ((∀ entry ∈ entries, desk.Holds entry) → (desk.tour entries).map Point.entry = entries) := by
  have outcomes : (desk.tour others).map Point.outcome =
      ((desk.tour entries).filter fun point => point.entry.allowed).map Point.outcome := by
    rw [tour_filter]
    exact tour_of_alike alike
  refine ⟨?_, outcomes, fun point among => unchanged_of_mem_tour among, tour_entries⟩
  have published := congrArg (List.flatMap Outcome.published) outcomes
  rw [List.flatMap_map, List.flatMap_map] at published
  exact published.trans (flatMap_published_filter desk entries)

/-! ## A tour -/

/-- What a request for a state of the first damper and the fan says. -/
def wished (damper fan : String) (flags : List Json.Member) : Document :=
  Client.envelope "ventchange" (.object
    ([Document.field "Damper1" (.ofText damper), Document.field "Damper2" (.ofText "closed"),
      Document.field "Damper3" (.ofText "closed"), Document.field "Fan" (.ofText fan)] ++ flags))

theorem wished_reworded (damper fan : String) {one two : List Json.Member}
    (flags : one.filter (Document.stays State.isOutput) = [])
    (others : two.filter (Document.stays State.isOutput) = []) :
    Reworded (wished damper fan one) (wished damper fan two) := by
  apply @Reworded.object [Document.field "ctx" (.ofText "ventchange")] []
  · decide +kernel
  · apply State.Reflagged.object
    rw [List.filter_append, List.filter_append, flags, others]

/-- Something that is ruled on as soon as it comes. -/
def Entry.at (now : Instant) (input : Input) : Entry := ⟨input, now, fun _ => now⟩

theorem holds_at {now : Instant} (absence : now + desk.presence.autoOff < Instant.limit)
    (interlock : now + desk.arb.lockTimeout < Instant.limit) (input : Input) :
    desk.Holds (.at now input) := ⟨absence, fun _ => interlock⟩

def opening : List Entry :=
  [.at 0 (.text 1 .local (wish "open" "on" "")),
    .at 1 (.text 1 .local "[\"lockchange\",[true,null]]")]

/-- A remote client would have the laser released and the OLGA interlock set. -/
def touching : Entry := .at 2 (.text 2 .remote "[\"lockchange\",[false,true]]")

/-- A remote client would shut everything, which it may when the feed has reported
that the laser is off. -/
def shutting (flags : String) : List Entry :=
  [.at 3 (.text 2 .remote (wish "closed" "off" flags)), .at 4 (.report (.laser false)),
    .at 5 (.text 2 .remote (wish "closed" "off" flags)), .at 6 .expiry]

/-- What comes to the desk, with a text that touches the interlocks. -/
def plain : List Entry := opening ++ touching :: shutting ""

/-- The same without that text, and with flags that say that the laser is off. -/
def pretending : List Entry := opening ++ shutting ",\"LaserLock\":false"

theorem plain_filter : plain.filter Entry.allowed = opening ++ shutting "" := by
  have allowed : ∀ entry ∈ opening ++ shutting "", entry.allowed = true := by decide +kernel
  have missing : ¬ touching.allowed = true := by decide +kernel
  rw [plain, List.filter_append, List.filter_cons_of_neg missing, ← List.filter_append]
  exact List.filter_eq_self.mpr allowed

theorem alike_of_shutting (client : Nat) (origin : Origin) (now : Instant) :
    Entry.Alike (.at now (.text client origin (wish "closed" "off" "")))
      (.at now (.text client origin (wish "closed" "off" ",\"LaserLock\":false"))) := by
  have asked : Command.read (wish "closed" "off" "") = .ok (.change .shut) := by decide +kernel
  have understood : Command.read (wish "closed" "off" ",\"LaserLock\":false") =
      .ok (.change .shut) := by
    decide +kernel
  let flags : List Json.Member := [Document.field "LaserLock" (.bool false)]
  have saysOne : Document.ofChars? (wish "closed" "off" "").toList =
      some (wished "closed" "off" []) :=
    @Document.ofChars?_of_tokens _ (wished "closed" "off" []).tokens _ (by decide +kernel) rfl
  have saysTwo : Document.ofChars? (wish "closed" "off" ",\"LaserLock\":false").toList =
      some (wished "closed" "off" flags) :=
    @Document.ofChars?_of_tokens _ (wished "closed" "off" flags).tokens _ (by decide +kernel) rfl
  have flagged : flags.filter (Document.stays State.isOutput) = [] :=
    List.filter_eq_nil_iff.mpr (by decide +kernel)
  exact .reworded saysOne saysTwo (wished_reworded "closed" "off" rfl flagged) asked understood

theorem plain_pretending : List.Forall₂ Entry.Alike (plain.filter Entry.allowed) pretending := by
  rw [plain_filter]
  refine .cons (.same _) (.cons (.same _) ?_)
  refine .cons (alike_of_shutting 2 .remote 3) (.cons (.same _) ?_)
  exact .cons (alike_of_shutting 2 .remote 5) (.cons (.same _) .nil)

/-- Neither a text that touches the interlocks nor flags that pretend that the
laser is off help a remote client. -/
theorem remote_clients_cannot_touch_interlocks_by_pretending :
    List.Forall₂ Entry.Alike (plain.filter Entry.allowed) pretending ∧
      (tour ⟨.start 9, .start 9⟩ pretending).map Point.outcome =
        ((tour ⟨.start 9, .start 9⟩ plain).filter fun point => point.entry.allowed).map
          Point.outcome ∧
      (tour ⟨.start 9, .start 9⟩ pretending).flatMap (fun point => point.outcome.published) =
        [⟨.full, .closed, .closed, .on, .none⟩, ⟨.full, .closed, .closed, .on, ⟨true, false⟩⟩,
          ⟨.full, .closed, .closed, .on, .none⟩, .shut] ∧
      (tour ⟨.start 9, .start 9⟩ plain).map Point.entry = plain := by
  rcases remote_clients_cannot_touch_interlocks ⟨.start 9, .start 9⟩ plain_pretending with
    ⟨published, outcomes, -, whole⟩
  refine ⟨plain_pretending, outcomes, ?_, whole ?_⟩
  · rw [published]
    decide +kernel
  · intro entry among
    simp only [plain, opening, touching, shutting, List.cons_append, List.nil_append,
      List.mem_cons, List.not_mem_nil, or_false] at among
    rcases among with rfl | rfl | rfl | rfl | rfl | rfl | rfl
    all_goals exact holds_at (by decide) (by decide) _

end Desk
end Server
end Ventilation
