import Ventilation.Proofs.Controller.Steps
import Ventilation.Proofs.Server.Chamber

namespace Ventilation
namespace Server

/-!
# From events to the serial line

The works are a chamber whose observer is the actuator, at a link that takes
everything that is written.  The actuator comes to a chamber that has been at
work for any time.  From then on every state that is announced becomes a frame,
in order, unless the actuator ends first: nothing is skipped while states wait
for room, lie in the queue or are held.
-/

open Bus (Hub Topic)
open Controller (Actuator ActuatorPhase Deed Link commandFrame writings)

/-- A chamber and the actuator at its link. -/
structure Works where
  now : Instant
  chamber : Chamber
  link : Link
  actuator : Actuator
  /-- The bytes that have been written. -/
  written : List UInt8

namespace Works

def start (target : UInt8) (interval : Span) (now : Instant) (chamber : Chamber) : Works :=
  let (actuator, hub, _) := Actuator.start target interval chamber.hub
  let joined : Chamber := { chamber with
    hub := hub
    observer := actuator.states
    since := chamber.hub.states.nextTicket
    taken := []
    listening := true }
  ⟨now, joined, .idle, actuator, []⟩

def adopt (x : Works) (outcome : Actuator × Hub × Link × List Deed) : Works :=
  let (actuator, hub, link, deeds) := outcome
  { x with
    chamber := { x.chamber with hub := hub }
    link := link
    actuator := actuator
    written := x.written ++ (writings deeds).flatten }

/-- What can happen next.  The link may print, fall silent and fail to be read,
but it goes on taking what is written. -/
inductive Move (x : Works) : Works → Prop
  | passes {later : Instant} (after : x.now ≤ later) : Move x { x with now := later }
  | prints {link : Link} (plugged : link.plugged = x.link.plugged) : Move x { x with link := link }
  | around {chamber : Chamber} (around : x.chamber.Around chamber) :
      Move x { x with chamber := chamber }
  | takes {state : State} {states : Topic State} {outcome : Actuator × Hub × Link × List Deed}
      (waiting : x.actuator.phase = .waiting)
      (received : x.chamber.hub.states.receive? x.actuator.states = some (state, states))
      (turned : x.actuator.turn? x.now x.chamber.hub x.link .state = some outcome) :
      Move x { x.adopt outcome with
        chamber := { x.chamber with
          hub := outcome.2.1
          taken := x.chamber.taken ++ [state] } }
  | goesOn {state : State} {ready : Instant} {outcome : Actuator × Hub × Link × List Deed}
      (holding : x.actuator.phase = .holding state ready)
      (stepped : x.actuator.step? x.now x.chamber.hub x.link = some outcome) :
      Move x (x.adopt outcome)
  | reads {outcome : Actuator × Hub × Link × List Deed} (waiting : x.actuator.phase = .waiting)
      (turned : x.actuator.turn? x.now x.chamber.hub x.link .inbound = some outcome) :
      Move x (x.adopt outcome)
  | leaves {outcome : Actuator × Hub × Link × List Deed} (waiting : x.actuator.phase = .waiting)
      (turned : x.actuator.turn? x.now x.chamber.hub x.link .shutdown = some outcome) :
      Move x { x.adopt outcome with
        chamber := { x.chamber with hub := outcome.2.1, listening := false } }

inductive Reachable (capacity : Nat) (lockTimeout : Span) (target : UInt8) : Works → Prop
  | start {chamber : Chamber} (reached : Chamber.Reachable capacity lockTimeout chamber)
      (interval : Span) (now : Instant) :
      Reachable capacity lockTimeout target (start target interval now chamber)
  | move {x y : Works} (reached : Reachable capacity lockTimeout target x) (move : x.Move y) :
      Reachable capacity lockTimeout target y

variable {capacity : Nat} {lockTimeout : Span} {target : UInt8} {x y : Works}

theorem Reachable.later (reached : Reachable capacity lockTimeout target x)
    (later : Relation.ReflTransGen Move x y) : Reachable capacity lockTimeout target y := by
  induction later with
  | refl => exact reached
  | tail _ move inductionHypothesis => exact inductionHypothesis.move move

/-- A step of the actuator itself is among what can happen. -/
theorem exists_move_of_actuator {outcome : Actuator × Hub × Link × List Deed}
    (stepped : x.actuator.step? x.now x.chamber.hub x.link = some outcome) :
    ∃ taken listening, x.Move { x.adopt outcome with
      chamber := { x.chamber with
        hub := outcome.2.1, taken := taken, listening := listening } } := by
  cases phase : x.actuator.phase with
  | waiting =>
    have turned := stepped
    simp only [Actuator.step?, phase] at turned
    rcases List.exists_of_findSome?_eq_some turned with ⟨branch, -, turned⟩
    cases branch with
    | shutdown => exact ⟨_, _, .leaves phase turned⟩
    | inbound => exact ⟨_, _, .reads phase turned⟩
    | state =>
      have taking := turned
      simp only [Actuator.turn?, Option.bind_eq_bind, Option.bind_eq_some_iff] at taking
      rcases taking with ⟨⟨state, states⟩, received, -⟩
      exact ⟨_, _, .takes phase received turned⟩
  | holding state ready => exact ⟨_, _, .goesOn phase stepped⟩
  | ended | failed | crashed => simp [Actuator.step?, phase] at stepped

/-! ## What is in hand -/

/-- The states that the actuator has taken and not written: the one that it
holds, or the one at which it has crashed, as the clock cannot hold when its
command departs. -/
inductive InHand (actuator : Actuator) : List State → Prop
  | nothing (idle : actuator.phase = .waiting ∨ actuator.phase = .ended) : InHand actuator []
  | held {state : State} {ready : Instant} (holding : actuator.phase = .holding state ready) :
      InHand actuator [state]
  | lost {state : State} {asked : Instant} (crashed : actuator.phase = .crashed)
      (beyond : Instant.limit ≤ actuator.pacing.departure asked state) : InHand actuator [state]

/-- The bytes of the commands for some states. -/
def line (target : UInt8) (states : List State) : List UInt8 :=
  states.flatMap fun state => (commandFrame target state).bytes

/-- What every move keeps: what has been taken has been written, or is in hand. -/
structure Kept (x : Works) (capacity : Nat) (lockTimeout : Span) (target : UInt8)
    (sent hand : List State) : Prop where
  reached : Chamber.Reachable capacity lockTimeout x.chamber
  observer : x.chamber.observer = x.actuator.states
  plugged : x.link.plugged = true
  target_eq : x.actuator.target = target
  inHand : InHand x.actuator hand
  taken : x.chamber.taken = sent ++ hand
  written : x.written = line target sent
  listening : x.actuator.phase ≠ .ended → x.chamber.listening = true

namespace Kept

variable {sent hand : List State}

theorem start {chamber : Chamber} (reached : Chamber.Reachable capacity lockTimeout chamber)
    (target : UInt8) (interval : Span) (now : Instant) :
    (start target interval now chamber).Kept capacity lockTimeout target [] [] := by
  have joined := reached.move .joins
  refine ⟨joined.move (.around (.stirs ?_)), rfl, rfl, rfl, .nothing (.inl rfl), rfl, rfl,
    fun _ => rfl⟩
  rfl

theorem takes (kept : x.Kept capacity lockTimeout target sent hand)
    (waiting : x.actuator.phase = .waiting) {state : State} {states : Topic State}
    (received : x.chamber.hub.states.receive? x.actuator.states = some (state, states))
    {actuator : Actuator} {deeds : List Deed}
    (sends : Actuator.Sends { x.actuator with fresh := false } x.now state actuator
      (writings deeds)) :
    ∃ sent hand, Kept { x.adopt (actuator, { x.chamber.hub with states := states }, x.link, deeds)
        with chamber := { x.chamber with
          hub := { x.chamber.hub with states := states }
          taken := x.chamber.taken ++ [state] } } capacity lockTimeout target sent hand := by
  have nothing : hand = [] := by
    cases kept.inHand with
    | nothing => rfl
    | held holding => cases waiting.symm.trans holding
    | lost crashed => cases waiting.symm.trans crashed
  subst nothing
  have taken : x.chamber.taken = sent := kept.taken.trans (List.append_nil sent)
  have reached := kept.reached.move (.takes (kept.observer ▸ received))
  have listening := kept.listening (by simp [waiting])
  generalize frames : writings deeds = bytes at sends
  cases sends with
  | goes due =>
    refine ⟨sent ++ [state], [], reached, kept.observer, kept.plugged, kept.target_eq,
      .nothing (.inl rfl), ?_, ?_, fun _ => listening⟩
    · rw [taken, List.append_nil]
    · simp only [adopt, frames, line, List.flatMap_append, kept.written, ← kept.target_eq]
      simp
  | holds early =>
    refine ⟨sent, [state], reached, kept.observer, kept.plugged, kept.target_eq, .held rfl, ?_, ?_,
      fun _ => listening⟩
    · rw [taken]
    · simp only [adopt, frames, List.flatten_nil, List.append_nil]
      exact kept.written
  | crashes late =>
    refine ⟨sent, [state], reached, kept.observer, kept.plugged, kept.target_eq, .lost rfl late, ?_,
      ?_, fun _ => listening⟩
    · rw [taken]
    · simp only [adopt, frames, List.flatten_nil, List.append_nil]
      exact kept.written

theorem goesOn (kept : x.Kept capacity lockTimeout target sent hand) {state : State}
    {ready : Instant} (holding : x.actuator.phase = .holding state ready) {deeds : List Deed}
    (frames : writings deeds = [(commandFrame x.actuator.target state).bytes]) :
    ∃ sent hand, Kept (x.adopt ({ x.actuator with
      pacing := x.actuator.pacing.sent state x.now, phase := .waiting }, x.chamber.hub, x.link,
      deeds)) capacity lockTimeout target sent hand := by
  have taken := kept.taken
  have listening := kept.listening (by simp [holding])
  cases kept.inHand with
  | nothing idle =>
    rcases idle with waiting | ended
    · cases waiting.symm.trans holding
    · cases ended.symm.trans holding
  | lost crashed => cases crashed.symm.trans holding
  | held same =>
    cases same.symm.trans holding
    refine ⟨sent ++ [state], [], kept.reached, kept.observer, kept.plugged, kept.target_eq,
      .nothing (.inl rfl), ?_, ?_, fun _ => listening⟩
    · rw [List.append_nil]
      exact taken
    · simp only [adopt, frames, line, List.flatMap_append, kept.written, ← kept.target_eq]
      simp

theorem leaves (kept : x.Kept capacity lockTimeout target sent hand)
    (waiting : x.actuator.phase = .waiting) {hub : Hub} {deeds : List Deed}
    (gone : hub.states = x.chamber.hub.states.unsubscribe x.actuator.states)
    (frames : writings deeds = []) :
    Kept { x.adopt ({ x.actuator with phase := .ended }, hub, x.link, deeds) with
      chamber := { x.chamber with hub := hub, listening := false } }
      capacity lockTimeout target sent hand := by
  have nothing : hand = [] := by
    cases kept.inHand with
    | nothing => rfl
    | held holding => cases waiting.symm.trans holding
    | lost crashed => cases waiting.symm.trans crashed
  subst nothing
  have quits := kept.reached.move .quits
  have same : hub.states = x.chamber.hub.states.unsubscribe x.chamber.observer := by
    rw [gone, kept.observer]
  refine ⟨quits.move (.around (.stirs same)), kept.observer, kept.plugged, kept.target_eq,
    .nothing (.inr rfl), kept.taken, ?_, fun running => absurd rfl running⟩
  simp only [adopt, frames, List.flatten_nil, List.append_nil]
  exact kept.written

theorem move (kept : x.Kept capacity lockTimeout target sent hand) (move : x.Move y) :
    ∃ sent hand, y.Kept capacity lockTimeout target sent hand := by
  have plugged := kept.plugged
  cases move with
  | passes after => exact ⟨sent, hand, { kept with }⟩
  | prints same => exact ⟨sent, hand, { kept with plugged := same.trans plugged }⟩
  | around around =>
    rcases around.observer_eq with ⟨observer, -, taken, listening⟩
    exact ⟨sent, hand, { kept with
      reached := kept.reached.move (.around around)
      observer := observer.trans kept.observer
      taken := taken.trans kept.taken
      listening := fun running => listening.trans (kept.listening running) }⟩
  | @takes state states outcome waiting received turned =>
    rcases outcome with ⟨actuator, hub, link, deeds⟩
    rcases Actuator.sends_of_turn plugged turned with ⟨taken, rest, same, rfl, rfl, sends⟩
    cases received.symm.trans same
    exact kept.takes waiting received sends
  | @goesOn state ready outcome holding stepped =>
    rcases outcome with ⟨actuator, hub, link, deeds⟩
    rcases Actuator.goes_of_step plugged holding stepped with ⟨due, rfl, rfl, rfl, frames⟩
    exact kept.goesOn holding frames
  | @reads outcome waiting turned =>
    rcases outcome with ⟨actuator, hub, link, deeds⟩
    rcases Actuator.still_of_turn turned with ⟨⟨reading, begun, fresh, rfl⟩, rfl, same, frames⟩
    refine ⟨sent, hand, { kept with
      plugged := same.trans plugged
      inHand := ?_
      written := ?_ }⟩
    · cases kept.inHand with
      | nothing idle => exact .nothing idle
      | held holding => exact .held holding
      | lost crashed beyond => exact .lost crashed beyond
    · simp only [adopt, frames, List.flatten_nil, List.append_nil]
      exact kept.written
  | @leaves outcome waiting turned =>
    rcases outcome with ⟨actuator, hub, link, deeds⟩
    rcases Actuator.leaves_of_turn turned with ⟨rfl, gone, rfl, frames⟩
    exact ⟨sent, hand, kept.leaves waiting gone frames⟩

end Kept

theorem Reachable.kept (reached : Reachable capacity lockTimeout target x) :
    ∃ sent hand, x.Kept capacity lockTimeout target sent hand := by
  induction reached with
  | start reached interval now => exact ⟨[], [], .start reached target interval now⟩
  | move _ move inductionHypothesis =>
    rcases inductionHypothesis with ⟨sent, hand, kept⟩
    exact kept.move move

/-! ## What the controller gets -/

/-- A command for the controller: where it goes, how long it is, and what the
dampers and the fan are to do. -/
theorem commandFrame_bytes (target : UInt8) (state : State) :
    (commandFrame target state).bytes =
      [Controller.startByte, target, 6, Controller.MessageType.damperCommand.code,
        Controller.reachLocal, Controller.damperCode state.damper1,
        Controller.damperCode state.damper2, Controller.damperCode state.damper3,
        Controller.fanCode state.fan] := rfl

/-- The controller is never told to run the fan against closed dampers. -/
theorem drop_ne_of_safe {state : State} (safe : state.allClosed = true → state.fan = .off) :
    (commandFrame target state).bytes.drop 5 ≠ [0, 0, 0, 1] := by
  rw [commandFrame_bytes]
  rcases state with ⟨first, second, third, fan, locks⟩
  intro same
  simp only [List.drop_succ_cons, List.drop_zero, List.cons.injEq, and_true] at same
  rcases same with ⟨one, two, three, runs⟩
  have closed : ∀ damper, Controller.damperCode damper = 0 → damper = .closed := by
    intro damper code
    cases damper with
    | closed => rfl
    | half | full => exact absurd code (by decide)
  rw [closed first one, closed second two, closed third three] at safe
  have still : fan = .off := safe rfl
  rw [still] at runs
  exact absurd runs (by decide)

/-- What has been written comes from what has been announced. -/
structure Carried (x : Works) (lockTimeout : Span) (target : UInt8) (sent hand : List State) :
    Prop where
  /-- The bytes are those of the commands for some states, one after another, -/
  written : x.written = line target sent
  /-- each of which has nine bytes. -/
  nine : ∀ state ∈ sent, (commandFrame target state).bytes.length = 9
  /-- These states and the one in hand are the first of those announced since the
  actuator has come, -/
  in_order : sent ++ hand <+: (x.chamber.announcements lockTimeout).drop x.chamber.since
  inHand : InHand x.actuator hand
  /-- and as long as it has not ended, all others are still to come to it. -/
  whole : x.actuator.phase ≠ .ended →
    sent ++ hand ++ x.chamber.hub.states.coming x.actuator.states =
      (x.chamber.announcements lockTimeout).drop x.chamber.since
  /-- A request that is accepted has its own dampers announced, and its own fan
  unless all dampers are closed. -/
  requested : ∀ case ∈ x.chamber.cases lockTimeout, ∀ r, case.event = .request r →
    (case.before.request r.state r.origin).isOk = true →
      ∃ state, case.verdict.announced = some state ∧
        (commandFrame target state).bytes.drop 5 =
          [Controller.damperCode r.state.damper1, Controller.damperCode r.state.damper2,
            Controller.damperCode r.state.damper3,
            if r.state.allClosed then 0 else Controller.fanCode r.state.fan]
  /-- No command runs the fan against closed dampers. -/
  safe : ∀ state ∈ sent, (commandFrame target state).bytes.drop 5 ≠ [0, 0, 0, 1]
  /-- When nothing is underway any more, the last command is the current state. -/
  drained : x.actuator.phase = .waiting → x.chamber.hub.states.coming x.actuator.states = [] →
    x.chamber.since = 0 ∨ x.chamber.since < (x.chamber.announcements lockTimeout).length →
      sent.getLast? = x.chamber.arbiter.arb.state

/-- What has been written are the commands for the states that have been announced
since the actuator began to listen, each once and in order, as far as they are
not still to come to it or in its hand.  So an accepted request reaches the
controller as it is, except that the fan is off when all dampers are closed, and
the last command is the current state when nothing is underway. -/
theorem commands_follow_announcements (reached : Reachable capacity lockTimeout target x) :
    ∃ sent hand, x.Carried lockTimeout target sent hand := by
  rcases reached.kept with ⟨sent, hand, kept⟩
  have observed := kept.reached.kept
  have first : sent ++ hand <+: (x.chamber.announcements lockTimeout).drop x.chamber.since := by
    rcases observed.heard with ⟨rest, whole, -⟩
    exact ⟨rest, kept.taken ▸ whole⟩
  have whole : x.actuator.phase ≠ .ended →
      sent ++ hand ++ x.chamber.hub.states.coming x.actuator.states =
        (x.chamber.announcements lockTimeout).drop x.chamber.since := by
    intro running
    rw [← kept.observer, ← kept.taken]
    exact observed.taken_append_coming (kept.listening running)
  refine ⟨sent, hand, kept.written, fun _ _ => rfl, first, kept.inHand, whole, ?_, ?_, ?_⟩
  · intro case member r asked accepted
    have judged := case.judged
    rw [asked] at judged
    rcases Arbitration.judge_announces judged with ⟨-, state, announced, -⟩ | ⟨uncalled, -⟩
    · refine ⟨state, announced, ?_⟩
      rw [Arbitration.announced_of_request judged announced, commandFrame_bytes]
      simp only [Arbitration.settle, List.drop_succ_cons, List.drop_zero]
      split
      · rfl
      · rfl
    · exact absurd accepted uncalled
  · intro state member
    have announced : state ∈ x.chamber.announcements lockTimeout :=
      List.mem_of_mem_drop (first.subset (List.mem_append_left hand member))
    have unknown : (Arbitration.start lockTimeout).Safe := fun _ known => nomatch known
    exact drop_ne_of_safe
      (Arbitration.announcements_docket_safe x.chamber.dealt unknown state announced)
  · intro waiting nothing some_since
    have empty : hand = [] := by
      cases kept.inHand with
      | nothing => rfl
      | held holding => cases waiting.symm.trans holding
      | lost crashed => cases waiting.symm.trans crashed
    have all := whole (by simp [waiting])
    rw [nothing, empty, List.append_nil, List.append_nil] at all
    rw [all, observed.current_since some_since]

/-! ## Scripts -/

inductive Turn
  | passes (span : Span)
  | chamber (turn : Chamber.Turn)
  | takes
  | goesOn

def act (x : Works) : Turn → Option Works
  | .passes span => some { x with now := x.now + span }
  | .chamber .takes | .chamber .quits => none
  | .chamber turn => (x.chamber.act turn).map fun chamber => { x with chamber := chamber }
  | .takes =>
    if x.actuator.phase = .waiting then do
      let (state, _) ← x.chamber.hub.states.receive? x.actuator.states
      let outcome ← x.actuator.turn? x.now x.chamber.hub x.link .state
      return { x.adopt outcome with
        chamber := { x.chamber with
          hub := outcome.2.1
          taken := x.chamber.taken ++ [state] } }
    else none
  | .goesOn =>
    match x.actuator.phase with
    | .holding _ _ => (x.actuator.step? x.now x.chamber.hub x.link).map x.adopt
    | _ => none

theorem move_of_act {turn : Turn} (acted : x.act turn = some y) : x.Move y := by
  cases turn with
  | passes span =>
    rcases Option.some.inj acted with rfl
    exact .passes (Nat.le_add_right _ _)
  | chamber turn =>
    have steps : turn ≠ .takes → turn ≠ .quits →
        (x.chamber.act turn).map (fun chamber => { x with chamber := chamber }) = some y →
          x.Move y := by
      intro untaken stays played
      rcases Option.map_eq_some_iff.mp played with ⟨chamber, moved, rfl⟩
      rcases Chamber.around_of_act moved with around | taken | gone
      · exact .around around
      · exact absurd taken untaken
      · exact absurd gone stays
    cases turn with
    | takes | quits => cases acted
    | deals | goesOn => exact steps nofun nofun acted
  | takes =>
    simp only [act, Option.ite_none_right_eq_some, Option.bind_eq_bind, Option.bind_eq_some_iff,
      Option.pure_def, Option.some.injEq] at acted
    rcases acted with ⟨waiting, ⟨state, states⟩, received, outcome, turned, rfl⟩
    exact .takes waiting received turned
  | goesOn =>
    cases phase : x.actuator.phase with
    | holding state ready =>
      simp only [act, phase, Option.map_eq_some_iff] at acted
      rcases acted with ⟨outcome, stepped, rfl⟩
      exact .goesOn phase stepped
    | waiting | ended | failed | crashed => simp [act, phase] at acted

def asks (now : Instant) (state : State) : Turn :=
  .chamber (.deals now (.request ⟨state, .local, none⟩))

/-- A command goes out, and the next is held.  Then everything is to be shut with
the fan on, and the laser is announced while that still lies in the queue. -/
def busy : List Turn :=
  [asks 0 ⟨.half, .closed, .closed, .off, .none⟩, .takes,
    .passes (Span.ofSeconds 1), asks (Span.ofSeconds 1) ⟨.half, .half, .closed, .on, .none⟩, .takes,
    asks (Span.ofSeconds 1) ⟨.closed, .closed, .closed, .on, .none⟩,
    .chamber (.deals (Span.ofSeconds 1) (.lock ⟨.laser, true, .local, none⟩))]

/-- One state has been sent, one is held, one lies in the queue and one waits for
room. -/
theorem commands_follow_announcements_when_busy :
    ∃ x sent hand, Reachable 1 (Span.ofSeconds 1800) 7 x ∧
      x.Carried (Span.ofSeconds 1800) 7 sent hand ∧
      x.written = [62, 7, 6, 0, 0, 2, 0, 0, 0] ∧
      x.actuator.phase = .holding ⟨.half, .half, .closed, .on, .none⟩ (Span.ofMillis 1500) ∧
      sent ++ hand ++ x.chamber.hub.states.coming x.actuator.states =
        [⟨.half, .closed, .closed, .off, .none⟩, ⟨.half, .half, .closed, .on, .none⟩, .shut,
          State.shut.withLocks ⟨true, false⟩] := by
  let first := Chamber.start 1 (Span.ofSeconds 1800)
  let left : Chamber := { first with
    hub := { first.hub with states := first.hub.states.unsubscribe first.observer }
    listening := false }
  have reached : Chamber.Reachable 1 (Span.ofSeconds 1800) left :=
    Chamber.Reachable.start.move .quits
  have told : (busy.foldlM act (start 7 (Span.ofMillis 1500) 0 left)).map
      (fun x => (x.written, x.actuator.phase,
        (x.chamber.announcements (Span.ofSeconds 1800)).drop x.chamber.since)) =
      some ([62, 7, 6, 0, 0, 2, 0, 0, 0],
        .holding ⟨.half, .half, .closed, .on, .none⟩ (Span.ofMillis 1500),
        [⟨.half, .closed, .closed, .off, .none⟩, ⟨.half, .half, .closed, .on, .none⟩, .shut,
          State.shut.withLocks ⟨true, false⟩]) := by
    decide +kernel
  rcases Option.map_eq_some_iff.mp told with ⟨x, played, looks⟩
  simp only [Prod.mk.injEq] at looks
  rcases looks with ⟨written, holding, announced⟩
  have begun : Reachable 1 (Span.ofSeconds 1800) 7 (start 7 (Span.ofMillis 1500) 0 left) :=
    .start reached _ 0
  have later := begun.later (Script.reflTransGen move_of_act played)
  rcases commands_follow_announcements later with ⟨sent, hand, carried⟩
  refine ⟨x, sent, hand, later, carried, written, holding, ?_⟩
  rw [carried.whole (by simp [holding]), announced]

end Works
end Server
end Ventilation
