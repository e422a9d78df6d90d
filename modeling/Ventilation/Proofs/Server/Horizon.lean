import Ventilation.Config
import Ventilation.Proofs.Controller.Steps
import Ventilation.Proofs.Server.Posting
import Ventilation.Proofs.Server.Standstill
import Ventilation.Proofs.Settings.Checking

namespace Ventilation

/-!
# The range of the clock

The arbiter, the bridge and the actuator add spans of the settings to instants of
the clock, and a part that comes to an instant which the clock cannot hold is lost.
So each of them lasts exactly as long as the clock can hold its span beyond any
instant that the clock shows.

Settings are checked before anybody works with them, but only for spans that are
zero.  A configuration gives the least span between two commands in milliseconds,
and the other spans in seconds.  So the actuator lasts, and the arbiter and the
bridge can be lost at once.
-/

open Broker (Bridge shortPause)
open Bus (Hub Topic)

namespace Instant

theorem after?_eq_none_iff {now : Instant} {span : Span} :
    now.after? span = none ↔ limit ≤ now + span := by
  unfold after?
  split
  · next held => exact iff_of_false nofun (Nat.not_le.mpr held)
  · next late => exact iff_of_true rfl (Nat.le_of_not_lt late)

end Instant

/-! ## The arbiter -/

namespace Arbiter

variable {arbiter after : Arbiter} {now : Instant} {hub next : Hub} {log : List LogLine}

/-- The arbiter is lost when the clock cannot hold the deadline of an interlock. -/
theorem deal_range (arbiter : Arbiter) (now : Instant) (hub : Hub) (event : ArbiterEvent) :
    (arbiter.deal now hub event).1.arb.lockTimeout = arbiter.arb.lockTimeout ∧
      ((arbiter.deal now hub event).1.phase = .crashed →
        arbiter.phase = .crashed ∨ Instant.limit ≤ now + arbiter.arb.lockTimeout) := by
  unfold deal
  split
  · next unjudged =>
    rcases Arbitration.judge_eq_none_iff.mp unjudged with ⟨-, -, -, -, late⟩
    exact ⟨rfl, fun _ => .inr late⟩
  · next verdict judged =>
    rcases Arbitration.performs_of_judge judged with ⟨answer, performs, -⟩
    simp only
    split
    · exact ⟨performs.lockTimeout_eq, .inl⟩
    · split
      · exact ⟨performs.lockTimeout_eq, .inl⟩
      · exact ⟨performs.lockTimeout_eq, nofun⟩

theorem turn_range {branch : Branch}
    (turned : arbiter.turn? now hub branch = some (after, next, log)) :
    after.arb.lockTimeout = arbiter.arb.lockTimeout ∧
      (after.phase = .crashed →
        arbiter.phase = .crashed ∨ Instant.limit ≤ now + arbiter.arb.lockTimeout) := by
  cases branch with
  | shutdown =>
    simp only [turn?, Option.bind_eq_bind, Option.bind_eq_some_iff, Option.pure_def,
      Option.some.injEq, Prod.mk.injEq] at turned
    rcases turned with ⟨-, -, rfl, -⟩
    exact ⟨rfl, by simp⟩
  | request =>
    simp only [turn?, Option.bind_eq_bind, Option.bind_eq_some_iff] at turned
    rcases turned with ⟨⟨request, topic⟩, -, dealt⟩
    have range := arbiter.deal_range now { hub with requests := topic } (.request request)
    rwa [Option.some.inj dealt] at range
  | lock =>
    simp only [turn?, Option.bind_eq_bind, Option.bind_eq_some_iff] at turned
    rcases turned with ⟨⟨request, topic⟩, -, dealt⟩
    have range := arbiter.deal_range now { hub with lockRequests := topic } (.lock request)
    rwa [Option.some.inj dealt] at range
  | deadline =>
    simp only [turn?, Option.ite_none_right_eq_some] at turned
    have range := arbiter.deal_range now hub .deadline
    rwa [Option.some.inj turned.2] at range

/-- Nothing is added to the clock for an announcement that waits for room. -/
theorem step_range {wait : Hub.Wait} {client : Option Nat}
    (announcing : arbiter.phase = .announcing wait client)
    (stepped : arbiter.step? now hub = some (after, next, log)) :
    after.arb = arbiter.arb ∧ after.phase ≠ .crashed := by
  simp only [step?, announcing, Option.ite_none_right_eq_some] at stepped
  rcases stepped with ⟨-, stepped⟩
  split at stepped
  · cases stepped
    exact ⟨rfl, by simp⟩
  · cases stepped
    exact ⟨rfl, by simp [announcing]⟩

end Arbiter

/-! ## Reports -/

namespace Feed

variable {now : Instant}

/-- No report changes how long the space has to be empty. -/
theorem autoOff_of_handle? {tracker next : Presence} {event : Event}
    {demanded : Option Demand} (handled : handle? tracker event now = some (demanded, next)) :
    next.autoOff = tracker.autoOff := by
  cases event with
  | laser inUse =>
    cases handled
    rfl
  | presence present =>
    rcases Option.map_eq_some_iff.mp handled with ⟨reported, found, same⟩
    cases same
    unfold Presence.report? at found
    split at found
    · cases found
      rfl
    · split at found
      · cases found
        rfl
      · rcases Option.map_eq_some_iff.mp found with ⟨deadline, -, rfl⟩
        rfl

/-- A report is lost when the clock cannot hold the deadline of an absence. -/
theorem late_of_handle? {tracker : Presence} {event : Event}
    (lost : handle? tracker event now = none) :
    event = .presence false ∧ Instant.limit ≤ now + tracker.autoOff := by
  cases event with
  | laser inUse => cases lost
  | presence present =>
    have lost := Option.map_eq_none_iff.mp lost
    unfold Presence.report? at lost
    split at lost
    · cases lost
    · next absent =>
      split at lost
      · cases lost
      · rw [Option.map_eq_none_iff, Instant.after?_eq_none_iff] at lost
        exact ⟨by simpa using absent, lost⟩

/-- Reports on presence come on a topic of their own. -/
theorem topics_of_read {topics : Topics} {topic : String} {payload : List UInt8}
    {present : Bool} (read : Event.read topics topic payload = .ok (some (.presence present))) :
    topics.presence ≠ topics.laser := by
  unfold Event.read at read
  split at read
  · cases flagged : Feed.Event.flagOf topic "IsHot" payload with
    | error fault => simp [flagged, Except.map] at read
    | ok flag => simp [flagged, Except.map] at read
  · next other =>
    split at read
    · next here => exact fun same => other (here.trans same)
    · cases read

end Feed

/-! ## The bridge -/

namespace Broker.Bridge

open Feed (Demand)

variable {bridge after : Bridge} {now : Instant} {hub next : Hub} {line further : Line}
  {deeds : List Deed}

/-- The clock cannot hold an instant that the bridge counts on: the end of a pause, or
the deadline of an absence.  Reports on presence come only if their topic is not that
of the laser cutter. -/
def Overruns (backoff autoOff : Span) (topics : Feed.Topics) (now : Instant) : Prop :=
  Instant.limit ≤ now + backoff ∨ Instant.limit ≤ now + shortPause ∨
    (topics.presence ≠ topics.laser ∧ Instant.limit ≤ now + autoOff)

theorem Overruns.mono {backoff autoOff : Span} {topics : Feed.Topics} {later : Instant}
    (overruns : Overruns backoff autoOff topics now) (after : now ≤ later) :
    Overruns backoff autoOff topics later := by
  rcases overruns with late | late | ⟨heard, late⟩
  · exact .inl (late.trans (Nat.add_le_add_right after _))
  · exact .inr (.inl (late.trans (Nat.add_le_add_right after _)))
  · exact .inr (.inr ⟨heard, late.trans (Nat.add_le_add_right after _)⟩)

/-- What the bridge was told when it started. -/
structure Same (before after : Bridge) : Prop where
  topics_eq : after.topics = before.topics
  autoOff_eq : after.tracker.autoOff = before.tracker.autoOff
  backoff_eq : after.link.backoff = before.link.backoff

theorem demand_range (bridge : Bridge) (hub : Hub) (demanded : Option Demand) :
    Same bridge (bridge.demand hub demanded).1 ∧
      ((bridge.demand hub demanded).1.phase = .crashed → bridge.phase = .crashed) := by
  unfold demand
  split
  · exact ⟨⟨rfl, rfl, rfl⟩, id⟩
  · exact ⟨⟨rfl, rfl, rfl⟩, nofun⟩

theorem receive_range (bridge : Bridge) (now : Instant) (hub : Hub) (topic : String)
    (payload : List UInt8) :
    Same bridge (bridge.receive now hub topic payload).1 ∧
      ((bridge.receive now hub topic payload).1.phase = .crashed → bridge.phase = .crashed ∨
        (bridge.topics.presence ≠ bridge.topics.laser ∧
          Instant.limit ≤ now + bridge.tracker.autoOff)) := by
  unfold receive
  split
  · next event read =>
    split
    · next demanded tracker handled =>
      obtain ⟨⟨topics, autoOff, backoff⟩, lost⟩ :=
        demand_range { bridge with tracker := tracker } hub demanded
      exact ⟨⟨topics, autoOff.trans (Feed.autoOff_of_handle? handled), backoff⟩, fun crashed =>
        .inl (lost crashed)⟩
    · next unhandled =>
      rcases Feed.late_of_handle? unhandled with ⟨rfl, late⟩
      exact ⟨⟨rfl, rfl, rfl⟩, fun _ => .inr ⟨Feed.topics_of_read read, late⟩⟩
  · exact ⟨⟨rfl, rfl, rfl⟩, .inl⟩

/-- The bridge is lost when the clock cannot hold the end of a pause or the deadline of
an absence. -/
theorem take_range (bridge : Bridge) (now : Instant) (hub : Hub) (outcome : Outcome) :
    Same bridge (bridge.take now hub outcome).1 ∧
      ((bridge.take now hub outcome).1.phase = .crashed → bridge.phase = .crashed ∨
        Overruns bridge.link.backoff bridge.tracker.autoOff bridge.topics now) := by
  cases outcome with
  | accepted => exact ⟨⟨rfl, rfl, rfl⟩, .inl⟩
  | other => exact ⟨⟨rfl, rfl, rfl⟩, .inl⟩
  | message topic payload =>
    rcases bridge.receive_range now hub topic payload with ⟨same, lost⟩
    exact ⟨same, fun crashed => (lost crashed).imp id fun late => .inr (.inr late)⟩
  | failed =>
    simp only [take]
    split
    · exact ⟨⟨rfl, rfl, rfl⟩, .inl⟩
    · next late =>
      refine ⟨⟨rfl, rfl, rfl⟩, fun _ => .inr ?_⟩
      rw [Instant.after?_eq_none_iff, Link.pause] at late
      split at late
      · exact .inr (.inl late)
      · exact .inl late

theorem turn_range {branch : Branch}
    (turned : bridge.turn? now hub line branch = some (after, next, further, deeds)) :
    Same bridge after ∧ (after.phase = .crashed → bridge.phase = .crashed ∨
      Overruns bridge.link.backoff bridge.tracker.autoOff bridge.topics now) := by
  cases branch with
  | shutdown =>
    simp only [turn?, Option.bind_eq_bind, Option.bind_eq_some_iff, Option.pure_def,
      Option.some.injEq, Prod.mk.injEq] at turned
    rcases turned with ⟨-, -, rfl, -⟩
    exact ⟨⟨rfl, rfl, rfl⟩, by simp⟩
  | state =>
    simp only [turn?, Option.bind_eq_bind, Option.bind_eq_some_iff, Option.pure_def,
      Option.some.injEq, Prod.mk.injEq] at turned
    rcases turned with ⟨-, -, rfl, -⟩
    exact ⟨⟨rfl, rfl, rfl⟩, .inl⟩
  | outcome =>
    simp only [turn?, Option.ite_none_left_eq_some, Option.bind_eq_bind,
      Option.bind_eq_some_iff, Option.pure_def, Option.some.injEq, Prod.mk.injEq] at turned
    rcases turned with ⟨-, ⟨outcome, later⟩, -, rfl, -⟩
    exact bridge.take_range now hub outcome
  | retry =>
    simp only [turn?, Option.ite_none_right_eq_some, Option.some.injEq, Prod.mk.injEq] at turned
    rcases turned with ⟨-, rfl, -⟩
    exact ⟨⟨rfl, rfl, rfl⟩, .inl⟩
  | deadline =>
    simp only [turn?, Option.ite_none_right_eq_some, Option.some.injEq, Prod.mk.injEq] at turned
    rcases turned with ⟨-, rfl, -⟩
    obtain ⟨⟨topics, autoOff, backoff⟩, lost⟩ := demand_range
      { bridge with tracker := (Feed.atDeadline bridge.tracker now).2 } hub
      (Feed.atDeadline bridge.tracker now).1
    exact ⟨⟨topics, autoOff.trans (Feed.atDeadline_autoOff bridge.tracker now), backoff⟩,
      fun crashed => .inl (lost crashed)⟩

/-- Nothing is added to the clock for a demand that waits for room. -/
theorem step_range {wait : Hub.Wait} (relaying : bridge.phase = .relaying wait)
    (stepped : bridge.step? now hub line = some (after, next, further, deeds)) :
    Same bridge after ∧ after.phase ≠ .crashed := by
  simp only [step?, relaying, Option.ite_none_right_eq_some] at stepped
  rcases stepped with ⟨-, stepped⟩
  split at stepped
  · cases stepped
    exact ⟨⟨rfl, rfl, rfl⟩, by simp⟩
  · cases stepped
    exact ⟨⟨rfl, rfl, rfl⟩, by simp [relaying]⟩

end Broker.Bridge

/-! ## The actuator -/

namespace Controller

namespace Pacing

/-- A state is not ready at any instant that the clock can hold. -/
theorem late_of_readyAt? {pacing : Pacing} {state : State} {now : Instant}
    (lost : pacing.readyAt? state now = none) :
    ∃ previous sent, pacing.last = some (previous, sent) ∧
      Instant.limit ≤ sent + pacing.interval := by
  unfold readyAt? at lost
  split at lost
  · cases lost
  · next previous sent last =>
    split at lost
    · cases lost
    · rw [Option.map_eq_none_iff, Instant.after?_eq_none_iff] at lost
      exact ⟨previous, sent, last, lost⟩

end Pacing

namespace Actuator

variable {actuator after : Actuator} {now : Instant} {hub next : Hub} {link further : Link}
  {state : State} {deeds : List Deed}

/-- What the actuator counts on: its interval, and the instant of its last command.  It
is lost when the clock cannot hold the interval after that. -/
structure Ranges (before after : Actuator) (now : Instant) : Prop where
  interval_eq : after.pacing.interval = before.pacing.interval
  last : ∀ previous sent, after.pacing.last = some (previous, sent) →
    sent = now ∨ before.pacing.last = some (previous, sent)
  lost : after.phase = .crashed → before.phase = .crashed ∨
    ∃ previous sent, before.pacing.last = some (previous, sent) ∧
      Instant.limit ≤ sent + before.pacing.interval

theorem write_ranges (actuator : Actuator) (now : Instant) (hub : Hub) (link : Link)
    (state : State) : Ranges actuator (actuator.write now hub link state).1 now := by
  unfold write
  split
  · refine ⟨rfl, ?_, nofun⟩
    intro previous sent same
    cases same
    exact .inl rfl
  · exact ⟨rfl, fun _ _ => .inr, nofun⟩

theorem send_ranges (actuator : Actuator) (now : Instant) (hub : Hub) (link : Link)
    (state : State) : Ranges actuator (actuator.send now hub link state).1 now := by
  unfold send
  split
  · next late => exact ⟨rfl, fun _ _ => .inr, fun _ => .inr (Pacing.late_of_readyAt? late)⟩
  · split
    · exact ⟨rfl, fun _ _ => .inr, nofun⟩
    · exact write_ranges actuator now hub link state

theorem turn_ranges {branch : Branch}
    (turned : actuator.turn? now hub link branch = some (after, next, further, deeds)) :
    Ranges actuator after now := by
  cases branch with
  | shutdown =>
    rcases leaves_of_turn turned with ⟨rfl, -⟩
    exact ⟨rfl, fun _ _ => .inr, nofun⟩
  | state =>
    simp only [turn?, Option.bind_eq_bind, Option.bind_eq_some_iff, Option.pure_def,
      Option.some.injEq, Prod.mk.injEq] at turned
    rcases turned with ⟨⟨state, states⟩, -, rfl, -⟩
    obtain ⟨same, last, lost⟩ := send_ranges { actuator with fresh := false } now
      { hub with states := states } link state
    exact ⟨same, last, lost⟩
  | inbound =>
    rcases still_of_turn turned with ⟨⟨reading, begun, fresh, rfl⟩, -⟩
    exact ⟨rfl, fun _ _ => .inr, .inl⟩

theorem step_ranges {ready : Instant} (holding : actuator.phase = .holding state ready)
    (stepped : actuator.step? now hub link = some (after, next, further, deeds)) :
    Ranges actuator after now := by
  simp only [step?, holding, Option.ite_none_right_eq_some, Option.some.injEq,
    Prod.mk.injEq] at stepped
  rcases stepped with ⟨-, rfl, -⟩
  exact write_ranges actuator now hub link state

end Actuator

/-- The actuator with its clock, the hub and its link. -/
structure Bench where
  now : Instant
  hub : Hub
  link : Link
  actuator : Actuator

namespace Bench

def start (capacity : Nat) (target : UInt8) (interval : Span) : Bench :=
  let (actuator, hub, _) := Actuator.start target interval (Hub.empty capacity)
  ⟨0, hub, .idle, actuator⟩

/-- What can happen next: time passes, however late the actuator is, others do
something with the hub or at the link, or the actuator goes on. -/
inductive Move (x : Bench) : Bench → Prop
  | passes {later : Instant} (after : x.now ≤ later) : Move x { x with now := later }
  | stirs (hub : Hub) (link : Link) : Move x { x with hub := hub, link := link }
  | turns {branch : Actuator.Branch} {actuator : Actuator} {hub : Hub} {link : Link}
      {deeds : List Deed} (waiting : x.actuator.phase = .waiting)
      (turned : x.actuator.turn? x.now x.hub x.link branch = some (actuator, hub, link, deeds)) :
      Move x { x with actuator := actuator, hub := hub, link := link }
  | goesOn {state : State} {ready : Instant} {actuator : Actuator} {hub : Hub} {link : Link}
      {deeds : List Deed} (holding : x.actuator.phase = .holding state ready)
      (stepped : x.actuator.step? x.now x.hub x.link = some (actuator, hub, link, deeds)) :
      Move x { x with actuator := actuator, hub := hub, link := link }

/-- What can come of a bench while the clock shows at most the horizon. -/
def Upto (horizon : Instant) : Bench → Bench → Prop :=
  Relation.ReflTransGen fun x y => x.Move y ∧ y.now ≤ horizon

/-- What every move up to the horizon keeps. -/
structure InRange (interval : Span) (horizon : Instant) (x : Bench) : Prop where
  now_le : x.now ≤ horizon
  interval_eq : x.actuator.pacing.interval = interval
  last_le : ∀ previous sent, x.actuator.pacing.last = some (previous, sent) → sent ≤ x.now
  lost : x.actuator.phase = .crashed → Instant.limit ≤ horizon + interval

namespace InRange

variable {interval : Span} {horizon : Instant} {x y : Bench}

theorem of_actuator (range : InRange interval horizon x) {actuator : Actuator} {hub : Hub}
    {link : Link} (ranges : x.actuator.Ranges actuator x.now) :
    InRange interval horizon { x with actuator := actuator, hub := hub, link := link } where
  now_le := range.now_le
  interval_eq := ranges.interval_eq.trans range.interval_eq
  last_le previous sent last := by
    rcases ranges.last previous sent last with rfl | before
    · exact Nat.le_refl x.now
    · exact range.last_le previous sent before
  lost crashed := by
    rcases ranges.lost crashed with before | ⟨previous, sent, last, late⟩
    · exact range.lost before
    · -- The command before went out when the clock showed no more than it does now.
      rw [range.interval_eq] at late
      have early := (range.last_le previous sent last).trans range.now_le
      exact late.trans (Nat.add_le_add_right early _)

theorem move (range : InRange interval horizon x) (move : x.Move y) (early : y.now ≤ horizon) :
    InRange interval horizon y := by
  cases move with
  | passes after =>
    exact { range with
      now_le := early
      last_le := fun previous sent last => (range.last_le previous sent last).trans after }
  | stirs hub link => exact { range with }
  | turns waiting turned => exact range.of_actuator (Actuator.turn_ranges turned)
  | goesOn holding stepped => exact range.of_actuator (Actuator.step_ranges holding stepped)

theorem of_upto {capacity : Nat} {target : UInt8}
    (came : Upto horizon (start capacity target interval) x) : InRange interval horizon x := by
  induction came with
  | refl => exact ⟨Nat.zero_le _, rfl, nofun, nofun⟩
  | tail _ step inductionHypothesis => exact inductionHypothesis.move step.1 step.2

end InRange

/-- A state is announced and taken. -/
theorem Upto.taking {horizon : Instant} {first x : Bench} {capacity published : Nat}
    (came : Upto horizon first x) (early : x.now ≤ horizon) (waiting : x.actuator.phase = .waiting)
    (listens : x.actuator.states = 1) (idle : x.hub.states = .sole capacity published [])
    (state : State) :
    Upto horizon first
      { x with
        actuator := ({ x.actuator with fresh := false }.send x.now
          { x.hub with states := .sole capacity (published + 1) [] } x.link state).1
        hub := ({ x.actuator with fresh := false }.send x.now
          { x.hub with states := .sole capacity (published + 1) [] } x.link state).2.1 } := by
  have announced := came.tail ⟨.stirs (x.hub.publishState state).2 x.link, early⟩
  simp only [Hub.publishState, idle, Topic.sole_publish_empty] at announced
  refine announced.tail ⟨@Move.turns _ .state _ _ _ ({ x.actuator with fresh := false }.send x.now
    { x.hub with states := .sole capacity (published + 1) [] } x.link state).2.2 waiting ?_, early⟩
  simp only [Actuator.turn?, listens, Topic.sole_receive, Option.bind_eq_bind, Option.bind_some,
    Option.pure_def]

/-- A command may have gone out when the clock shows the horizon. -/
theorem exists_sent (interval : Span) (horizon : Instant) (capacity : Nat) (target : UInt8) :
    ∃ x, Upto horizon (start capacity target interval) x ∧ x.now = horizon ∧
      x.actuator.phase = .waiting ∧ x.actuator.states = 1 ∧
      x.hub.states = .sole capacity 1 [] ∧
      x.actuator.pacing = ⟨interval, some (State.shut, horizon)⟩ := by
  have waits : Upto horizon (start capacity target interval)
      { start capacity target interval with now := horizon } :=
    .single ⟨.passes (Nat.zero_le horizon), Nat.le_refl horizon⟩
  refine ⟨_, waits.taking (Nat.le_refl horizon) rfl rfl rfl State.shut, rfl, ?_⟩
  simp [Actuator.send, start, Actuator.start, Pacing.start, Pacing.readyAt?, Actuator.write,
    Link.idle, Pacing.sent, Topic.subscribe, Hub.empty, Topic.empty]

/-- After that command another state is announced that moves a damper. -/
theorem exists_lost {interval : Span} {horizon : Instant} (capacity : Nat) (target : UInt8)
    (late : Instant.limit ≤ horizon + interval) :
    ∃ x, Upto horizon (start capacity target interval) x ∧ x.actuator.phase = .crashed := by
  obtain ⟨x, came, rfl, waiting, listens, idle, pacing⟩ :=
    exists_sent interval horizon capacity target
  refine ⟨_, came.taking (Nat.le_refl _) waiting listens idle { State.shut with damper1 := .full },
    ?_⟩
  have unready : x.actuator.pacing.readyAt? { State.shut with damper1 := .full } x.now = none := by
    rw [Pacing.readyAt?, pacing]
    simp [State.sameDampers, State.shut, Instant.after?_eq_none_iff.mpr late]
  simp [Actuator.send, unready]

end Bench
end Controller

/-! ## The exchange -/

namespace Server
namespace Exchange

def ofSettings (settings : Settings) (capacity others : Nat) : Exchange :=
  start capacity others settings.lockTimeout settings.backoff settings.autoOff settings.topics

/-- What can come of an exchange while the clock shows at most the horizon. -/
def Upto (horizon : Instant) : Exchange → Exchange → Prop :=
  Relation.ReflTransGen fun x y => x.Move y ∧ y.now ≤ horizon

/-- What every move up to the horizon keeps. -/
structure InRange (settings : Settings) (horizon : Instant) (x : Exchange) : Prop where
  now_le : x.now ≤ horizon
  lockTimeout_eq : x.arbiter.arb.lockTimeout = settings.lockTimeout
  topics_eq : x.bridge.topics = settings.topics
  autoOff_eq : x.bridge.tracker.autoOff = settings.autoOff
  backoff_eq : x.bridge.link.backoff = settings.backoff
  arbiter_lost : x.arbiter.phase = .crashed → Instant.limit ≤ horizon + settings.lockTimeout
  bridge_lost : x.bridge.phase = .crashed →
    Bridge.Overruns settings.backoff settings.autoOff settings.topics horizon

namespace InRange

variable {settings : Settings} {horizon : Instant} {x y : Exchange}

theorem start (settings : Settings) (horizon : Instant) (capacity others : Nat) :
    InRange settings horizon (ofSettings settings capacity others) where
  now_le := Nat.zero_le _
  lockTimeout_eq := rfl
  topics_eq := rfl
  autoOff_eq := rfl
  backoff_eq := rfl
  arbiter_lost := nofun
  bridge_lost := nofun

theorem of_arbiter (range : InRange settings horizon x) {arbiter : Arbiter} {hub : Hub}
    (same : arbiter.arb.lockTimeout = x.arbiter.arb.lockTimeout)
    (lost : arbiter.phase = .crashed →
      x.arbiter.phase = .crashed ∨ Instant.limit ≤ x.now + x.arbiter.arb.lockTimeout) :
    InRange settings horizon { x with arbiter := arbiter, hub := hub } where
  now_le := range.now_le
  lockTimeout_eq := same.trans range.lockTimeout_eq
  topics_eq := range.topics_eq
  autoOff_eq := range.autoOff_eq
  backoff_eq := range.backoff_eq
  arbiter_lost crashed := by
    rcases lost crashed with before | late
    · exact range.arbiter_lost before
    · rw [range.lockTimeout_eq] at late
      exact late.trans (Nat.add_le_add_right range.now_le _)
  bridge_lost := range.bridge_lost

theorem of_bridge (range : InRange settings horizon x) {bridge : Bridge} {hub : Hub}
    {line : Broker.Line} (same : Bridge.Same x.bridge bridge)
    (lost : bridge.phase = .crashed → x.bridge.phase = .crashed ∨
      Bridge.Overruns x.bridge.link.backoff x.bridge.tracker.autoOff x.bridge.topics x.now) :
    InRange settings horizon { x with bridge := bridge, hub := hub, line := line } where
  now_le := range.now_le
  lockTimeout_eq := range.lockTimeout_eq
  topics_eq := same.topics_eq.trans range.topics_eq
  autoOff_eq := same.autoOff_eq.trans range.autoOff_eq
  backoff_eq := same.backoff_eq.trans range.backoff_eq
  arbiter_lost := range.arbiter_lost
  bridge_lost crashed := by
    rcases lost crashed with before | late
    · exact range.bridge_lost before
    · rw [range.backoff_eq, range.autoOff_eq, range.topics_eq] at late
      exact late.mono range.now_le

theorem move (range : InRange settings horizon x) (move : x.Move y) (early : y.now ≤ horizon) :
    InRange settings horizon y := by
  cases move with
  | passes after => exact { range with now_le := early }
  | yields | asks | asksLock | goesOn | listens | stirs => exact { range with }
  | arbiterTurns waiting turned =>
    rcases Arbiter.turn_range turned with ⟨same, lost⟩
    exact range.of_arbiter same lost
  | arbiterGoesOn announcing stepped =>
    rcases Arbiter.step_range announcing stepped with ⟨same, up⟩
    exact range.of_arbiter (congrArg _ same) fun crashed => absurd crashed up
  | bridgeTurns waiting turned =>
    rcases Bridge.turn_range turned with ⟨same, lost⟩
    exact range.of_bridge same lost
  | bridgeGoesOn relaying stepped =>
    rcases Bridge.step_range relaying stepped with ⟨same, up⟩
    exact range.of_bridge same fun crashed => absurd crashed up

theorem of_upto {capacity others : Nat}
    (came : Upto horizon (ofSettings settings capacity others) x) : InRange settings horizon x := by
  induction came with
  | refl => exact start settings horizon capacity others
  | tail _ step inductionHypothesis => exact inductionHypothesis.move step.1 step.2

end InRange

/-! ### What does happen at the horizon -/

section Loss

variable {settings : Settings} {horizon : Instant} {x : Exchange}

/-- The arbiter is lost with a request for an interlock that it takes. -/
theorem Move.losesArbiter {request : Bus.LockRequest} {topic : Topic Bus.LockRequest}
    (waiting : x.arbiter.phase = .waiting)
    (received : x.hub.lockRequests.receive? x.arbiter.lockRequests = some (request, topic))
    (lost : x.arbiter.arb.judge x.now (.lock request) = none) :
    x.Move
      { x with
        arbiter := { x.arbiter with phase := .crashed }
        hub := { x.hub with lockRequests := topic } } := by
  refine @Move.arbiterTurns _ .lock _ _ [] waiting ?_
  simp only [Arbiter.turn?, received, Option.bind_eq_bind, Option.bind_some, Arbiter.deal, lost,
    Option.pure_def]

/-- What the bridge takes from the broker. -/
theorem Move.takesOutcome {outcome : Broker.Outcome} {rest : List Broker.Outcome} {refused : Bool}
    (waiting : x.bridge.phase = .waiting) (ready : x.bridge.retry = none)
    (yields : x.line = ⟨outcome :: rest, refused⟩) :
    x.Move
      { x with
        bridge := (x.bridge.take x.now x.hub outcome).1
        hub := (x.bridge.take x.now x.hub outcome).2.1
        line := ⟨rest, refused⟩ } := by
  refine @Move.bridgeTurns _ .outcome _ _ _ (x.bridge.take x.now x.hub outcome).2.2 waiting ?_
  simp [Bridge.turn?, ready, yields, Broker.Line.next?]

/-- The clock may show the horizon when nothing has happened yet. -/
theorem upto_horizon (settings : Settings) (horizon : Instant) (capacity others : Nat) :
    Upto horizon (ofSettings settings capacity others)
      { ofSettings settings capacity others with now := horizon } :=
  .single ⟨.passes (Nat.zero_le horizon), Nat.le_refl horizon⟩

/-- A trusted client sets an interlock when the clock shows the horizon. -/
theorem exists_arbiter_lost (capacity others : Nat)
    (late : Instant.limit ≤ horizon + settings.lockTimeout) :
    ∃ x, Upto horizon (ofSettings settings capacity others) x ∧ x.arbiter.phase = .crashed := by
  have asks := (upto_horizon settings horizon capacity others).tail
    ⟨.asksLock ⟨.laser, true, .local, none⟩, Nat.le_refl horizon⟩
  have idle : (ofSettings settings capacity others).hub.lockRequests = .sole capacity 0 [] := rfl
  simp only [Hub.publishLockRequest, idle, Topic.sole_publish_empty] at asks
  refine ⟨_, asks.tail ⟨Move.losesArbiter rfl (Topic.sole_receive capacity 1 _ []) ?_,
    Nat.le_refl horizon⟩, rfl⟩
  exact Arbitration.judge_eq_none_iff.mpr ⟨_, rfl, rfl, rfl, late⟩

/-- The report that nobody is there, as the building sends it. -/
def absent : List UInt8 := "\x7b\x22Present\x22:false\x7d".toUTF8.toList

theorem read_absent {topics : Feed.Topics} (heard : topics.presence ≠ topics.laser) :
    Feed.Event.read topics topics.presence absent = .ok (some (.presence false)) := by
  have flag : Json.Document.ofBytes? absent >>= Feed.flag? "Present" = some false := by
    decide +kernel
  unfold Feed.Event.read
  rw [if_neg heard, if_pos rfl, Feed.Event.flagOf, flag]
  rfl

/-- The bridge is lost with a failure whose pause the clock cannot hold. -/
theorem Upto.failure {first : Exchange} (came : Upto horizon first x) (early : x.now ≤ horizon)
    (waiting : x.bridge.phase = .waiting) (ready : x.bridge.retry = none)
    (late : Instant.limit ≤ x.now + x.bridge.link.pause) :
    ∃ y, Upto horizon first y ∧ y.bridge.phase = .crashed := by
  have yields := came.tail ⟨.yields ⟨[.failed], false⟩, early⟩
  refine ⟨_, yields.tail ⟨.takesOutcome waiting ready rfl, early⟩, ?_⟩
  simp only [Bridge.take, Instant.after?_eq_none_iff.mpr late]

/-- A connection to the broker fails, right away or once there has been one, or the
space is reported empty. -/
theorem exists_bridge_lost (capacity others : Nat)
    (late : Bridge.Overruns settings.backoff settings.autoOff settings.topics horizon) :
    ∃ x, Upto horizon (ofSettings settings capacity others) x ∧ x.bridge.phase = .crashed := by
  have waits := upto_horizon settings horizon capacity others
  rcases late with late | late | ⟨heard, late⟩
  · exact Upto.failure waits (Nat.le_refl horizon) rfl rfl late
  · -- The pause is short after a connection, whatever the settings say.
    have yields := waits.tail ⟨.yields ⟨[.accepted], false⟩, Nat.le_refl horizon⟩
    have accepts := yields.tail ⟨.takesOutcome rfl rfl rfl, Nat.le_refl horizon⟩
    refine Upto.failure accepts (Nat.le_refl horizon) rfl rfl ?_
    rwa [Bridge.take, Broker.Link.pause_up]
  · have yields := waits.tail
      ⟨.yields ⟨[.message settings.topics.presence absent], false⟩, Nat.le_refl horizon⟩
    refine ⟨_, yields.tail ⟨.takesOutcome rfl rfl rfl, Nat.le_refl horizon⟩, ?_⟩
    have unhandled : Feed.handle? (.start settings.autoOff) (.presence false) horizon = none := by
      simp [Feed.handle?, Feed.Presence.report?, Feed.Presence.start,
        Instant.after?_eq_none_iff.mpr late]
    have told : (ofSettings settings capacity others).bridge.topics = settings.topics := rfl
    have blank : (ofSettings settings capacity others).bridge.tracker = .start settings.autoOff :=
      rfl
    simp only [Bridge.take, Bridge.receive, told, read_absent heard, blank, unhandled]

end Loss

end Exchange
end Server

/-! ## Settings -/

/-- A configuration counts the span between two commands in milliseconds. -/
theorem Config.interval_le (config : Config) :
    config.unchecked.interval ≤ Span.ofMillis (2 ^ 64 - 1) := by
  unfold unchecked
  cases config.get .minIntervalMs with
  | none =>
    change Settings.standard.interval ≤ _
    decide
  | some count => exact Nat.mul_le_mul_right _ (Nat.le_sub_one_of_lt count.isLt)

namespace Server

open Controller (Bench)

/-- Some settings that pass the check are of no use to the arbiter and the bridge.  The
arbiter can be lost before the clock is beyond a horizon exactly if the clock cannot
hold the time for which interlocks are held after the horizon.  It is the same with the
bridge and its pauses and the time for which the space has to be empty, and with the
actuator and its interval.  The interval of a configuration is so short that the
actuator lasts.  The check allows for any of the other spans, as long as none is zero. -/
theorem parts_last_within_the_clock {raw settings : Settings}
    (accepted : raw.validate = .ok settings) (horizon : Instant) (capacity others : Nat) :
    ((∃ x, Exchange.Upto horizon (.ofSettings settings capacity others) x ∧
        x.arbiter.phase = .crashed) ↔ Instant.limit ≤ horizon + settings.lockTimeout) ∧
    ((∃ x, Exchange.Upto horizon (.ofSettings settings capacity others) x ∧
        x.bridge.phase = .crashed) ↔
      Instant.limit ≤ horizon + settings.backoff ∨ Instant.limit ≤ horizon + shortPause ∨
        (settings.topics.presence ≠ settings.topics.laser ∧
          Instant.limit ≤ horizon + settings.autoOff)) ∧
    ((∃ x, Bench.Upto horizon (.start capacity settings.target settings.interval) x ∧
        x.actuator.phase = .crashed) ↔ Instant.limit ≤ horizon + settings.interval) ∧
    (∀ config : Config, config.unchecked = raw →
      settings.interval ≤ Span.ofMillis (2 ^ 64 - 1)) ∧
    (∀ lockTimeout backoff autoOff interval, lockTimeout ≠ 0 → backoff ≠ 0 → autoOff ≠ 0 →
      { raw with
          lockTimeout := lockTimeout, backoff := backoff, autoOff := autoOff,
          interval := interval }.validate =
        .ok { settings with
          lockTimeout := lockTimeout, backoff := backoff, autoOff := autoOff,
          interval := interval }) := by
  rcases Settings.validate_eq_ok_iff.mp accepted with ⟨-, name, device, address, rfl⟩
  refine ⟨⟨?_, Exchange.exists_arbiter_lost capacity others⟩,
    ⟨?_, Exchange.exists_bridge_lost capacity others⟩, ⟨?_, Bench.exists_lost capacity _⟩, ?_, ?_⟩
  · rintro ⟨x, came, crashed⟩
    exact (Exchange.InRange.of_upto came).arbiter_lost crashed
  · rintro ⟨x, came, crashed⟩
    exact (Exchange.InRange.of_upto came).bridge_lost crashed
  · rintro ⟨x, came, crashed⟩
    exact (Bench.InRange.of_upto came).lost crashed
  · rintro config rfl
    exact config.interval_le
  · intro lockTimeout backoff autoOff interval held paused empty
    exact Settings.validate_eq_ok_iff.mpr ⟨⟨held, empty, paused⟩, name, device, address, rfl⟩

/-- A configuration with the longest times that can be written down. -/
def boundless : Config :=
  ((Config.standard.set .lockTimeoutSecs ⟨2 ^ 64 - 1, by decide⟩).set
    .autoOffTimeoutSecs ⟨2 ^ 64 - 1, by decide⟩).set .minIntervalMs ⟨2 ^ 64 - 1, by decide⟩

/-- It passes the check, and the arbiter and the bridge can be lost right after the
start, while the actuator lasts for more than a hundred billion years. -/
theorem parts_last_within_the_clock_or_not :
    ∃ settings, boundless.settings = .ok settings ∧
      (∃ x, Exchange.Upto 0 (.ofSettings settings 10 1) x ∧ x.arbiter.phase = .crashed) ∧
      (∃ x, Exchange.Upto 0 (.ofSettings settings 10 1) x ∧ x.bridge.phase = .crashed) ∧
      ¬ ∃ x, Bench.Upto (Span.ofSeconds (2 ^ 62)) (.start 10 settings.target settings.interval) x ∧
        x.actuator.phase = .crashed := by
  have accepted : boundless.unchecked.validate = .ok boundless.unchecked :=
    Settings.validate_eq_ok_iff.mpr ⟨by decide, by decide, by decide, ⟨_, rfl⟩, rfl⟩
  refine ⟨_, accepted, ?_, ?_, ?_⟩
  · exact (parts_last_within_the_clock accepted 0 10 1).1.mpr (by decide)
  · exact (parts_last_within_the_clock accepted 0 10 1).2.1.mpr (.inr (.inr (by decide)))
  · rw [(parts_last_within_the_clock accepted (Span.ofSeconds (2 ^ 62)) 10 1).2.2.1]
    decide

end Server

end Ventilation
