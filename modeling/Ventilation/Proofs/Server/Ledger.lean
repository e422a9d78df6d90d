import Ventilation.Proofs.Arbitration.Docket
import Ventilation.Proofs.Server.Exchange

namespace Ventilation

/-!
# What is announced has been asked for

A request pays for one announcement.  A change of an interlock pays for two:
its own and that of the expiry, which is owed as long as the deadline lasts.
Nothing is announced before a first request has been taken.
-/

namespace Arbitration

/-! ## What an event pays for -/

def live (arb : Arbitration) : Nat :=
  arb.deadlines.laser.isSome.toNat + arb.deadlines.olga.isSome.toNat

/-- How many announcements an event pays for. -/
def worth : ArbiterEvent → Nat
  | .request _ => 1
  | .lock _ => 2
  | .deadline => 0

/-- What an event pays for: announcements now, and those of expiries to come. -/
structure Pays (arb : Arbitration) (event : ArbiterEvent) (announced : Option State)
    (next : Arbitration) : Prop where
  paid : announced.isSome.toNat + next.live ≤ arb.live + worth event
  first : announced.isSome → next.accepted.isSome
  keeps : arb.accepted.isSome → next.accepted.isSome
  known : next.accepted.isSome → arb.accepted.isSome ∨ ∃ r, event = .request r

theorem live_set (arb : Arbitration) (lock : Lock) (locks : Locks) (deadline : Option Instant) :
    ({ arb with locks := locks, deadlines := arb.deadlines.set lock deadline } : Arbitration).live
      ≤ arb.live + 1 := by
  have one : deadline.isSome.toNat ≤ 1 := Bool.toNat_le _
  unfold live
  cases lock with
  | laser =>
    simp only [PerLock.set]
    omega
  | olga =>
    simp only [PerLock.set]
    omega

/-- Expiry removes deadlines, and at least one if anything is released. -/
theorem live_expire (arb : Arbitration) (now : Instant) :
    (if (arb.expire now).1 = [] then 0 else 1) + (arb.expire now).2.live ≤ arb.live := by
  have each : ∀ lock, (arb.expired now lock).toNat
      + ((arb.expire now).2.deadlines.get lock).isSome.toNat =
        (arb.deadlines.get lock).isSome.toNat := by
    intro lock
    rw [expire_deadline]
    unfold expired
    cases arb.deadlines.get lock with
    | none => rfl
    | some deadline => by_cases reached : deadline ≤ now <;> simp [Instant.due, reached]
  have released : (if (arb.expire now).1 = [] then 0 else 1) ≤
      (arb.expired now .laser).toNat + (arb.expired now .olga).toNat := by
    cases first : arb.expired now .laser <;> cases second : arb.expired now .olga <;>
      simp [expire, Lock.all, first, second]
  have laser := each .laser
  have olga := each .olga
  simp only [PerLock.get] at laser olga
  unfold live
  omega

theorem performs_pays {arb next : Arbitration} {now : Instant} {event : ArbiterEvent}
    {answer : Answer} (performs : Performs arb (eventOf now event) answer next) :
    arb.Pays event (next.announcement answer) next := by
  have nothing : ∀ event, arb.Pays event none arb := fun event =>
    ⟨by simp, by simp, id, .inl⟩
  cases event with
  | request r =>
    cases performs with
    | accepts allowed =>
      exact ⟨Nat.le_of_eq (Nat.add_comm _ _), fun _ => rfl, fun _ => rfl, fun _ => .inr ⟨r, rfl⟩⟩
    | refuses broken => exact nothing _
  | lock r =>
    rcases r with ⟨lock, active, origin, reply⟩
    have changes : ∀ locks deadline,
        let next := { arb with locks := locks, deadlines := arb.deadlines.set lock deadline }
        arb.Pays (.lock ⟨lock, active, origin, reply⟩) next.state next := by
      intro locks deadline next
      have more := arb.live_set lock locks deadline
      have one := Bool.toNat_le next.state.isSome
      refine ⟨?_, fun announced => next.state_isSome ▸ announced, id, .inl⟩
      simp only [worth, next] at one ⊢
      omega
    cases performs with
    | sets held => exact changes _ _
    | releases => exact changes _ _
    | keepsLock => exact nothing _
  | deadline =>
    cases performs with
    | expires =>
      have less := arb.live_expire now
      have one := Bool.toNat_le (arb.expire now).2.state.isSome
      have keeps := arb.expire_accepted now
      refine ⟨?_, ?_, fun known => keeps ▸ known, fun known => .inl (keeps ▸ known)⟩
      · simp only [announcement, worth]
        split at less
        · next idle =>
          rw [if_pos idle]
          exact less
        · next busy =>
          rw [if_neg busy]
          omega
      · intro announced
        simp only [announcement] at announced
        split at announced
        · cases announced
        · exact (state_isSome _) ▸ announced

theorem judge_pays {arb : Arbitration} {now : Instant} {event : ArbiterEvent} {verdict : Verdict}
    (judged : arb.judge now event = some verdict) :
    arb.Pays event verdict.announced verdict.arb := by
  rcases performs_of_judge judged with ⟨answer, performs, announced⟩
  rw [announced]
  exact performs_pays performs

end Arbitration

namespace Server

open Broker (Bridge)
open Bus (Hub Topic)
open Bus.Topic (Elsewhere Flow)

/-! ## One step of the arbiter -/

/-- What the arbiter does with an event that it has taken from the hub. -/
structure Deals (event : ArbiterEvent) (before after : Arbiter) (hub next : Hub) : Prop where
  requests_eq : next.requests = hub.requests
  lockRequests_eq : next.lockRequests = hub.lockRequests
  listens : after.requests = before.requests ∧ after.lockRequests = before.lockRequests
  announces : ∃ announced, before.arb.Pays event announced after.arb ∧
    (hub.states.Sound → ∀ id, Flow id announced.isSome.toNat 0 hub.states next.states)

theorem deal_deals (arbiter : Arbiter) (now : Instant) (hub : Hub) (event : ArbiterEvent) :
    Deals event arbiter (arbiter.deal now hub event).1 hub (arbiter.deal now hub event).2.1 := by
  unfold Arbiter.deal
  split
  · -- The clock cannot hold a deadline: nothing is done.
    refine ⟨rfl, rfl, ⟨rfl, rfl⟩, none, ⟨by simp, by simp, id, .inl⟩, fun sound id => ?_⟩
    exact .still sound id
  · next verdict judged =>
    have pays := Arbitration.judge_pays judged
    have quiet := Undisturbed.report hub event.client verdict.told
    simp only
    split
    · next silent =>
      rw [silent] at pays
      refine ⟨quiet.requests_eq, quiet.lockRequests_eq, ⟨rfl, rfl⟩, none, pays, ?_⟩
      intro sound id
      rw [quiet.states_eq]
      exact .still sound id
    · next state announced =>
      rw [announced] at pays
      have published : (Arbiter.report hub event.client verdict.told).1.publishState state =
          (Hub.waitOf .state (hub.states.publish state).1 (hub.states.publish state).2.1,
            { (Arbiter.report hub event.client verdict.told).1 with
              states := (hub.states.publish state).2.2 }) := by
        rw [Hub.publishState, quiet.states_eq]
      split
      · next onward =>
        rcases Prod.mk.inj (published.symm.trans onward) with ⟨-, rfl⟩
        exact ⟨quiet.requests_eq, quiet.lockRequests_eq, ⟨rfl, rfl⟩, some state, pays,
          fun sound id => .publish sound state id⟩
      · next stuck =>
        rcases Prod.mk.inj (published.symm.trans stuck) with ⟨-, rfl⟩
        exact ⟨quiet.requests_eq, quiet.lockRequests_eq, ⟨rfl, rfl⟩, some state, pays,
          fun sound id => .publish sound state id⟩

/-! ## One step of the bridge -/

/-- What the bridge asks for at the topics of the arbiter. -/
structure Relays (before after : Hub) : Prop where
  states_eq : after.states = before.states
  requests : before.requests.Sound → ∀ id, ∃ asked, Flow id asked 0 before.requests after.requests
  lockRequests : before.lockRequests.Sound → ∀ id, ∃ asked,
    Flow id asked 0 before.lockRequests after.lockRequests

theorem Relays.refl (hub : Hub) : Relays hub hub :=
  ⟨rfl, fun sound id => ⟨0, .still sound id⟩, fun sound id => ⟨0, .still sound id⟩⟩

theorem demand_relays (bridge : Bridge) (hub : Hub) (demanded : Option Feed.Demand) :
    Relays hub (bridge.demand hub demanded).2 ∧
      (bridge.demand hub demanded).1.states = bridge.states := by
  have published : Relays hub (Feed.Relay.publish hub demanded).2 := by
    rcases demanded with - | (active | -)
    · exact .refl hub
    · exact ⟨rfl, fun sound id => ⟨0, .still sound id⟩, fun sound id => ⟨1, .publish sound _ id⟩⟩
    · exact ⟨rfl, fun sound id => ⟨1, .publish sound _ id⟩, fun sound id => ⟨0, .still sound id⟩⟩
  unfold Bridge.demand
  split
  · next onward =>
    rw [onward] at published
    exact ⟨published, rfl⟩
  · next stuck =>
    rw [stuck] at published
    exact ⟨published, rfl⟩

theorem take_relays (bridge : Bridge) (now : Instant) (hub : Hub) (outcome : Broker.Outcome) :
    Relays hub (bridge.take now hub outcome).2.1 ∧
      (bridge.take now hub outcome).1.states = bridge.states := by
  cases outcome with
  | accepted => exact ⟨.refl hub, rfl⟩
  | other => exact ⟨.refl hub, rfl⟩
  | failed =>
    unfold Bridge.take
    simp only
    split <;> exact ⟨.refl hub, rfl⟩
  | message topic payload =>
    simp only [Bridge.take, Bridge.receive]
    split
    · split
      · next demanded tracker handled =>
        exact demand_relays { bridge with tracker := tracker } hub demanded
      · exact ⟨.refl hub, rfl⟩
    · exact ⟨.refl hub, rfl⟩

/-! ## The books -/

/-- A topic whose queues are so long and at which a listener has taken no more
than has been published. -/
structure Account (capacity id : Nat) {α : Type} (topic : Topic α) : Prop where
  sound : topic.Sound
  capacity_eq : topic.capacity = capacity
  untaken_le : topic.untaken id ≤ topic.nextTicket

theorem Account.flow {capacity id published taken : Nat} {α : Type} {before after : Topic α}
    (account : Account capacity id before) (flow : Flow id published taken before after) :
    Account capacity id after where
  sound := flow.sound
  capacity_eq := flow.capacity_eq.trans account.capacity_eq
  untaken_le := by
    have moved := flow.untaken_le
    have known := account.untaken_le
    rw [flow.nextTicket_eq]
    omega

/-- What has been announced, and what expiries will announce, is paid for by
what the arbiter has taken. -/
structure Ledger (capacity : Nat) (x : Exchange) : Prop where
  requests : Account capacity x.arbiter.requests x.hub.requests
  lockRequests : Account capacity x.arbiter.lockRequests x.hub.lockRequests
  states : Account capacity x.bridge.states x.hub.states
  silent : x.arbiter.arb.accepted = none → x.hub.states.nextTicket = 0
  heard : x.arbiter.arb.accepted.isSome →
    x.hub.requests.untaken x.arbiter.requests + 1 ≤ x.hub.requests.nextTicket
  balance : x.hub.states.nextTicket + x.arbiter.arb.live
      + x.hub.requests.untaken x.arbiter.requests
      + 2 * x.hub.lockRequests.untaken x.arbiter.lockRequests ≤
    x.hub.requests.nextTicket + 2 * x.hub.lockRequests.nextTicket

namespace Ledger

variable {capacity : Nat} {x y : Exchange}

/-- The books balance after a step in which so much is asked for, taken and
announced, if the announcements are paid for. -/
theorem carry (ledger : Ledger capacity x)
    {askedStates takenStates askedLocks takenLocks announced passed : Nat}
    (requests : Flow x.arbiter.requests askedStates takenStates x.hub.requests y.hub.requests)
    (lockRequests : Flow x.arbiter.lockRequests askedLocks takenLocks x.hub.lockRequests
      y.hub.lockRequests)
    (states : Flow x.bridge.states announced passed x.hub.states y.hub.states)
    (same : y.arbiter.requests = x.arbiter.requests ∧
      y.arbiter.lockRequests = x.arbiter.lockRequests ∧ y.bridge.states = x.bridge.states)
    (paid : announced + y.arbiter.arb.live ≤ x.arbiter.arb.live + takenStates + 2 * takenLocks)
    (first : 0 < announced → y.arbiter.arb.accepted.isSome)
    (keeps : x.arbiter.arb.accepted.isSome → y.arbiter.arb.accepted.isSome)
    (known : y.arbiter.arb.accepted.isSome → x.arbiter.arb.accepted.isSome ∨ 0 < takenStates) :
    Ledger capacity y := by
  rcases same with ⟨sameRequests, sameLocks, sameStates⟩
  have fewerRequests := requests.untaken_le
  have fewerLocks := lockRequests.untaken_le
  refine ⟨?_, ?_, ?_, ?_, ?_, ?_⟩
  · exact sameRequests ▸ ledger.requests.flow requests
  · exact sameLocks ▸ ledger.lockRequests.flow lockRequests
  · exact sameStates ▸ ledger.states.flow states
  · intro unknown
    have before : x.arbiter.arb.accepted = none := by
      cases accepted : x.arbiter.arb.accepted with
      | none => rfl
      | some state => simpa [unknown] using keeps (by rw [accepted]; rfl)
    have none_announced : announced = 0 := by
      by_contra some_announced
      simpa [unknown] using first (Nat.pos_of_ne_zero some_announced)
    rw [states.nextTicket_eq, ledger.silent before, none_announced]
  · intro accepted
    rw [sameRequests, requests.nextTicket_eq]
    rcases known accepted with before | taken
    · have heard := ledger.heard before
      omega
    · have within := ledger.requests.untaken_le
      omega
  · have balance := ledger.balance
    rw [sameRequests, sameLocks, states.nextTicket_eq, requests.nextTicket_eq,
      lockRequests.nextTicket_eq]
    omega

theorem deal (ledger : Ledger capacity x) {event : ArbiterEvent} {hub next : Hub}
    {arbiter : Arbiter} {takenStates takenLocks : Nat}
    (deals : Deals event x.arbiter arbiter hub next)
    (requests : Flow x.arbiter.requests 0 takenStates x.hub.requests hub.requests)
    (lockRequests : Flow x.arbiter.lockRequests 0 takenLocks x.hub.lockRequests hub.lockRequests)
    (states : hub.states = x.hub.states)
    (worth : Arbitration.worth event ≤ takenStates + 2 * takenLocks)
    (request : (∃ r, event = .request r) → 0 < takenStates) :
    Ledger capacity { x with arbiter := arbiter, hub := next } := by
  rcases deals.announces with ⟨announced, pays, flows⟩
  have flow := flows (states ▸ ledger.states.sound) x.bridge.states
  rw [← deals.requests_eq] at requests
  rw [← deals.lockRequests_eq] at lockRequests
  rw [states] at flow
  refine ledger.carry requests lockRequests flow
    ⟨deals.listens.1, deals.listens.2, rfl⟩ ?_ ?_ pays.keeps ?_
  · have paid := pays.paid
    simp only
    omega
  · intro some_announced
    cases announced with
    | none => exact absurd some_announced (Nat.lt_irrefl 0)
    | some state => exact pays.first rfl
  · intro accepted
    exact (pays.known accepted).imp id request

theorem relays (ledger : Ledger capacity x) {bridge : Bridge} {hub : Hub} {line : Broker.Line}
    (relays : Relays x.hub hub) (same : bridge.states = x.bridge.states) :
    Ledger capacity { x with bridge := bridge, hub := hub, line := line } := by
  rcases relays.requests ledger.requests.sound x.arbiter.requests with ⟨askedStates, requests⟩
  obtain ⟨askedLocks, lockRequests⟩ :=
    relays.lockRequests ledger.lockRequests.sound x.arbiter.lockRequests
  refine ledger.carry requests lockRequests (.of_eq ledger.states.sound relays.states_eq _)
    ⟨rfl, rfl, same⟩ ?_ ?_ id .inl
  · simp only
    omega
  · exact fun none_announced => absurd none_announced (Nat.lt_irrefl 0)

/-- Something is announced to others or taken by the bridge, and the arbiter
does not deal with anything. -/
theorem passive (ledger : Ledger capacity x) {askedStates askedLocks passed : Nat}
    (requests : Flow x.arbiter.requests askedStates 0 x.hub.requests y.hub.requests)
    (lockRequests : Flow x.arbiter.lockRequests askedLocks 0 x.hub.lockRequests
      y.hub.lockRequests)
    (states : Flow x.bridge.states 0 passed x.hub.states y.hub.states)
    (same : y.arbiter.requests = x.arbiter.requests ∧
      y.arbiter.lockRequests = x.arbiter.lockRequests ∧ y.bridge.states = x.bridge.states)
    (idle : y.arbiter.arb = x.arbiter.arb) : Ledger capacity y := by
  refine ledger.carry requests lockRequests states same ?_ ?_ ?_ ?_
  · rw [idle]
    omega
  · exact fun announced => absurd announced (Nat.lt_irrefl 0)
  · exact fun accepted => idle ▸ accepted
  · exact fun accepted => .inl (idle ▸ accepted)

theorem undisturbed (ledger : Ledger capacity x) (undisturbed : Undisturbed x.hub y.hub)
    (same : y.arbiter.requests = x.arbiter.requests ∧
      y.arbiter.lockRequests = x.arbiter.lockRequests ∧ y.bridge.states = x.bridge.states)
    (idle : y.arbiter.arb = x.arbiter.arb) : Ledger capacity y :=
  ledger.passive (.of_eq ledger.requests.sound undisturbed.requests_eq _)
    (.of_eq ledger.lockRequests.sound undisturbed.lockRequests_eq _)
    (.of_eq ledger.states.sound undisturbed.states_eq _) same idle

theorem proceed (ledger : Ledger capacity x) {wait : Hub.Wait}
    (hub : y.hub = (x.hub.proceed wait).2)
    (same : y.arbiter.requests = x.arbiter.requests ∧
      y.arbiter.lockRequests = x.arbiter.lockRequests ∧ y.bridge.states = x.bridge.states)
    (idle : y.arbiter.arb = x.arbiter.arb) : Ledger capacity y := by
  have requests : Flow x.arbiter.requests 0 0 x.hub.requests y.hub.requests := by
    rw [hub]
    cases wait with
    | request ticket => exact .resume ledger.requests.sound ticket _
    | _ => exact .still ledger.requests.sound _
  have lockRequests :
      Flow x.arbiter.lockRequests 0 0 x.hub.lockRequests y.hub.lockRequests := by
    rw [hub]
    cases wait with
    | lockRequest ticket => exact .resume ledger.lockRequests.sound ticket _
    | _ => exact .still ledger.lockRequests.sound _
  have states : Flow x.bridge.states 0 0 x.hub.states y.hub.states := by
    rw [hub]
    cases wait with
    | state ticket => exact .resume ledger.states.sound ticket _
    | _ => exact .still ledger.states.sound _
  exact ledger.passive requests lockRequests states same idle

theorem arbiterTurns (ledger : Ledger capacity x) {branch : Arbiter.Branch} {arbiter : Arbiter}
    {hub : Hub} {log : List LogLine}
    (turned : x.arbiter.turn? x.now x.hub branch = some (arbiter, hub, log)) :
    Ledger capacity { x with arbiter := arbiter, hub := hub } := by
  have requests := ledger.requests.sound
  have lockRequests := ledger.lockRequests.sound
  have states := ledger.states.sound
  cases branch with
  | shutdown =>
    simp only [Arbiter.turn?, Option.bind_eq_bind, Option.bind_eq_some_iff, Option.pure_def,
      Option.some.injEq, Prod.mk.injEq] at turned
    rcases turned with ⟨closed, taken, rfl, rfl, -⟩
    have quiet := Undisturbed.takeShutdown? taken
    have leaves : Flow x.arbiter.requests 0 0 x.hub.requests
        (closed.requests.unsubscribe x.arbiter.requests) := by
      rw [quiet.requests_eq]
      exact .unsubscribe requests _ _
    have leavesLocks : Flow x.arbiter.lockRequests 0 0 x.hub.lockRequests
        (closed.lockRequests.unsubscribe x.arbiter.lockRequests) := by
      rw [quiet.lockRequests_eq]
      exact .unsubscribe lockRequests _ _
    exact ledger.passive leaves leavesLocks (.of_eq states quiet.states_eq _) ⟨rfl, rfl, rfl⟩ rfl
  | request =>
    simp only [Arbiter.turn?, Option.bind_eq_bind, Option.bind_eq_some_iff] at turned
    rcases turned with ⟨⟨request, topic⟩, received, dealt⟩
    have deals := deal_deals x.arbiter x.now { x.hub with requests := topic } (.request request)
    rw [Option.some.inj dealt] at deals
    exact ledger.deal deals (.receive requests received) (.still lockRequests _) rfl
      (Nat.le_refl _) (fun _ => Nat.one_pos)
  | lock =>
    simp only [Arbiter.turn?, Option.bind_eq_bind, Option.bind_eq_some_iff] at turned
    rcases turned with ⟨⟨request, topic⟩, received, dealt⟩
    have deals := deal_deals x.arbiter x.now { x.hub with lockRequests := topic } (.lock request)
    rw [Option.some.inj dealt] at deals
    exact ledger.deal deals (.still requests _) (.receive lockRequests received) rfl
      (Nat.le_refl _) (fun ⟨_, differs⟩ => nomatch differs)
  | deadline =>
    simp only [Arbiter.turn?, Option.ite_none_right_eq_some] at turned
    have deals := deal_deals x.arbiter x.now x.hub .deadline
    rw [Option.some.inj turned.2] at deals
    exact ledger.deal deals (.still requests _) (.still lockRequests _) rfl
      (Nat.zero_le _) (fun ⟨_, differs⟩ => nomatch differs)

/-- What a client asks for counts at once, whether there is room for it or not. -/
theorem asked_publishRequest (ledger : Ledger capacity x) (request : Bus.Request) :
    ({ x with hub := (x.hub.publishRequest request).2 } : Exchange).asked = x.asked + 1 := by
  have more : (x.hub.publishRequest request).2.requests.nextTicket =
      x.hub.requests.nextTicket + 1 :=
    (Flow.publish ledger.requests.sound request x.arbiter.requests).nextTicket_eq
  unfold Exchange.asked
  rw [more]
  exact Nat.add_right_comm _ _ _

theorem bridgeTurns (ledger : Ledger capacity x) {branch : Bridge.Branch} {bridge : Bridge}
    {hub : Hub} {line : Broker.Line} {deeds : List Broker.Deed}
    (turned : x.bridge.turn? x.now x.hub x.line branch = some (bridge, hub, line, deeds)) :
    Ledger capacity { x with bridge := bridge, hub := hub, line := line } := by
  have requests := ledger.requests.sound
  have lockRequests := ledger.lockRequests.sound
  have states := ledger.states.sound
  cases branch with
  | shutdown =>
    simp only [Bridge.turn?, Option.bind_eq_bind, Option.bind_eq_some_iff, Option.pure_def,
      Option.some.injEq, Prod.mk.injEq] at turned
    rcases turned with ⟨closed, taken, rfl, rfl, rfl, -⟩
    have quiet := Undisturbed.takeShutdown? taken
    have leaves : Flow x.bridge.states 0 0 x.hub.states
        (closed.states.unsubscribe x.bridge.states) := by
      rw [quiet.states_eq]
      exact .unsubscribe states _ _
    exact ledger.passive (.of_eq requests quiet.requests_eq _)
      (.of_eq lockRequests quiet.lockRequests_eq _) leaves ⟨rfl, rfl, rfl⟩ rfl
  | state =>
    simp only [Bridge.turn?, Option.bind_eq_bind, Option.bind_eq_some_iff, Option.pure_def,
      Option.some.injEq, Prod.mk.injEq] at turned
    rcases turned with ⟨⟨state, topic⟩, received, rfl, rfl, rfl, -⟩
    exact ledger.passive (.still requests _) (.still lockRequests _)
      (.receive states received) ⟨rfl, rfl, rfl⟩ rfl
  | outcome =>
    simp only [Bridge.turn?, Option.ite_none_left_eq_some, Option.bind_eq_bind,
      Option.bind_eq_some_iff, Option.pure_def, Option.some.injEq, Prod.mk.injEq] at turned
    rcases turned with ⟨-, ⟨outcome, later⟩, -, rfl, rfl, rfl, -⟩
    rcases take_relays x.bridge x.now x.hub outcome with ⟨relays, same⟩
    exact ledger.relays relays same
  | retry =>
    simp only [Bridge.turn?, Option.ite_none_right_eq_some, Option.some.injEq,
      Prod.mk.injEq] at turned
    rcases turned with ⟨-, rfl, rfl, rfl, -⟩
    exact ledger.undisturbed (.refl x.hub) ⟨rfl, rfl, rfl⟩ rfl
  | deadline =>
    simp only [Bridge.turn?, Option.ite_none_right_eq_some, Option.some.injEq,
      Prod.mk.injEq] at turned
    rcases turned with ⟨-, rfl, rfl, rfl, -⟩
    obtain ⟨relays, same⟩ := demand_relays
      { x.bridge with tracker := (Feed.atDeadline x.bridge.tracker x.now).2 } x.hub
      (Feed.atDeadline x.bridge.tracker x.now).1
    exact ledger.relays relays same

theorem arbiterGoesOn (ledger : Ledger capacity x) {wait : Hub.Wait} {client : Option Nat}
    {arbiter : Arbiter} {hub : Hub} {log : List LogLine}
    (announcing : x.arbiter.phase = .announcing wait client)
    (stepped : x.arbiter.step? x.now x.hub = some (arbiter, hub, log)) :
    Ledger capacity { x with arbiter := arbiter, hub := hub } := by
  have gone : Ledger capacity { x with hub := (x.hub.proceed wait).2 } :=
    ledger.proceed rfl ⟨rfl, rfl, rfl⟩ rfl
  simp only [Arbiter.step?, announcing, Option.ite_none_right_eq_some] at stepped
  rcases stepped with ⟨-, stepped⟩
  split at stepped
  · next proceeded =>
    simp only [Option.some.injEq, Prod.mk.injEq] at stepped
    rcases stepped with ⟨rfl, rfl, -⟩
    rw [proceeded] at gone
    exact gone.undisturbed (.release _ client) ⟨rfl, rfl, rfl⟩ rfl
  · next proceeded =>
    simp only [Option.some.injEq, Prod.mk.injEq] at stepped
    rcases stepped with ⟨rfl, rfl, -⟩
    rw [proceeded] at gone
    exact gone

theorem bridgeGoesOn (ledger : Ledger capacity x) {wait : Hub.Wait} {bridge : Bridge} {hub : Hub}
    {line : Broker.Line} {deeds : List Broker.Deed} (relaying : x.bridge.phase = .relaying wait)
    (stepped : x.bridge.step? x.now x.hub x.line = some (bridge, hub, line, deeds)) :
    Ledger capacity { x with bridge := bridge, hub := hub, line := line } := by
  have gone : Ledger capacity { x with hub := (x.hub.proceed wait).2 } :=
    ledger.proceed rfl ⟨rfl, rfl, rfl⟩ rfl
  simp only [Bridge.step?, relaying, Option.ite_none_right_eq_some] at stepped
  rcases stepped with ⟨-, stepped⟩
  split at stepped
  · next proceeded =>
    simp only [Option.some.injEq, Prod.mk.injEq] at stepped
    rcases stepped with ⟨rfl, rfl, rfl, -⟩
    rw [proceeded] at gone
    exact gone.undisturbed (.refl _) ⟨rfl, rfl, rfl⟩ rfl
  · next proceeded =>
    simp only [Option.some.injEq, Prod.mk.injEq] at stepped
    rcases stepped with ⟨rfl, rfl, rfl, -⟩
    rw [proceeded] at gone
    exact gone

theorem move (ledger : Ledger capacity x) (move : x.Move y) : Ledger capacity y := by
  have requests := ledger.requests.sound
  have lockRequests := ledger.lockRequests.sound
  have states := ledger.states.sound
  cases move with
  | passes after => exact ledger.undisturbed (.refl x.hub) ⟨rfl, rfl, rfl⟩ rfl
  | yields line => exact ledger.undisturbed (.refl x.hub) ⟨rfl, rfl, rfl⟩ rfl
  | asks request =>
    exact ledger.passive (.publish requests request _) (.still lockRequests _)
      (.still states _) ⟨rfl, rfl, rfl⟩ rfl
  | asksLock request =>
    exact ledger.passive (.still requests _) (.publish lockRequests request _)
      (.still states _) ⟨rfl, rfl, rfl⟩ rfl
  | goesOn foreign => exact ledger.proceed rfl ⟨rfl, rfl, rfl⟩ rfl
  | listens elsewhere =>
    exact ledger.passive (.still requests _) (.still lockRequests _)
      (elsewhere.flow states) ⟨rfl, rfl, rfl⟩ rfl
  | stirs undisturbed => exact ledger.undisturbed undisturbed ⟨rfl, rfl, rfl⟩ rfl
  | arbiterTurns waiting turned => exact ledger.arbiterTurns turned
  | arbiterGoesOn announcing stepped => exact ledger.arbiterGoesOn announcing stepped
  | bridgeTurns waiting turned => exact ledger.bridgeTurns turned
  | bridgeGoesOn relaying stepped => exact ledger.bridgeGoesOn relaying stepped

end Ledger

/-! ## Everything that can be reached -/

/-- Nothing has been published while listeners come. -/
theorem account_of_listeners {α : Type} (capacity listeners id : Nat) :
    let topic := (fun topic : Topic α => topic.subscribe.2)^[listeners] (.empty capacity)
    Account (max capacity 1) id topic ∧ topic.nextTicket = 0 := by
  induction listeners with
  | zero => exact ⟨⟨Topic.sound_empty capacity, rfl, Nat.le_refl _⟩, rfl⟩
  | succ listeners inductionHypothesis =>
    rcases inductionHypothesis with ⟨account, unused⟩
    rw [Function.iterate_succ_apply']
    exact ⟨account.flow (Elsewhere.subscribes.flow account.sound), unused⟩

theorem ledger_start (capacity others : Nat) (lockTimeout backoff autoOff : Span)
    (topics : Feed.Topics) :
    Ledger (max capacity 1)
      (Exchange.start capacity others lockTimeout backoff autoOff topics) := by
  generalize started : Exchange.start capacity others lockTimeout backoff autoOff topics = x
  have ⟨requests, noRequests⟩ : Account (max capacity 1) x.arbiter.requests x.hub.requests ∧
      x.hub.requests.nextTicket = 0 := by
    subst started
    exact account_of_listeners capacity 1 1
  have ⟨lockRequests, noLocks⟩ :
      Account (max capacity 1) x.arbiter.lockRequests x.hub.lockRequests ∧
        x.hub.lockRequests.nextTicket = 0 := by
    subst started
    exact account_of_listeners capacity 1 1
  have ⟨states, noStates⟩ : Account (max capacity 1) x.bridge.states x.hub.states ∧
      x.hub.states.nextTicket = 0 := by
    subst started
    have crowd := fun id => @account_of_listeners State capacity (others + 1) id
    rw [Function.iterate_succ_apply'] at crowd
    exact crowd _
  have unknown : x.arbiter.arb.accepted = none := by
    subst started
    rfl
  have unlocked : x.arbiter.arb.live = 0 := by
    subst started
    rfl
  have noneRequested := requests.untaken_le
  have noneLocked := lockRequests.untaken_le
  refine ⟨requests, lockRequests, states, fun _ => noStates, ?_, ?_⟩
  · intro accepted
    rw [unknown] at accepted
    cases accepted
  · omega

/-- The books balance whatever happens. -/
theorem ledger_of_reachable {capacity : Nat} {lockTimeout : Span} {x : Exchange}
    (reached : Exchange.Reachable capacity lockTimeout x) : Ledger (max capacity 1) x := by
  induction reached with
  | start others backoff autoOff topics => exact ledger_start _ _ _ _ _ _
  | move reached move inductionHypothesis => exact inductionHypothesis.move move

/-- For a standstill, a queue of the arbiter and the queue of the bridge have to
be full and one value more has to wait at each; and what fills the queue of the
bridge has to be asked for. -/
theorem asked_of_standstill {capacity : Nat} {lockTimeout : Span} {x : Exchange}
    (reached : Exchange.Reachable capacity lockTimeout x) (standstill : x.Standstill) :
    max capacity 1 + 2 + (max capacity 1 + 1) / 2 ≤ x.asked := by
  have ledger := ledger_of_reachable reached
  have capacityRequests := ledger.requests.capacity_eq
  have capacityLocks := ledger.lockRequests.capacity_eq
  have withinLocks := ledger.lockRequests.untaken_le
  rcases standstill.arbiter_waits with ⟨ticket, client, -, full⟩
  have announced := full.capacity_lt_untaken ledger.states.sound
  have capacityStates := ledger.states.capacity_eq
  have withinStates := ledger.states.untaken_le
  have known : x.arbiter.arb.accepted.isSome := by
    cases accepted : x.arbiter.arb.accepted with
    | none =>
      have silent := ledger.silent accepted
      omega
    | some state => rfl
  have heard := ledger.heard known
  have balance := ledger.balance
  unfold Exchange.asked
  rcases standstill.bridge_waits with ⟨other, ⟨-, stuck⟩ | ⟨-, stuck⟩⟩
  · have waiting := stuck.capacity_lt_untaken ledger.lockRequests.sound
    omega
  · have waiting := stuck.capacity_lt_untaken ledger.requests.sound
    omega

end Server
end Ventilation
