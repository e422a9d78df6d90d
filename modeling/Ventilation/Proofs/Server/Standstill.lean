import Ventilation.Proofs.Bus.Lone
import Ventilation.Proofs.Server.Ledger

namespace Ventilation

/-!
# When the arbiter and the bridge stand still

The two can wait for each other: the arbiter for room in the queue of the
bridge, the bridge for room in a queue of the arbiter.  Nothing that happens
around them ends this.  How much has to be asked for before it can come about
depends on the length of the queues alone, and from that on it can come about.
-/

namespace Bus
namespace Topic

variable {α : Type}

/-! ## A topic with a single listener -/

/-- A topic with one listener, whose queue it is, and with nobody waiting. -/
def sole (capacity published : Nat) (queue : List α) : Topic α where
  capacity := max capacity 1
  capacity_pos := max_one_pos capacity
  nextId := 2
  nextTicket := published
  listeners := [.lasting 1]
  boxes := [⟨1, queue, []⟩]
  shots := []
  publishings := []

theorem sole_publish {capacity published : Nat} {queue : List α}
    (room : queue.length < max capacity 1) (value : α) :
    (sole capacity published queue).publish value =
      (published, some 1, sole capacity (published + 1) (queue ++ [value])) :=
  lone_publish room value

theorem sole_publish_empty (capacity published : Nat) (value : α) :
    (sole capacity published []).publish value =
      (published, some 1, sole capacity (published + 1) [value]) :=
  sole_publish (max_one_pos capacity) value

theorem sole_publish_full {capacity published : Nat} {queue : List α}
    (full : queue.length = max capacity 1) (value : α) :
    ((sole capacity published queue).publish value).1 = published ∧
      ((sole capacity published queue).publish value).2.1 = none ∧
        ((sole capacity published queue).publish value).2.2.nextTicket = published + 1 ∧
          ((sole capacity published queue).publish value).2.2.WaitsAt published 1 :=
  lone_publish_full full value

theorem sole_receive (capacity published : Nat) (value : α) (queue : List α) :
    (sole capacity published (value :: queue)).receive? 1 =
      some (value, sole capacity published queue) :=
  lone_receive 1 capacity published value queue

end Topic
end Bus

namespace Server

open Broker (Bridge Line)
open Bus (Hub LockRequest Request Topic)
open Bus.Topic (Elsewhere sole)

/-! ## A standstill lasts -/

namespace Exchange

variable {capacity : Nat} {x y : Exchange}

theorem Standstill.keep (standstill : x.Standstill) (arbiter : y.arbiter = x.arbiter)
    (bridge : y.bridge = x.bridge)
    (states : ∀ ticket, x.hub.states.WaitsAt ticket x.bridge.states →
      y.hub.states.WaitsAt ticket x.bridge.states)
    (lockRequests : ∀ ticket, x.hub.lockRequests.WaitsAt ticket x.arbiter.lockRequests →
      y.hub.lockRequests.WaitsAt ticket x.arbiter.lockRequests)
    (requests : ∀ ticket, x.hub.requests.WaitsAt ticket x.arbiter.requests →
      y.hub.requests.WaitsAt ticket x.arbiter.requests) : y.Standstill := by
  rcases standstill with ⟨⟨ticket, client, announcing, full⟩, other, waits⟩
  refine ⟨⟨ticket, client, ?_, ?_⟩, other, ?_⟩
  · rw [arbiter]
    exact announcing
  · rw [bridge]
    exact states ticket full
  · rw [bridge, arbiter]
    exact waits.imp (fun ⟨relaying, stuck⟩ => ⟨relaying, lockRequests other stuck⟩)
      (fun ⟨relaying, stuck⟩ => ⟨relaying, requests other stuck⟩)

/-- Whatever happens, the two go on waiting for each other. -/
theorem Standstill.move (standstill : x.Standstill) (ledger : Ledger capacity x)
    (move : x.Move y) : y.Standstill := by
  have requests := ledger.requests.sound
  have lockRequests := ledger.lockRequests.sound
  have states := ledger.states.sound
  have ⟨⟨ticket, client, announcing, full⟩, other, waits⟩ := standstill
  cases move with
  | passes after => exact standstill.keep rfl rfl (fun _ => id) (fun _ => id) (fun _ => id)
  | yields line => exact standstill.keep rfl rfl (fun _ => id) (fun _ => id) (fun _ => id)
  | asks request =>
    exact standstill.keep rfl rfl (fun _ => id) (fun _ => id)
      (fun _ stuck => stuck.publish requests request)
  | asksLock request =>
    exact standstill.keep rfl rfl (fun _ => id)
      (fun _ stuck => stuck.publish lockRequests request) (fun _ => id)
  | @goesOn wait foreign =>
    refine standstill.keep rfl rfl ?_ ?_ ?_
    · intro _ stuck
      cases wait with
      | state other => exact stuck.resume states other
      | _ => exact stuck
    · intro _ stuck
      cases wait with
      | lockRequest other => exact stuck.resume lockRequests other
      | _ => exact stuck
    · intro _ stuck
      cases wait with
      | request other => exact stuck.resume requests other
      | _ => exact stuck
  | listens elsewhere =>
    exact standstill.keep rfl rfl (fun _ stuck => stuck.elsewhere elsewhere) (fun _ => id)
      (fun _ => id)
  | stirs undisturbed =>
    refine standstill.keep rfl rfl ?_ ?_ ?_
    · exact fun _ stuck => undisturbed.states_eq ▸ stuck
    · exact fun _ stuck => undisturbed.lockRequests_eq ▸ stuck
    · exact fun _ stuck => undisturbed.requests_eq ▸ stuck
  | arbiterTurns waiting turned =>
    rw [announcing] at waiting
    cases waiting
  | arbiterGoesOn _ stepped =>
    have stuck : x.hub.canProceed (.state ticket) = false := full.not_canResume states
    simp [Arbiter.step?, announcing, stuck] at stepped
  | bridgeTurns waiting turned =>
    rcases waits with ⟨relaying, -⟩ | ⟨relaying, -⟩
    · rw [relaying] at waiting
      cases waiting
    · rw [relaying] at waiting
      cases waiting
  | bridgeGoesOn _ stepped =>
    rcases waits with ⟨relaying, stuck⟩ | ⟨relaying, stuck⟩
    · have stuck : x.hub.canProceed (.lockRequest other) = false :=
        stuck.not_canResume lockRequests
      simp [Bridge.step?, relaying, stuck] at stepped
    · have stuck : x.hub.canProceed (.request other) = false := stuck.not_canResume requests
      simp [Bridge.step?, relaying, stuck] at stepped

/-- There is no way out of a standstill. -/
theorem standstill_lasts {lockTimeout : Span} (reached : Reachable capacity lockTimeout x)
    (standstill : x.Standstill) (later : Relation.ReflTransGen Move x y) : y.Standstill := by
  have both : Reachable capacity lockTimeout y ∧ y.Standstill := by
    induction later with
    | refl => exact ⟨reached, standstill⟩
    | tail _ move inductionHypothesis =>
      rcases inductionHypothesis with ⟨reached, standstill⟩
      exact ⟨reached.move move, standstill.move (ledger_of_reachable reached) move⟩
  exact both.2

/-! ## A run that comes to a standstill -/

section Run

variable {capacity : Nat} {lockTimeout backoff autoOff : Span} {topics : Feed.Topics}

/-- The exchange in which the arbiter has dealt with all that has been asked
for, and the bridge has not taken what was announced. -/
def untouched (capacity : Nat) (lockTimeout backoff autoOff : Span) (topics : Feed.Topics)
    (asked locked : Nat) (queue : List State) (arb : Arbitration) (now : Instant) : Exchange :=
  let x := start capacity 0 lockTimeout backoff autoOff topics
  { x with
    now := now
    hub := { x.hub with
      requests := sole capacity asked []
      lockRequests := sole capacity locked []
      states := sole capacity queue.length queue }
    arbiter := { x.arbiter with arb := arb } }

def announce (x : Exchange) (state : State) : Exchange :=
  { x with
    hub := { x.hub with states := (x.hub.states.publish state).2.2 }
    arbiter := { x.arbiter with
      phase := if (x.hub.states.publish state).2.1.isSome then x.arbiter.phase
        else .announcing (.state (x.hub.states.publish state).1) none } }

variable {asked locked : Nat} {queue : List State} {arb next : Arbitration}
  {answer : Arbitration.Answer} {state : State} {now : Instant}

/-- The exchange after the arbiter has dealt with an event and announced a state. -/
def settled (x : Exchange) (hub : Hub) (next : Arbitration) (state : State) : Exchange :=
  announce { x with hub := hub, arbiter := { x.arbiter with arb := next } } state

/-- The arbiter deals with what nobody waits to hear about. -/
theorem deal_eq_settled (x : Exchange) {event : ArbiterEvent} (anonymous : event.client = none)
    (performs : Arbitration.Performs x.arbiter.arb (Arbitration.eventOf x.now event) answer next)
    (announced : next.announcement answer = some state) :
    ∃ log, x.arbiter.deal x.now x.hub event =
      ((x.settled x.hub next state).arbiter, (x.settled x.hub next state).hub, log) := by
  have judged := x.arbiter.arb.judge_eq_perform x.now event
  rw [Arbitration.perform_eq_some_iff.mpr performs, Option.map_some, announced,
    Option.map_eq_some_iff] at judged
  rcases judged with ⟨verdict, judged, same⟩
  rcases Prod.mk.inj same with ⟨announces, leaves⟩
  have unheard : Arbiter.report x.hub event.client verdict.told = (x.hub, []) := by
    rw [anonymous]
    rfl
  refine ⟨verdict.log, ?_⟩
  simp only [Arbiter.deal, judged, unheard, announces, leaves, Hub.publishState, Hub.waitOf,
    settled, announce]
  cases (x.hub.states.publish state).2.1 with
  | some served => simp
  | none => simp [anonymous, Hub.hold]

/-- A client asks for a state, and the arbiter announces one. -/
theorem Reachable.announcesRequest {x : Exchange} (reached : Reachable capacity lockTimeout x)
    (waiting : x.arbiter.phase = .waiting) (listens : x.arbiter.requests = 1)
    (idle : x.hub.requests = sole capacity asked []) {request : Request}
    (anonymous : request.reply = none)
    (performs : Arbitration.Performs x.arbiter.arb (.request request.state request.origin) answer
      next)
    (announced : next.announcement answer = some state) :
    Reachable capacity lockTimeout
      (x.settled { x.hub with requests := sole capacity (asked + 1) [] } next state) := by
  have asks := reached.move (.asks request)
  have published : (x.hub.publishRequest request).2 =
      { x.hub with requests := sole capacity (asked + 1) [request] } := by
    rw [Hub.publishRequest, idle, Topic.sole_publish_empty]
  rw [published] at asks
  obtain ⟨log, dealt⟩ := deal_eq_settled
    { x with hub := { x.hub with requests := sole capacity (asked + 1) [] } }
    (show (ArbiterEvent.request request).client = none from anonymous) performs announced
  have received : (sole capacity (asked + 1) [request]).receive? x.arbiter.requests =
      some (request, sole capacity (asked + 1) []) := by
    rw [listens]
    exact Topic.sole_receive _ _ _ _
  refine asks.move (@Move.arbiterTurns _ .request _ _ log waiting ?_)
  simp only [Arbiter.turn?, received]
  exact congrArg some dealt

/-- A client asks for an interlock, and the arbiter announces a state. -/
theorem Reachable.announcesLock {x : Exchange} (reached : Reachable capacity lockTimeout x)
    (waiting : x.arbiter.phase = .waiting) (listens : x.arbiter.lockRequests = 1)
    (idle : x.hub.lockRequests = sole capacity asked []) {request : LockRequest}
    (anonymous : request.reply = none)
    (performs : Arbitration.Performs x.arbiter.arb
      (.changeLock request.lock request.active request.origin x.now) answer next)
    (announced : next.announcement answer = some state) :
    Reachable capacity lockTimeout
      (x.settled { x.hub with lockRequests := sole capacity (asked + 1) [] } next state) := by
  have asks := reached.move (.asksLock request)
  have published : (x.hub.publishLockRequest request).2 =
      { x.hub with lockRequests := sole capacity (asked + 1) [request] } := by
    rw [Hub.publishLockRequest, idle, Topic.sole_publish_empty]
  rw [published] at asks
  obtain ⟨log, dealt⟩ := deal_eq_settled
    { x with hub := { x.hub with lockRequests := sole capacity (asked + 1) [] } }
    (show (ArbiterEvent.lock request).client = none from anonymous) performs announced
  have received : (sole capacity (asked + 1) [request]).receive? x.arbiter.lockRequests =
      some (request, sole capacity (asked + 1) []) := by
    rw [listens]
    exact Topic.sole_receive _ _ _ _
  refine asks.move (@Move.arbiterTurns _ .lock _ _ log waiting ?_)
  simp only [Arbiter.turn?, received]
  exact congrArg some dealt

/-- Time passes until an interlock expires, and the arbiter announces a state. -/
theorem Reachable.announcesExpiry {x : Exchange} (reached : Reachable capacity lockTimeout x)
    (waiting : x.arbiter.phase = .waiting) {later : Instant} (after : x.now ≤ later)
    (due : Instant.due x.arbiter.arb.firstDeadline later)
    (performs : Arbitration.Performs x.arbiter.arb (.expire later) answer next)
    (announced : next.announcement answer = some state) :
    Reachable capacity lockTimeout
      (({ x with now := later } : Exchange).settled x.hub next state) := by
  obtain ⟨log, dealt⟩ := deal_eq_settled { x with now := later }
    (show ArbiterEvent.deadline.client = none from rfl) performs announced
  refine (reached.move (.passes after)).move (@Move.arbiterTurns _ .deadline _ _ log waiting ?_)
  simp only [Arbiter.turn?, due, if_true]
  exact congrArg some dealt

/-- What is announced to a bridge that takes nothing stays in its queue. -/
theorem announce_untouched (room : queue.length < max capacity 1) :
    (untouched capacity lockTimeout backoff autoOff topics asked locked queue arb now).announce
        state =
      untouched capacity lockTimeout backoff autoOff topics asked locked (queue ++ [state]) arb
        now := by
  have published : (untouched capacity lockTimeout backoff autoOff topics asked locked queue arb
      now).hub.states.publish state =
        (queue.length, some 1, sole capacity (queue.length + 1) (queue ++ [state])) :=
    Topic.sole_publish room state
  rw [announce, published]
  simp [untouched]

/-- The arbitration after so many changes of the laser interlock, each second
one an expiry, with the shut state as the canonical one. -/
def alternating (lockTimeout : Span) (changes : Nat) : Arbitration :=
  if changes % 2 = 0 then ⟨lockTimeout, some .shut, .none, ⟨none, none⟩⟩
  else ⟨lockTimeout, some .shut, ⟨true, false⟩,
    ⟨some (changes / 2 * lockTimeout + lockTimeout), none⟩⟩

theorem expires_laser (lockTimeout : Span) (deadline : Instant) :
    Arbitration.Performs ⟨lockTimeout, some .shut, ⟨true, false⟩, ⟨some deadline, none⟩⟩
      (.expire deadline) (.expired [.laser]) ⟨lockTimeout, some .shut, .none, ⟨none, none⟩⟩ := by
  have expiry : Arbitration.expire
      ⟨lockTimeout, some .shut, ⟨true, false⟩, ⟨some deadline, none⟩⟩ deadline =
        ([.laser], ⟨lockTimeout, some .shut, .none, ⟨none, none⟩⟩) := by
    simp [Arbitration.expire, Arbitration.expireOne, Arbitration.expired, Lock.all, PerLock.get,
      PerLock.set, Locks.set, Locks.none, Instant.due]
  have performs := @Arbitration.Performs.expires
    ⟨lockTimeout, some .shut, ⟨true, false⟩, ⟨some deadline, none⟩⟩ deadline
  rw [expiry] at performs
  exact performs

/-- One more change of the laser interlock is announced. -/
theorem Reachable.changes {changes : Nat}
    (held : (changes / 2 + 1) * lockTimeout < Instant.limit)
    (reached : Reachable capacity lockTimeout
      (untouched capacity lockTimeout backoff autoOff topics 1 ((changes + 1) / 2) queue
        (alternating lockTimeout changes) (changes / 2 * lockTimeout))) :
    ∃ state, Reachable capacity lockTimeout
      ((untouched capacity lockTimeout backoff autoOff topics 1 ((changes + 2) / 2) queue
        (alternating lockTimeout (changes + 1))
        ((changes + 1) / 2 * lockTimeout)).announce state) := by
  by_cases even : changes % 2 = 0
  · -- The interlock is set.
    have odd : ¬ (changes + 1) % 2 = 0 := by omega
    have rounds : (changes + 1) / 2 = changes / 2 := by omega
    have next : (changes + 2) / 2 = changes / 2 + 1 := by omega
    have performs : Arbitration.Performs (alternating lockTimeout changes)
        (.changeLock .laser true .local (changes / 2 * lockTimeout)) (.locks ⟨true, false⟩)
        (alternating lockTimeout (changes + 1)) := by
      rw [alternating, if_pos even, alternating, if_neg odd, rounds]
      rw [Nat.succ_mul] at held
      exact .sets held
    have announced : (alternating lockTimeout (changes + 1)).announcement
        (.locks ⟨true, false⟩) = some (State.shut.withLocks ⟨true, false⟩) := by
      rw [alternating, if_neg odd]
      rfl
    refine ⟨State.shut.withLocks ⟨true, false⟩, ?_⟩
    rw [rounds] at reached
    rw [rounds, next]
    exact @Reachable.announcesLock _ _ _ _ _ _ _ reached rfl rfl rfl
      ⟨.laser, true, .local, none⟩ rfl performs announced
  · -- The interlock expires.
    have odd : (changes + 1) % 2 = 0 := by omega
    have rounds : (changes + 1) / 2 = changes / 2 + 1 := by omega
    have next : (changes + 2) / 2 = (changes + 1) / 2 := by omega
    have performs : Arbitration.Performs (alternating lockTimeout changes)
        (.expire (changes / 2 * lockTimeout + lockTimeout)) (.expired [.laser])
        (alternating lockTimeout (changes + 1)) := by
      rw [alternating, if_neg even, alternating, if_pos odd]
      exact expires_laser lockTimeout _
    have due : Instant.due (alternating lockTimeout changes).firstDeadline
        (changes / 2 * lockTimeout + lockTimeout) := by
      rw [alternating, if_neg even]
      exact decide_eq_true (Nat.le_refl _)
    have announced : (alternating lockTimeout (changes + 1)).announcement
        (.expired [.laser]) = some State.shut := by
      rw [alternating, if_pos odd]
      rfl
    refine ⟨State.shut, ?_⟩
    rw [rounds] at reached
    rw [next, rounds, Nat.succ_mul]
    exact reached.announcesExpiry rfl (Nat.le_add_right _ _) due performs announced

/-- As long as there is room for it, a first state is announced and then every
change of the laser interlock. -/
theorem exists_changed (changes : Nat) (room : changes < max capacity 1)
    (held : (changes + 1) / 2 * lockTimeout < Instant.limit) :
    ∃ queue : List State, queue.length = changes + 1 ∧
      Reachable capacity lockTimeout
        (untouched capacity lockTimeout backoff autoOff topics 1 ((changes + 1) / 2) queue
          (alternating lockTimeout changes) (changes / 2 * lockTimeout)) := by
  induction changes with
  | zero =>
    have started : Reachable capacity lockTimeout
        (untouched capacity lockTimeout backoff autoOff topics 0 0 [] (.start lockTimeout) 0) :=
      .start 0 backoff autoOff topics
    have first : Reachable capacity lockTimeout
        ((untouched capacity lockTimeout backoff autoOff topics 1 0 [] (alternating lockTimeout 0)
          0).announce State.shut) :=
      @Reachable.announcesRequest _ _ _ _ _ _ _ started rfl rfl rfl ⟨State.shut, .local, none⟩
        rfl (.accepts rfl) rfl
    rw [announce_untouched room] at first
    refine ⟨[State.shut], rfl, ?_⟩
    rw [Nat.zero_div, Nat.zero_mul]
    exact first
  | succ changes inductionHypothesis =>
    have rounds : (changes + 1 + 1) / 2 = changes / 2 + 1 := by omega
    have fewer : (changes + 1) / 2 ≤ (changes + 1 + 1) / 2 := by omega
    obtain ⟨queue, length, reached⟩ := inductionHypothesis (Nat.lt_of_succ_lt room)
      (Nat.lt_of_le_of_lt (Nat.mul_le_mul_right _ fewer) held)
    rcases reached.changes (rounds ▸ held) with ⟨state, more⟩
    rw [announce_untouched (length ▸ room)] at more
    exact ⟨queue ++ [state], by rw [List.length_append, length, List.length_singleton], more⟩

/-- Clients ask for interlocks while the arbiter does not attend to them. -/
theorem Reachable.asksLocks {x : Exchange} (reached : Reachable capacity lockTimeout x)
    (idle : x.hub.lockRequests = sole capacity locked []) (asking : Nat)
    (room : asking ≤ max capacity 1) :
    ∃ crowd : List LockRequest, crowd.length = asking ∧
      Reachable capacity lockTimeout
        { x with hub := { x.hub with lockRequests := sole capacity (locked + asking) crowd } } := by
  induction asking with
  | zero => exact ⟨[], rfl, idle ▸ reached⟩
  | succ asking inductionHypothesis =>
    rcases inductionHypothesis (Nat.le_of_succ_le room) with ⟨crowd, length, asked⟩
    let request : LockRequest := ⟨.laser, true, .local, none⟩
    have more := asked.move (.asksLock request)
    rw [Hub.publishLockRequest, Topic.sole_publish (length ▸ room)] at more
    exact ⟨crowd ++ [request], by rw [List.length_append, length, List.length_singleton], more⟩

/-- The report that the laser cutter is in use, as the building sends it. -/
def inUse : List UInt8 := "\x7b\x22IsHot\x22:true\x7d".toUTF8.toList

theorem read_inUse (topics : Feed.Topics) :
    Feed.Event.read topics topics.laser inUse = .ok (some (.laser true)) := by
  have flag : Json.Document.ofBytes? inUse >>= Feed.flag? "IsHot" = some true := by
    decide +kernel
  unfold Feed.Event.read
  rw [if_pos rfl, Feed.Event.flagOf, flag]
  rfl

/-- A report of the laser cutter makes the bridge ask for an interlock, and wait
if there is no room. -/
theorem Reachable.bridgeWaits {x : Exchange} (reached : Reachable capacity lockTimeout x)
    (waiting : x.bridge.phase = .waiting) (connected : x.bridge.retry = none)
    (full : (x.hub.lockRequests.publish ⟨.laser, true, .local, none⟩).2.1 = none) :
    Reachable capacity lockTimeout
      { x with
        line := ⟨[], false⟩
        bridge := { x.bridge with
          phase := .relaying
            (.lockRequest (x.hub.lockRequests.publish ⟨.laser, true, .local, none⟩).1) }
        hub := { x.hub with
          lockRequests := (x.hub.lockRequests.publish ⟨.laser, true, .local, none⟩).2.2 } } := by
  have demanded : x.bridge.demand x.hub (some (.lock true)) =
      ({ x.bridge with
          phase := .relaying
            (.lockRequest (x.hub.lockRequests.publish ⟨.laser, true, .local, none⟩).1) },
        { x.hub with
          lockRequests := (x.hub.lockRequests.publish ⟨.laser, true, .local, none⟩).2.2 }) := by
    simp [Bridge.demand, Feed.Relay.publish, Hub.publishLockRequest, Hub.waitOf, full]
  have received : x.bridge.receive x.now x.hub x.bridge.topics.laser inUse =
      x.bridge.demand x.hub (some (.lock true)) := by
    rw [Bridge.receive, read_inUse]
    rfl
  have ready : ¬ x.bridge.retry.isSome := by
    rw [connected]
    exact Bool.false_ne_true
  have reports := reached.move (.yields ⟨[.message x.bridge.topics.laser inUse], false⟩)
  refine reports.move (@Move.bridgeTurns _ .outcome _ _ _ [] waiting ?_)
  simp only [Bridge.turn?, if_neg ready, Line.next?, Option.bind_eq_bind, Option.bind_some,
    Bridge.take, received, demanded]
  rfl

/-- When the queue of the bridge is full, the arbiter waits. -/
theorem announce_waits {x : Exchange} {published : Nat}
    (crowded : x.hub.states = sole capacity published queue)
    (full : queue.length = max capacity 1) (state : State) :
    (x.announce state).arbiter.phase = .announcing (.state published) none ∧
      (x.announce state).hub.states.WaitsAt published 1 := by
  rcases @Topic.sole_publish_full _ capacity published queue full state with
    ⟨ticket, stuck, -, waits⟩
  unfold announce
  simp only [crowded, ticket, stuck]
  exact ⟨if_neg Bool.false_ne_true, waits⟩

/-- When a queue of the arbiter is full too, the bridge waits as well. -/
theorem Reachable.standsStill {x : Exchange} (reached : Reachable capacity lockTimeout x)
    (waiting : x.bridge.phase = .waiting) (connected : x.bridge.retry = none)
    {ticket : Nat} (announcing : x.arbiter.phase = .announcing (.state ticket) none)
    (stuck : x.hub.states.WaitsAt ticket x.bridge.states)
    (listens : x.arbiter.lockRequests = 1) {crowd : List LockRequest}
    (crowded : x.hub.lockRequests = sole capacity locked crowd)
    (full : crowd.length = max capacity 1) :
    ∃ y, Reachable capacity lockTimeout y ∧ y.Standstill ∧ y.asked = x.asked + 1 := by
  obtain ⟨same, noRoom, more, waits⟩ := @Topic.sole_publish_full _ capacity locked crowd full
    ⟨.laser, true, .local, none⟩
  rw [← crowded] at same noRoom more waits
  refine ⟨_, reached.bridgeWaits waiting connected noRoom,
    ⟨⟨ticket, none, announcing, stuck⟩, locked, .inl ⟨?_, ?_⟩⟩, ?_⟩
  · rw [same]
  · rw [listens]
    exact waits
  · have before : x.hub.lockRequests.nextTicket = locked := by rw [crowded]; rfl
    simp only [asked, more, before]
    rfl

/-- The shortest run to a standstill: a first state, changes of the laser
interlock until the queue of the bridge is full and one more is announced, as
many as the queue of the arbiter holds, and a report of the laser cutter. -/
theorem exists_standstill (capacity : Nat)
    (held : (max capacity 1 + 1) / 2 * lockTimeout < Instant.limit) :
    ∃ x, Reachable capacity lockTimeout x ∧ x.Standstill ∧
      x.asked = max capacity 1 + 2 + (max capacity 1 + 1) / 2 := by
  obtain ⟨changes, size⟩ : ∃ changes, max capacity 1 = changes + 1 :=
    ⟨max capacity 1 - 1, (Nat.sub_add_cancel (Nat.le_max_right _ _)).symm⟩
  have room : changes < max capacity 1 := size ▸ Nat.lt_succ_self changes
  have rounds : (changes + 1 + 1) / 2 = changes / 2 + 1 := by omega
  have fewer : (changes + 1) / 2 ≤ (changes + 1 + 1) / 2 := by omega
  rw [size] at held
  obtain ⟨queue, length, reached⟩ := @exists_changed capacity lockTimeout 0 0 .standard changes
    room (Nat.lt_of_le_of_lt (Nat.mul_le_mul_right _ fewer) held)
  rcases reached.changes (rounds ▸ held) with ⟨state, announcing⟩
  have filled : (untouched capacity lockTimeout 0 0 .standard 1 ((changes + 2) / 2) queue
      (alternating lockTimeout (changes + 1)) ((changes + 1) / 2 * lockTimeout)).hub.states =
        sole capacity queue.length queue := rfl
  rcases announce_waits filled (length.trans size.symm) state with ⟨phase, stuck⟩
  rcases announcing.asksLocks rfl (max capacity 1) (Nat.le_refl _) with ⟨crowd, full, crowded⟩
  obtain ⟨x, reachable, standstill, asked⟩ :=
    crowded.standsStill rfl rfl phase stuck rfl rfl full
  refine ⟨x, reachable, standstill, asked.trans ?_⟩
  change 1 + ((changes + 2) / 2 + max capacity 1) + 1 = _
  omega

end Run

/-- From how much on the arbiter and the bridge can come to a standstill, as
long as the clock can hold the deadlines on the way: a queue of the arbiter has
to be full and the bridge has to ask for one thing more; and a first state and
enough changes of interlocks have to be announced to fill the queue of the
bridge, one change with its expiry for two announcements, and one more. -/
theorem standstill_reachable_iff (capacity : Nat) (lockTimeout : Span) (count : Nat)
    (held : (max capacity 1 + 1) / 2 * lockTimeout < Instant.limit) :
    (∃ x, Reachable capacity lockTimeout x ∧ x.Standstill ∧ x.asked = count) ↔
      max capacity 1 + 2 + (max capacity 1 + 1) / 2 ≤ count := by
  constructor
  · rintro ⟨x, reached, standstill, rfl⟩
    exact asked_of_standstill reached standstill
  · intro enough
    induction count, enough using Nat.le_induction with
    | base => exact exists_standstill capacity held
    | succ count enough inductionHypothesis =>
      rcases inductionHypothesis with ⟨x, reached, standstill, rfl⟩
      have asks : x.Move { x with hub := (x.hub.publishRequest ⟨.shut, .remote, none⟩).2 } :=
        .asks _
      have ledger := ledger_of_reachable reached
      exact ⟨_, reached.move asks, standstill.move ledger asks, ledger.asked_publishRequest _⟩

/-- With queues of one value and interlocks held for half an hour: a first
state, an interlock, another one that nobody attends to, and the bridge. -/
theorem standstill_reachable_after_four :
    (max 1 1 + 1) / 2 * Span.ofSeconds 1800 < Instant.limit ∧
      ∃ x, Reachable 1 (Span.ofSeconds 1800) x ∧ x.Standstill ∧ x.asked = 4 :=
  ⟨by decide, (standstill_reachable_iff 1 (Span.ofSeconds 1800) 4 (by decide)).mpr (by decide)⟩

end Exchange

end Server
end Ventilation
