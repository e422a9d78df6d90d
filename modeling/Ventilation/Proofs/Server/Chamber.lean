import Ventilation.Proofs.Server.Exchange
import Ventilation.Proofs.Server.House

namespace Ventilation
namespace Server

/-!
# Who listens to the arbiter

The chamber is the arbiter with the hub and someone who listens to the announced
states.  The arbiter is handed events of any kind at any instants, and the
observer takes what has come whenever it likes.  Around them, others listen as
well, and anything happens to the rest of the hub.

The docket says what the arbiter rules, and hence what it announces.  What the
chamber adds is that this is what happens at the topic: as many states are
published as the docket announces, and an observer gets those that are announced
after it has come, each once and in order.
-/

open Bus (Hub Topic)
open Bus.Topic (Attended Beside Elsewhere Listed boxOf)

/-- The arbiter, the hub, and an observer of the announced states. -/
structure Chamber where
  hub : Hub
  arbiter : Arbiter
  /-- What the arbiter has been handed, and when. -/
  dealt : List (Instant × ArbiterEvent)
  /-- The number under which the observer listens. -/
  observer : Nat
  /-- How many states had been announced when the observer came. -/
  since : Nat
  /-- What the observer has taken. -/
  taken : List State
  /-- The observer has not quit. -/
  listening : Bool

namespace Chamber

def start (capacity : Nat) (lockTimeout : Span) : Chamber :=
  let hub := Hub.empty capacity
  let (observer, states) := hub.states.subscribe
  let (arbiter, hub, _) := Arbiter.start lockTimeout { hub with states := states }
  ⟨hub, arbiter, [], observer, 0, [], true⟩

/-- What can happen without the observer. -/
inductive Around (x : Chamber) : Chamber → Prop
  | deals {now : Instant} {event : ArbiterEvent} {arbiter : Arbiter} {hub : Hub}
      {log : List LogLine} (waiting : x.arbiter.phase = .waiting)
      (dealt : x.arbiter.deal now x.hub event = (arbiter, hub, log)) :
      Around x { x with arbiter := arbiter, hub := hub, dealt := x.dealt ++ [(now, event)] }
  | goesOn {now : Instant} {wait : Hub.Wait} {client : Option Nat} {arbiter : Arbiter} {hub : Hub}
      {log : List LogLine} (announcing : x.arbiter.phase = .announcing wait client)
      (stepped : x.arbiter.step? now x.hub = some (arbiter, hub, log)) :
      Around x { x with arbiter := arbiter, hub := hub }
  | ends {hub : Hub} (waiting : x.arbiter.phase = .waiting) (same : hub.states = x.hub.states) :
      Around x { x with arbiter := { x.arbiter with phase := .ended }, hub := hub }
  | listens {states : Topic State} (elsewhere : Elsewhere x.observer x.hub.states states) :
      Around x { x with hub := { x.hub with states := states } }
  | stirs {hub : Hub} (same : hub.states = x.hub.states) : Around x { x with hub := hub }

/-- What can happen next.  An observer that comes takes the place of the one
before, who stays as one of the others. -/
inductive Move (x : Chamber) : Chamber → Prop
  | around {y : Chamber} (around : x.Around y) : Move x y
  | joins : Move x { x with
      hub := { x.hub with states := x.hub.states.subscribe.2 }
      observer := x.hub.states.subscribe.1
      since := x.hub.states.nextTicket
      taken := []
      listening := true }
  | takes {state : State} {states : Topic State}
      (received : x.hub.states.receive? x.observer = some (state, states)) :
      Move x { x with hub := { x.hub with states := states }, taken := x.taken ++ [state] }
  | quits : Move x { x with
      hub := { x.hub with states := x.hub.states.unsubscribe x.observer }
      listening := false }

inductive Reachable (capacity : Nat) (lockTimeout : Span) : Chamber → Prop
  | start : Reachable capacity lockTimeout (start capacity lockTimeout)
  | move {x y : Chamber} (reached : Reachable capacity lockTimeout x) (move : x.Move y) :
      Reachable capacity lockTimeout y

end Chamber

/-! ## What the arbiter does with an event -/

/-- What becomes of the arbiter and of the hub when it follows a verdict: it
publishes what is announced, and nothing else changes at the announced states. -/
inductive Rules (arbiter : Arbiter) (hub : Hub) (verdict : Verdict) : Arbiter → Hub → Prop
  | silent {next : Hub} (nothing : verdict.announced = none) (same : next.states = hub.states) :
      Rules arbiter hub verdict { arbiter with arb := verdict.arb } next
  | speaks {next : Hub} {state : State} {client : Option Nat}
      (announces : verdict.announced = some state)
      (published : next.states = (hub.states.publish state).2.2) :
      Rules arbiter hub verdict
        { arbiter with
          arb := verdict.arb
          phase := if (hub.states.publish state).2.1.isSome then arbiter.phase
            else .announcing (.state hub.states.nextTicket) client } next

section Deals

variable {arbiter after : Arbiter} {hub next : Hub} {now : Instant} {log : List LogLine}
  {event : ArbiterEvent} {verdict : Verdict}

theorem rules_of_deal (judged : arbiter.arb.judge now event = some verdict)
    (dealt : arbiter.deal now hub event = (after, next, log)) :
    Rules arbiter hub verdict after next := by
  have quiet := Undisturbed.report hub event.client verdict.told
  unfold Arbiter.deal at dealt
  simp only [judged] at dealt
  cases announced : verdict.announced with
  | none =>
    simp only [announced, Prod.mk.injEq] at dealt
    rcases dealt with ⟨rfl, rfl, -⟩
    exact .silent announced quiet.states_eq
  | some state =>
    simp only [announced, Hub.publishState, Hub.waitOf, quiet.states_eq] at dealt
    cases ended : (hub.states.publish state).2.1 with
    | none =>
      simp only [ended, Option.isSome_none, Bool.false_eq_true, if_false, Prod.mk.injEq] at dealt
      rcases dealt with ⟨rfl, rfl, -⟩
      have speaks := @Rules.speaks arbiter hub verdict
        (Hub.hold { (Arbiter.report hub event.client verdict.told).1 with
          states := (hub.states.publish state).2.2 } event.client) state event.client announced rfl
      rw [ended] at speaks
      exact speaks
    | some served =>
      simp only [ended, Option.isSome_some, if_true, Prod.mk.injEq] at dealt
      rcases dealt with ⟨rfl, rfl, -⟩
      have speaks := @Rules.speaks arbiter hub verdict
        { (Arbiter.report hub event.client verdict.told).1 with
          states := (hub.states.publish state).2.2 } state event.client announced rfl
      rw [ended] at speaks
      exact speaks

theorem deal_of_unjudged (unjudged : arbiter.arb.judge now event = none) :
    arbiter.deal now hub event = ({ arbiter with phase := .crashed }, hub, []) := by
  unfold Arbiter.deal
  rw [unjudged]

end Deals

namespace Chamber

variable {capacity : Nat} {lockTimeout : Span} {x y : Chamber}

theorem Reachable.later (reached : Reachable capacity lockTimeout x)
    (later : Relation.ReflTransGen Move x y) : Reachable capacity lockTimeout y := by
  induction later with
  | refl => exact reached
  | tail _ move inductionHypothesis => exact inductionHypothesis.move move

/-- Nothing happens to the observer without it. -/
theorem Around.observer_eq (around : x.Around y) :
    y.observer = x.observer ∧ y.since = x.since ∧ y.taken = x.taken ∧
      y.listening = x.listening := by
  cases around <;> exact ⟨rfl, rfl, rfl, rfl⟩

/-- A step of the arbiter itself is among what can happen: it takes what it deals
with from the hub, or goes on with what it announces, or ends. -/
theorem exists_around_of_arbiter {now : Instant} {arbiter : Arbiter} {hub : Hub}
    {log : List LogLine} (stepped : x.arbiter.step? now x.hub = some (arbiter, hub, log)) :
    ∃ dealt, Relation.ReflTransGen Around x
      { x with arbiter := arbiter, hub := hub, dealt := dealt } := by
  have deals : ∀ {taken : Hub} {event : ArbiterEvent}, x.arbiter.phase = .waiting →
      x.arbiter.deal now taken event = (arbiter, hub, log) → taken.states = x.hub.states →
      ∃ dealt, Relation.ReflTransGen Around x
        { x with arbiter := arbiter, hub := hub, dealt := dealt } := by
    intro taken event waiting dealt same
    let taking : Chamber := { x with hub := taken }
    have first : x.Around taking := .stirs same
    have second : taking.Around
        { x with arbiter := arbiter, hub := hub, dealt := x.dealt ++ [(now, event)] } :=
      .deals waiting dealt
    exact ⟨_, (Relation.ReflTransGen.single first).tail second⟩
  cases phase : x.arbiter.phase with
  | waiting =>
    simp only [Arbiter.step?, phase] at stepped
    rcases List.exists_of_findSome?_eq_some stepped with ⟨branch, -, turned⟩
    cases branch with
    | shutdown =>
      simp only [Arbiter.turn?, Option.bind_eq_bind, Option.bind_eq_some_iff, Option.pure_def,
        Option.some.injEq, Prod.mk.injEq] at turned
      rcases turned with ⟨closed, signalled, rfl, rfl, -⟩
      have same := (Undisturbed.takeShutdown? signalled).states_eq
      exact ⟨x.dealt, .single (.ends phase same)⟩
    | request | lock =>
      simp only [Arbiter.turn?, Option.bind_eq_bind, Option.bind_eq_some_iff, Option.pure_def,
        Option.some.injEq] at turned
      rcases turned with ⟨⟨request, requests⟩, -, dealt⟩
      exact deals phase dealt rfl
    | deadline =>
      simp only [Arbiter.turn?, Option.ite_none_right_eq_some, Option.some.injEq] at turned
      exact deals phase turned.2 rfl
  | announcing wait client => exact ⟨x.dealt, .single (.goesOn phase stepped)⟩
  | ended => simp [Arbiter.step?, phase] at stepped
  | crashed => simp [Arbiter.step?, phase] at stepped

/-! ## What the observer gets -/

def cases (x : Chamber) (lockTimeout : Span) : List Case :=
  (Arbitration.start lockTimeout).docket x.dealt

def announcements (x : Chamber) (lockTimeout : Span) : List State :=
  Case.announcements (x.cases lockTimeout)

/-- The arbiter has a case for everything that it has been handed, except for an
activation that has made it crash. -/
inductive Docketed (x : Chamber) (lockTimeout : Span) : Prop
  | whole (alive : x.arbiter.phase ≠ .crashed)
      (entries : (x.cases lockTimeout).map Case.entry = x.dealt)
  | crashed {now : Instant} {r : Bus.LockRequest} (dead : x.arbiter.phase = .crashed)
      (entries : (x.cases lockTimeout).map Case.entry ++ [(now, .lock r)] = x.dealt)
      (activates : r.active = true ∧ r.origin = .local)
      (late : Instant.limit ≤ now + lockTimeout)

theorem Docketed.carry (docketed : x.Docketed lockTimeout) (dealt : y.dealt = x.dealt)
    (crashed : y.arbiter.phase = .crashed ↔ x.arbiter.phase = .crashed) :
    y.Docketed lockTimeout := by
  have same : y.cases lockTimeout = x.cases lockTimeout := by rw [cases, dealt, cases]
  cases docketed with
  | whole alive entries => exact .whole (mt crashed.mp alive) (by rw [same, entries, dealt])
  | crashed dead entries activates late =>
    exact .crashed (crashed.mpr dead) (by rw [same, entries, dealt]) activates late

/-- The docket decides what the arbiter knows, what has been published, and what
the observer has taken or is still to get. -/
structure Kept (x : Chamber) (lockTimeout : Span) : Prop where
  attended : x.hub.states.Attended (announced x.arbiter.phase)
  announcing : ∀ wait client, x.arbiter.phase = .announcing wait client →
    ∃ ticket, wait = .state ticket
  docketed : x.Docketed lockTimeout
  known : x.arbiter.arb = (Arbitration.start lockTimeout).closing (x.cases lockTimeout)
  published : x.hub.states.nextTicket = (x.announcements lockTimeout).length
  old : x.observer < x.hub.states.nextId
  early : x.since ≤ (x.announcements lockTimeout).length
  present : (boxOf x.hub.states.boxes x.observer).isSome = x.listening
  heard : ∃ rest, x.taken ++ rest = (x.announcements lockTimeout).drop x.since ∧
    (x.listening = true → rest = x.hub.states.coming x.observer)

/-! ### What becomes of the topic -/

/-- Someone who listens to a topic keeps listening, and some values more are on
their way to it. -/
structure Heard (id : Nat) (before after : Topic State) (news : List State) : Prop where
  published : after.nextTicket = before.nextTicket + news.length
  old : before.nextId ≤ after.nextId
  live : (boxOf after.boxes id).isSome = (boxOf before.boxes id).isSome
  coming : (boxOf before.boxes id).isSome = true → after.coming id = before.coming id ++ news

namespace Heard

variable {id : Nat} {topic next : Topic State}

theorem still (topic : Topic State) (id : Nat) : Heard id topic topic [] :=
  ⟨rfl, Nat.le_refl _, rfl, fun _ => (List.append_nil _).symm⟩

theorem publish (attended : topic.Attended none) (state : State) :
    Heard id topic (topic.publish state).2.2 [state] := by
  rcases attended.publish state with ⟨-, nextId, live, coming⟩
  refine ⟨(topic.publish_frame state).2.2, nextId.ge, live id, fun present => ?_⟩
  rcases Option.isSome_iff_exists.mp present with ⟨box, here⟩
  exact coming id box here

theorem resume {ticket : Nat} (attended : topic.Attended (some ticket)) :
    Heard id topic (topic.resume ticket).2 [] := by
  rcases attended.resume with ⟨-, onward⟩
  refine ⟨(topic.resume_frame ticket).2.2, onward.nextId_eq.ge, onward.live_iff id,
    fun present => ?_⟩
  rcases Option.isSome_iff_exists.mp present with ⟨box, here⟩
  rw [onward.coming_eq id box here, List.append_nil]

theorem elsewhere {waiting : Option Nat} (attended : topic.Attended waiting)
    (old : id < topic.nextId) (elsewhere : Elsewhere id topic next) : Heard id topic next [] := by
  have beside := Beside.of_elsewhere elsewhere attended.orderly.toListed
  refine ⟨beside.nextTicket_eq, beside.nextId_le, ?_, fun _ => ?_⟩
  · rw [beside.box_eq old]
  · rw [beside.coming_eq old, List.append_nil]

end Heard

namespace Kept

/-- Whatever happens while the observer stays where it is: the docket announces
some more states, and these are published. -/
theorem carry (kept : x.Kept lockTimeout) {news : List State}
    (attended : y.hub.states.Attended (announced y.arbiter.phase))
    (announcing : ∀ wait client, y.arbiter.phase = .announcing wait client →
      ∃ ticket, wait = .state ticket)
    (docketed : y.Docketed lockTimeout)
    (known : y.arbiter.arb = (Arbitration.start lockTimeout).closing (y.cases lockTimeout))
    (announcements : y.announcements lockTimeout = x.announcements lockTimeout ++ news)
    (same : y.observer = x.observer ∧ y.since = x.since ∧ y.taken = x.taken ∧
      y.listening = x.listening)
    (heard : Heard x.observer x.hub.states y.hub.states news) : y.Kept lockTimeout := by
  rcases same with ⟨observer, since, taken, listening⟩
  rcases kept.heard with ⟨rest, whole, listened⟩
  have early := kept.early
  refine ⟨attended, announcing, docketed, known, ?_, ?_, ?_, ?_, rest ++ news, ?_, ?_⟩
  · rw [heard.published, announcements, kept.published, List.length_append]
  · rw [observer]
    exact Nat.lt_of_lt_of_le kept.old heard.old
  · rw [since, announcements, List.length_append]
    exact Nat.le_add_right_of_le early
  · rw [observer, heard.live, kept.present, listening]
  · rw [taken, since, announcements, List.drop_append_of_le_length early, ← whole,
      List.append_assoc]
  · intro still
    have before := listening.symm.trans still
    rw [observer, heard.coming (kept.present.trans before), listened before]

/-- The arbiter is not handed anything, and learns and announces nothing. -/
theorem rest (kept : x.Kept lockTimeout) (dealt : y.dealt = x.dealt)
    (arb : y.arbiter.arb = x.arbiter.arb)
    (crashed : y.arbiter.phase = .crashed ↔ x.arbiter.phase = .crashed)
    (attended : y.hub.states.Attended (announced y.arbiter.phase))
    (announcing : ∀ wait client, y.arbiter.phase = .announcing wait client →
      ∃ ticket, wait = .state ticket)
    (same : y.observer = x.observer ∧ y.since = x.since ∧ y.taken = x.taken ∧
      y.listening = x.listening)
    (heard : Heard x.observer x.hub.states y.hub.states []) : y.Kept lockTimeout := by
  have cases_eq : y.cases lockTimeout = x.cases lockTimeout := by rw [cases, dealt, cases]
  refine kept.carry attended announcing (kept.docketed.carry dealt crashed) ?_ ?_ same heard
  · rw [arb, cases_eq]
    exact kept.known
  · rw [announcements, cases_eq, List.append_nil, announcements]

theorem hub (kept : x.Kept lockTimeout) {hub : Hub}
    (attended : hub.states.Attended (announced x.arbiter.phase))
    (heard : Heard x.observer x.hub.states hub.states []) :
    Kept { x with hub := hub } lockTimeout :=
  kept.rest rfl rfl Iff.rfl attended kept.announcing ⟨rfl, rfl, rfl, rfl⟩ heard

section Deals

variable {now : Instant} {event : ArbiterEvent} {arbiter : Arbiter} {hub : Hub}
  {log : List LogLine}

/-- There is no verdict on an event, and nothing changes but the phase. -/
theorem crash (kept : x.Kept lockTimeout) (waiting : x.arbiter.phase = .waiting)
    (unjudged : x.arbiter.arb.judge now event = none) :
    Kept { x with
      arbiter := { x.arbiter with phase := .crashed }
      dealt := x.dealt ++ [(now, event)] } lockTimeout := by
  rw [kept.known] at unjudged
  have same := Arbitration.docket_concat_of_unjudged unjudged
  have attended := kept.attended
  rw [waiting] at attended
  refine kept.carry attended nofun ?_ ?_ ?_ ⟨rfl, rfl, rfl, rfl⟩ (Heard.still _ _)
  · cases kept.docketed with
    | crashed dead => cases waiting.symm.trans dead
    | whole alive entries =>
      rcases Arbitration.judge_eq_none_iff.mp unjudged with ⟨r, rfl, active, trusted, late⟩
      have span : ((Arbitration.start lockTimeout).closing (x.cases lockTimeout)).lockTimeout =
          lockTimeout :=
        @Arbitration.closing_docket_kept _ (fun arb => arb.lockTimeout = lockTimeout)
          (fun _ _ _ _ performs held => performs.lockTimeout_eq.trans held) x.dealt rfl
      refine .crashed rfl ?_ ⟨active, trusted⟩ (span ▸ late)
      rw [cases, same]
      exact congrArg (· ++ [(now, ArbiterEvent.lock r)]) entries
  · rw [cases, same]
    exact kept.known
  · rw [announcements, cases, same, List.append_nil]
    rfl

theorem deals (kept : x.Kept lockTimeout) (waiting : x.arbiter.phase = .waiting)
    (dealt : x.arbiter.deal now x.hub event = (arbiter, hub, log)) :
    Kept { x with arbiter := arbiter, hub := hub, dealt := x.dealt ++ [(now, event)] }
      lockTimeout := by
  have attended := kept.attended
  rw [waiting] at attended
  cases judged : x.arbiter.arb.judge now event with
  | none =>
    rw [deal_of_unjudged judged] at dealt
    simp only [Prod.mk.injEq] at dealt
    rcases dealt with ⟨rfl, rfl, -⟩
    exact kept.crash waiting judged
  | some verdict =>
    have entries : (x.cases lockTimeout).map Case.entry = x.dealt := by
      cases kept.docketed with
      | whole alive entries => exact entries
      | crashed dead => cases waiting.symm.trans dead
    have known := kept.known ▸ judged
    rcases Arbitration.docket_concat entries known with ⟨case, more, entry, ruling⟩
    let after : Chamber :=
      { x with arbiter := arbiter, hub := hub, dealt := x.dealt ++ [(now, event)] }
    have cases_eq : after.cases lockTimeout = x.cases lockTimeout ++ [case] := more
    have news : after.announcements lockTimeout =
        x.announcements lockTimeout ++ verdict.announced.toList := by
      rw [announcements, cases_eq, Case.announcements_append, Case.announcements_cons, ruling]
      exact congrArg (_ ++ ·) (List.append_nil _)
    have closes : (Arbitration.start lockTimeout).closing (after.cases lockTimeout) =
        verdict.arb := by
      rw [cases_eq, Arbitration.closing_concat, ruling]
    have whole : (after.cases lockTimeout).map Case.entry = after.dealt := by
      rw [cases_eq, List.map_append, List.map_singleton, entry, entries]
    cases rules_of_deal judged dealt with
    | silent nothing same =>
      rw [nothing] at news
      refine kept.carry ?_ ?_ (.whole ?_ whole) closes.symm news ⟨rfl, rfl, rfl, rfl⟩ ?_
      · simp only [same, waiting]
        exact attended
      · intro wait client announcing
        cases waiting.symm.trans announcing
      · simp [waiting]
      · simp only [same]
        exact Heard.still _ _
    | speaks announces published =>
      rw [announces] at news
      refine kept.carry ?_ ?_ (.whole ?_ whole) closes.symm news ⟨rfl, rfl, rfl, rfl⟩ ?_
      · simp only [published, waiting, announced_ite]
        exact (attended.publish _).1
      · intro wait client announcing
        simp only [waiting] at announcing
        split at announcing
        · cases announcing
        · cases announcing
          exact ⟨_, rfl⟩
      · simp only [waiting]
        split
        · nofun
        · nofun
      · simp only [published]
        exact Heard.publish attended _

end Deals

theorem around (kept : x.Kept lockTimeout) (around : x.Around y) : y.Kept lockTimeout := by
  have attended := kept.attended
  cases around with
  | deals waiting dealt => exact kept.deals waiting dealt
  | @goesOn _ wait client _ hub _ announcing stepped =>
    rcases kept.announcing wait client announcing with ⟨ticket, rfl⟩
    rcases arbiter_goesOn announcing stepped with ⟨outlook, rfl⟩
    have states : hub.states = (x.hub.states.resume ticket).2 :=
      congrArg Bus.View.states outlook
    rw [announcing] at attended
    refine kept.rest rfl rfl ?_ ?_ ?_ ⟨rfl, rfl, rfl, rfl⟩ ?_
    · simp only [announcing]
      split
      · simp
      · simp
    · simp only [states, announced_ite]
      exact attended.resume.1
    · intro wait client goes
      simp only at goes
      split at goes
      · cases goes
      · cases goes
        exact ⟨ticket, rfl⟩
    · simp only [states]
      exact Heard.resume attended
  | ends waiting same =>
    rw [waiting] at attended
    refine kept.rest rfl rfl ?_ ?_ nofun ⟨rfl, rfl, rfl, rfl⟩ ?_
    · simp [waiting]
    · simp only [same]
      exact attended
    · simp only [same]
      exact Heard.still _ _
  | listens elsewhere =>
    exact kept.hub (attended.elsewhere elsewhere) (Heard.elsewhere attended kept.old elsewhere)
  | stirs same =>
    refine kept.hub ?_ ?_
    · rw [same]
      exact attended
    · rw [same]
      exact Heard.still _ _

theorem move (kept : x.Kept lockTimeout) (move : x.Move y) : y.Kept lockTimeout := by
  have attended := kept.attended
  have listed := attended.orderly.toListed
  cases move with
  | around around => exact kept.around around
  | joins =>
    refine { kept with
      attended := attended.subscribe
      old := Nat.lt_succ_self _
      early := kept.published.le
      present := ?_
      heard := ⟨[], ?_, fun _ => (listed.coming_subscribe_new).symm⟩
      docketed := kept.docketed.carry rfl Iff.rfl }
    · exact congrArg Option.isSome ((listed.boxOf_subscribe _).trans (if_pos rfl))
    · exact (List.drop_eq_nil_of_le kept.published.ge).symm
  | @takes state states received =>
    rcases kept.heard with ⟨rest, whole, listened⟩
    rcases Topic.receive?_eq_some received with ⟨box, queue, here, -, same⟩
    have live : (boxOf x.hub.states.boxes x.observer).isSome = true := by rw [here]; rfl
    have rest_eq := listened (kept.present.symm.trans live)
    rw [Topic.coming_receive received] at rest_eq
    have frame := Topic.receive?_frame received
    have stays : (boxOf states.boxes x.observer).isSome = true := by
      have boxes := Topic.boxOf_requeued here queue x.observer
      rw [if_pos rfl] at boxes
      rw [same]
      exact congrArg Option.isSome boxes
    refine { kept with
      attended := attended.receive? received
      published := frame.2.2.trans kept.published
      old := frame.2.1.symm ▸ kept.old
      present := stays.trans (live.symm.trans kept.present)
      heard := ⟨states.coming x.observer, ?_, fun _ => rfl⟩
      docketed := kept.docketed.carry rfl Iff.rfl }
    rw [List.append_assoc, List.singleton_append, ← rest_eq]
    exact whole
  | quits =>
    rcases kept.heard with ⟨rest, whole, -⟩
    refine { kept with
      attended := attended.unsubscribe _
      present := ?_
      heard := ⟨rest, whole, nofun⟩
      docketed := kept.docketed.carry rfl Iff.rfl }
    have gone : boxOf (x.hub.states.unsubscribe x.observer).boxes x.observer = none :=
      (Topic.boxOf_drop x.hub.states x.observer x.observer).trans (if_pos rfl)
    exact congrArg Option.isSome gone

theorem start (capacity : Nat) (lockTimeout : Span) :
    (start capacity lockTimeout).Kept lockTimeout := by
  have empty := Topic.orderly_empty (α := State) capacity
  refine ⟨⟨empty.subscribe, nofun⟩, nofun, .whole nofun rfl, rfl, rfl, Nat.lt_succ_self _,
    Nat.le_refl _, rfl, [], rfl, fun _ => (empty.toListed.coming_subscribe_new).symm⟩

end Kept

theorem Reachable.kept (reached : Reachable capacity lockTimeout x) : x.Kept lockTimeout := by
  induction reached with
  | start => exact .start capacity lockTimeout
  | move _ move inductionHypothesis => exact inductionHypothesis.move move

namespace Kept

theorem current (kept : x.Kept lockTimeout) :
    (x.announcements lockTimeout).getLast? = x.arbiter.arb.state := by
  have closes := (Arbitration.start lockTimeout).closing_docket_state x.dealt
  rw [kept.known, cases, closes]
  exact (Option.or_none).symm

/-- The last state that was announced since some time is the current one, if any
was or nothing had been announced before. -/
theorem current_since (kept : x.Kept lockTimeout)
    (some_since : x.since = 0 ∨ x.since < (x.announcements lockTimeout).length) :
    ((x.announcements lockTimeout).drop x.since).getLast? = x.arbiter.arb.state := by
  rw [← kept.current]
  rcases some_since with none_before | later
  · rw [none_before, List.drop_zero]
  · exact List.getLast?_drop.trans (if_neg (Nat.not_le_of_lt later))

theorem taken_append_coming (kept : x.Kept lockTimeout) (listening : x.listening = true) :
    x.taken ++ x.hub.states.coming x.observer =
      (x.announcements lockTimeout).drop x.since := by
  rcases kept.heard with ⟨rest, whole, listened⟩
  rw [← listened listening]
  exact whole

end Kept

/-! ## What is published -/

/-- What is published follows from what the arbiter has been handed. -/
structure Follows (x : Chamber) (lockTimeout : Span) : Prop where
  docketed : x.Docketed lockTimeout
  /-- An event that calls for it has the state announced that is current after it,
  and no other event has anything announced or changes the current state. -/
  called : ∀ case ∈ x.cases lockTimeout,
    (case.before.Calls case.now case.event ∧ ∃ state, case.verdict.announced = some state ∧
      case.verdict.arb.state = some state) ∨
    (¬ case.before.Calls case.now case.event ∧ case.verdict.announced = none ∧
      case.verdict.arb.state = case.before.state)
  /-- What is announced is published, and nothing else. -/
  published : x.hub.states.nextTicket = (x.announcements lockTimeout).length
  /-- The last that was published is the current state. -/
  current : (x.announcements lockTimeout).getLast? = x.arbiter.arb.state
  /-- It has the flags of the interlocks as they are. -/
  flags : ∀ state, (x.announcements lockTimeout).getLast? = some state →
    state.locks = x.arbiter.arb.locks
  /-- Whoever has not quit has taken, or is still to get, what has been published
  since it came, -/
  heard : x.listening = true →
    x.taken ++ x.hub.states.coming x.observer = (x.announcements lockTimeout).drop x.since
  /-- and is left with the current state when it has taken all of it. -/
  abreast : x.listening = true → x.hub.states.coming x.observer = [] →
    x.since = 0 ∨ x.since < (x.announcements lockTimeout).length →
      x.taken.getLast? = x.arbiter.arb.state

/-- Exactly one state is published for every accepted request, for every change of
an interlock by someone who is trusted and for every expiry that releases
something, the latter two once there is a state.  It is the state that is
current from then on, so the last one published is the current one after every
event, with the flags as they are, and so is the last one that an observer has
taken who has taken everything. -/
theorem announcements_follow_events (reached : Reachable capacity lockTimeout x) :
    x.Follows lockTimeout := by
  have kept := reached.kept
  have current := kept.current
  refine ⟨kept.docketed, ?_, kept.published, current, ?_, kept.taken_append_coming, ?_⟩
  · intro case member
    exact Arbitration.judge_announces case.judged
  · intro state last
    rw [current] at last
    rcases Option.map_eq_some_iff.mp last with ⟨accepted, -, rfl⟩
    rfl
  · intro listening nothing some_since
    have taken := kept.taken_append_coming listening
    rw [nothing, List.append_nil] at taken
    rw [taken, kept.current_since some_since]

/-! ## Scripts -/

inductive Turn
  | deals (now : Instant) (event : ArbiterEvent)
  | goesOn
  | takes
  | quits

def act (x : Chamber) : Turn → Option Chamber
  | .deals now event =>
    if x.arbiter.phase = .waiting then
      let (arbiter, hub, _) := x.arbiter.deal now x.hub event
      some { x with arbiter := arbiter, hub := hub, dealt := x.dealt ++ [(now, event)] }
    else none
  | .goesOn =>
    match x.arbiter.phase with
    | .announcing _ _ =>
      (x.arbiter.step? 0 x.hub).map fun (arbiter, hub, _) =>
        { x with arbiter := arbiter, hub := hub }
    | _ => none
  | .takes =>
    (x.hub.states.receive? x.observer).map fun (state, states) =>
      { x with hub := { x.hub with states := states }, taken := x.taken ++ [state] }
  | .quits => some { x with
      hub := { x.hub with states := x.hub.states.unsubscribe x.observer }
      listening := false }

/-- Only the observer takes and quits. -/
theorem around_of_act {turn : Turn} (acted : x.act turn = some y) :
    x.Around y ∨ turn = .takes ∨ turn = .quits := by
  cases turn with
  | deals now event =>
    simp only [act, Option.ite_none_right_eq_some, Option.some.injEq] at acted
    rcases acted with ⟨waiting, rfl⟩
    exact .inl (.deals waiting rfl)
  | goesOn =>
    cases phase : x.arbiter.phase with
    | announcing wait client =>
      simp only [act, phase, Option.map_eq_some_iff] at acted
      rcases acted with ⟨⟨arbiter, hub, log⟩, stepped, rfl⟩
      exact .inl (.goesOn phase stepped)
    | waiting | ended | crashed => simp [act, phase] at acted
  | takes => exact .inr (.inl rfl)
  | quits => exact .inr (.inr rfl)

theorem move_of_act {turn : Turn} (acted : x.act turn = some y) : x.Move y := by
  rcases around_of_act acted with around | rfl | rfl
  · exact .around around
  · rcases Option.map_eq_some_iff.mp acted with ⟨⟨state, states⟩, received, rfl⟩
    exact .takes received
  · rcases Option.some.inj acted with rfl
    exact .quits

/-- The laser is on before anything is known.  Then someone opens a damper, and
whoever is not trusted fails with a state and with an interlock.  The expiry of
the laser waits until the observer has taken the first state, and another expiry
releases nothing. -/
def laserFirst : List Turn :=
  [.deals 0 (.lock ⟨.laser, true, .local, none⟩),
    .deals 1 (.request ⟨⟨.half, .closed, .closed, .off, .none⟩, .remote, some 0⟩),
    .deals 2 (.request ⟨⟨.full, .full, .full, .on, .none⟩, .remote, some 0⟩),
    .deals 3 (.lock ⟨.olga, true, .remote, some 0⟩),
    .deals (Span.ofSeconds 1800) .deadline, .takes, .goesOn,
    .deals (Span.ofSeconds 1801) .deadline, .takes]

/-- What a chamber looks like to the observer: how much the arbiter has been
handed and what it has announced, since when the observer listens, what it has
taken, what is still to come, and whether it still listens. -/
def seen (x : Chamber) (lockTimeout : Span) :
    (Nat × List State) × (Nat × List State × List State × Bool) :=
  ((x.dealt.length, x.announcements lockTimeout),
    (x.since, x.taken, x.hub.states.coming x.observer, x.listening))

/-- Of six events two have something announced. -/
theorem announcements_follow_events_after_silence :
    ∃ x, Reachable 1 (Span.ofSeconds 1800) x ∧ x.Follows (Span.ofSeconds 1800) ∧
      x.dealt.length = 6 ∧
      x.announcements (Span.ofSeconds 1800) =
        [⟨.half, .closed, .closed, .off, ⟨true, false⟩⟩, ⟨.half, .closed, .closed, .off, .none⟩] ∧
      x.listening = true ∧ x.arbiter.arb.state = some ⟨.half, .closed, .closed, .off, .none⟩ := by
  let published : List State :=
    [⟨.half, .closed, .closed, .off, ⟨true, false⟩⟩, ⟨.half, .closed, .closed, .off, .none⟩]
  have told : (laserFirst.foldlM act (start 1 (Span.ofSeconds 1800))).map
      (fun x => x.seen (Span.ofSeconds 1800)) =
        some ((6, published), (0, published, [], true)) := by
    decide +kernel
  rcases Option.map_eq_some_iff.mp told with ⟨x, played, looks⟩
  simp only [seen, Prod.mk.injEq] at looks
  rcases looks with ⟨⟨handed, announced⟩, begun, taken, nothing, listening⟩
  have reached : Reachable 1 (Span.ofSeconds 1800) x :=
    Reachable.start.later (Script.reflTransGen move_of_act played)
  have follows := announcements_follow_events reached
  refine ⟨x, reached, follows, handed, announced, listening, ?_⟩
  rw [← follows.abreast listening nothing (.inl begun), taken]
  rfl

end Chamber
end Server
end Ventilation
