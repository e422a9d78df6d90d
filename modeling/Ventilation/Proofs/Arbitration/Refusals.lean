import Ventilation.Proofs.Arbitration.Docket

namespace Ventilation

/-!
# Refusals

A request or a change of an interlock that is refused leaves everything as it
was, the deadlines included.  So a run does not tell whether refused events
were among its events: without them, every other event has the answer that it
had, and the arbitration goes through the same points otherwise.

The arbiter that is handed such an event tells its sender, and no more.
-/

open Bus (Hub)

namespace Arbitration

variable {arb next : Arbitration} {event : Event} {answer : Answer}

def Answer.isRefusal : Answer → Bool
  | .refused _ => true
  | _ => false

theorem Performs.eq_of_refusal (performs : Performs arb event answer next)
    (refusal : answer.isRefusal = true) : next = arb := by
  cases performs with
  | refuses | keepsLock => rfl
  | accepts | sets | releases | expires => cases refusal

/-! ## Runs without their refusals -/

/-- The events of a run without those that are refused in it.  Nothing is known
of what would follow an event that the clock cannot serve. -/
def upheld (arb : Arbitration) : List Event → List Event
  | [] => []
  | event :: rest =>
    match arb.perform event with
    | some (answer, next) =>
      if answer.isRefusal then next.upheld rest else event :: next.upheld rest
    | none => event :: rest

theorem trace_cons (arb : Arbitration) (event : Event) (rest : List Event) :
    arb.trace (event :: rest) =
      (arb.perform event).bind fun step => (step.2.trace rest).map (step :: ·) := by
  cases performed : arb.perform event with
  | none => simp [trace, performed]
  | some step => cases later : step.2.trace rest <;> simp [trace, performed, later]

/-- The trace of what is upheld is the trace without the refusals. -/
theorem trace_upheld (arb : Arbitration) (events : List Event) :
    arb.trace (arb.upheld events) =
      (arb.trace events).map (List.filter fun visited => !visited.1.isRefusal) := by
  induction events generalizing arb with
  | nil => rfl
  | cons event rest inductionHypothesis =>
    rw [trace_cons]
    cases performed : arb.perform event with
    | none => simp [upheld, trace_cons, performed]
    | some step =>
      rcases step with ⟨answer, next⟩
      have later := inductionHypothesis next
      cases refusal : answer.isRefusal with
      | true =>
        rcases (perform_eq_some_iff.mp performed).eq_of_refusal refusal with rfl
        simp only [upheld, performed, refusal, if_true, later, Option.bind_some, Option.map_map]
        congr 1
        funext visited
        simp [refusal]
      | false =>
        simp only [upheld, performed, refusal, Bool.false_eq_true, if_false, trace_cons, later,
          Option.bind_some, Option.map_map]
        congr 1
        funext visited
        simp [refusal]

/-- What is upheld leads to the same end. -/
theorem run_upheld (arb : Arbitration) (events : List Event) :
    arb.run (arb.upheld events) = arb.run events := by
  induction events generalizing arb with
  | nil => rfl
  | cons event rest inductionHypothesis =>
    cases performed : arb.perform event with
    | none => simp [upheld, performed]
    | some step =>
      rcases step with ⟨answer, next⟩
      have later := inductionHypothesis next
      cases refusal : answer.isRefusal with
      | true =>
        rcases (perform_eq_some_iff.mp performed).eq_of_refusal refusal with rfl
        simp [upheld, run, performed, refusal, later]
      | false => simp [upheld, run, performed, refusal, later]

end Arbitration

/-! ## What the arbiter does -/

namespace Arbiter

theorem tellAll_eq (hub : Hub) (client : Nat) (replies : List Client.Reply) :
    ∃ mailboxes, (tellAll hub client replies).2 = { hub with mailboxes := mailboxes } := by
  induction replies generalizing hub with
  | nil => exact ⟨hub.mailboxes, rfl⟩
  | cons reply rest inductionHypothesis =>
    unfold tellAll
    split
    · next next told =>
      rcases inductionHypothesis next with ⟨mailboxes, later⟩
      unfold Hub.tell? at told
      split at told
      · split at told
        · rcases Option.some.inj told with rfl
          exact ⟨mailboxes, later⟩
        · cases told
      · cases told
    · split
      · exact ⟨hub.mailboxes, rfl⟩
      · exact inductionHypothesis hub

theorem report_eq (hub : Hub) (client : Option Nat) (told : List Client.Reply) :
    ∃ mailboxes, (report hub client told).1 = { hub with mailboxes := mailboxes } := by
  unfold report
  split
  · next client reply rest =>
    rcases tellAll_eq hub client (reply :: rest) with ⟨mailboxes, told⟩
    refine ⟨mailboxes, ?_⟩
    rw [← told]
    split
    · next sent => rw [sent]
    · next sent => rw [sent]
  · exact ⟨hub.mailboxes, rfl⟩

variable {arbiter : Arbiter} {now : Instant} {event : ArbiterEvent} {hazard : Hazard}
  {next : Arbitration}

/-- A refused event changes neither the arbiter nor any topic. -/
theorem deal_of_refused
    (refused : arbiter.arb.perform (Arbitration.eventOf now event) = some (.refused hazard, next))
    (hub : Hub) :
    ∃ mailboxes log,
      arbiter.deal now hub event = (arbiter, { hub with mailboxes := mailboxes }, log) := by
  have judged := arbiter.arb.judge_eq_perform now event
  rw [refused, Option.map_some, Option.map_eq_some_iff] at judged
  rcases judged with ⟨verdict, judged, same⟩
  rcases Prod.mk.inj same with ⟨silent, kept⟩
  obtain rfl : next = arbiter.arb :=
    (Arbitration.perform_eq_some_iff.mp refused).eq_of_refusal rfl
  replace silent : verdict.announced = none := silent
  rcases report_eq hub event.client verdict.told with ⟨mailboxes, told⟩
  refine ⟨mailboxes, verdict.log ++ (report hub event.client verdict.told).2, ?_⟩
  unfold deal
  rw [judged]
  simp only [silent, kept, told]

end Arbiter

namespace Arbitration

/-- Refusals leave no trace.  Without the events that are refused, a run gives
the other events the same answers, at the same points, and ends the same, from
whatever arbitration and at whatever times; if it comes to an activation whose
deadline the clock cannot hold, so it does without them.  And an arbiter that is
handed an event which is refused stays as it is and publishes nothing at all. -/
theorem refusals_leave_no_trace (arb : Arbitration) (events : List Event) :
    arb.trace (arb.upheld events) =
        (arb.trace events).map (List.filter fun visited => !visited.1.isRefusal) ∧
      arb.run (arb.upheld events) = arb.run events ∧
      ∀ (arbiter : Arbiter) (hub : Hub) (now : Instant) (event : ArbiterEvent) (hazard : Hazard)
        (next : Arbitration),
        arbiter.arb.perform (eventOf now event) = some (.refused hazard, next) →
          ∃ mailboxes log, arbiter.deal now hub event =
            (arbiter, { hub with mailboxes := mailboxes }, log) :=
  ⟨arb.trace_upheld events, arb.run_upheld events,
    fun _ hub _ _ _ _ refused => Arbiter.deal_of_refused refused hub⟩

/-- A remote activation and a request against the laser interlock are refused
before that interlock expires; the expiry and the request after it do not show
it.  An arbiter that is handed the remote activation stays as it is. -/
theorem refusals_leave_no_trace_before_an_expiry :
    let running : State := ⟨.full, .closed, .closed, .on, .none⟩
    let events : List Event := [.request running .remote, .changeLock .laser true .remote 1,
      .changeLock .laser true .local 2, .request State.shut .local, .expire 12,
      .request State.shut .remote]
    let heard : List Event := [.request running .remote, .changeLock .laser true .local 2,
      .expire 12, .request State.shut .remote]
    let arbiter := (Arbiter.start 10 (Hub.empty 1)).1
    let activation : ArbiterEvent := .lock ⟨.laser, true, .remote, some 0⟩
    (start 10).upheld events = heard ∧
      (((start 10).trace events).map List.length = some 6 ∧
        (start 10).trace heard =
          ((start 10).trace events).map (List.filter fun visited => !visited.1.isRefusal) ∧
        ((start 10).trace heard).map List.length = some 4) ∧
      arbiter.arb.perform (eventOf 1 activation) =
        some (.refused .laserLockRemote, arbiter.arb) ∧
      ∃ mailboxes log, arbiter.deal 1 (Hub.empty 1) activation =
        (arbiter, { Hub.empty 1 with mailboxes := mailboxes }, log) := by
  intro running events heard arbiter activation
  have law := refusals_leave_no_trace (start 10) events
  exact ⟨by decide, ⟨by decide, law.1, by decide⟩, rfl,
    law.2.2 arbiter (Hub.empty 1) 1 activation .laserLockRemote arbiter.arb rfl⟩

end Arbitration

end Ventilation
