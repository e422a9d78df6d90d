import Ventilation.Proofs.Arbitration.Refusals
import Ventilation.Proofs.Arbitration.Trust

namespace Ventilation

/-!
# Requests that are sent again

A client that does not know whether its request has arrived may send it again.
As long as nothing has come in between, this moves nothing: what has just been
accepted is the state that is asked for, but for the fan, and what has just been
refused is refused again.  So a run with repetitions goes through the same
points as the run without them, and every other event has the answer that it
had.

The repetition of an accepted request need not be accepted, though.  Where all
dampers are closed, the fan has been switched off without a word, and asking for
it again is asking for a start.  And the first request of all is not judged, so
it may exceed the limit that its repetition is judged by.
-/

namespace State

/-- The fan is to run against closed dampers. -/
def RunsShut (state : State) : Prop := state.allClosed = true ∧ state.fan = .on

instance (state : State) : Decidable state.RunsShut := inferInstanceAs (Decidable (_ ∧ _))

instance (state : State) : Decidable state.Overdrawn := inferInstanceAs (Decidable (_ ∧ _))

/-- What stands in the way of asking once more for what has been settled. -/
theorem hazard?_settle (requested : State) (origin : Origin) (locks : Locks) :
    (Arbitration.settle locks requested).hazard? requested origin locks =
      if requested.RunsShut then some .fanStartsShut
      else if requested.Overdrawn ∧ origin = .remote then some .allDampersOpen
      else none := by
  -- The dampers stand as asked, so only the fan can be in question.
  cases fan : requested.fan <;> cases shut : requested.allClosed <;> cases origin <;>
    simp [hazard?, rules, Rule.binds, broken?_cons, Arbitration.settle, startsFan, stopsFan,
      Damper.closes, Damper.opensFully, Damper.opens, RunsShut, Overdrawn, fan, shut]

end State

namespace Arbitration

variable {arb next : Arbitration} {requested state : State} {origin : Origin} {event : Event}
  {answer : Answer}

/-! ## One request once more -/

/-- The answer to the repetition of a request, given the answer to the request. -/
def echo (requested : State) (origin : Origin) : Answer → Answer
  | .accepted state =>
    if requested.RunsShut then .refused .fanStartsShut
    else if requested.Overdrawn ∧ origin = .remote then .refused .allDampersOpen
    else .accepted state
  | answer => answer

/-- A request that has just been answered moves nothing when it comes again. -/
theorem Performs.again (performs : Performs arb (.request requested origin) answer next) :
    Performs next (.request requested origin) (echo requested origin answer) next := by
  cases performs with
  | refuses broken => exact .refuses broken
  | accepts allowed =>
    have verdict := State.hazard?_settle requested origin arb.locks
    unfold echo
    split_ifs at verdict ⊢
    · exact .refuses verdict
    · exact .refuses verdict
    · exact .accepts verdict

/-- The repetitions of a request stand in a trace between its answer and what
comes after it. -/
theorem trace_replicate (again : Performs next event answer next) (times : Nat)
    (rest : List Event) :
    next.trace (List.replicate times event ++ rest) =
      (next.trace rest).map (List.replicate times (answer, next) ++ ·) := by
  induction times with
  | zero => simp
  | succ times inductionHypothesis =>
    rw [List.replicate_succ, List.cons_append, trace_cons, perform_eq_some_iff.mpr again,
      Option.bind_some, inductionHypothesis, Option.map_map]
    rfl

/-! ## Runs with repetitions -/

/-- An event as it is sent.  A request may be sent again at once, any number of
times. -/
inductive Sending
  | request (requested : State) (origin : Origin) (again : Nat)
  | single (event : Event)

namespace Sending

def meant : Sending → Event
  | request requested origin _ => .request requested origin
  | single event => event

def sent : Sending → List Event
  | request requested origin again =>
    .request requested origin :: List.replicate again (.request requested origin)
  | single event => [event]

/-- What the events that arrive are answered, each with the arbitration that it
leaves, given the same for the event that is meant. -/
def answered : Sending → Answer × Arbitration → List (Answer × Arbitration)
  | request requested origin again, (answer, next) =>
    (answer, next) :: List.replicate again (echo requested origin answer, next)
  | single _, step => [step]

end Sending

/-- The trace of what is sent is the trace of what is meant, with the answers to
the repetitions put in. -/
theorem trace_sent (arb : Arbitration) (sendings : List Sending) :
    arb.trace (sendings.flatMap Sending.sent) =
      (arb.trace (sendings.map Sending.meant)).map fun visited =>
        (List.zipWith Sending.answered sendings visited).flatten := by
  induction sendings generalizing arb with
  | nil => rfl
  | cons sending rest inductionHypothesis =>
    cases sending with
    | single event =>
      change arb.trace (event :: rest.flatMap Sending.sent) =
        (arb.trace (event :: rest.map Sending.meant)).map _
      rw [trace_cons, trace_cons]
      cases performed : arb.perform event with
      | none => rfl
      | some step =>
        rw [Option.bind_some, Option.bind_some, inductionHypothesis, Option.map_map,
          Option.map_map]
        rfl
    | request requested origin again =>
      change arb.trace (.request requested origin ::
          (List.replicate again (.request requested origin) ++ rest.flatMap Sending.sent)) =
        (arb.trace (.request requested origin :: rest.map Sending.meant)).map _
      rw [trace_cons, trace_cons]
      cases performed : arb.perform (.request requested origin) with
      | none => rfl
      | some step =>
        have repeated := (perform_eq_some_iff.mp performed).again
        rw [Option.bind_some, Option.bind_some, trace_replicate repeated, inductionHypothesis,
          Option.map_map, Option.map_map, Option.map_map]
        rfl

/-! ## The first request -/

def Event.isRequest : Event → Bool
  | .request _ _ => true
  | _ => false

/-- A state is known once there has been a request, since the first one is
accepted. -/
theorem Performs.isSome_accepted (performs : Performs arb event answer next) :
    next.accepted.isSome = (arb.accepted.isSome || event.isRequest) := by
  cases performs with
  | accepts | sets | releases | keepsLock | expires => simp [Event.isRequest]
  | refuses broken =>
    rcases Option.bind_eq_some_iff.mp broken with ⟨current, accepted, -⟩
    simp [accepted]

theorem isSome_accepted_of_run {events : List Event} (reached : arb.run events = some next) :
    next.accepted.isSome = (arb.accepted.isSome || events.any Event.isRequest) := by
  induction events generalizing arb with
  | nil =>
    obtain rfl : arb = next := Option.some.inj reached
    simp
  | cons event rest inductionHypothesis =>
    rcases Option.bind_eq_some_iff.mp reached with ⟨⟨answer, middle⟩, performed, later⟩
    rw [inductionHypothesis later, (perform_eq_some_iff.mp performed).isSome_accepted,
      List.any_cons, Bool.or_assoc]

theorem request_eq_ok_iff :
    arb.request requested origin = .ok (state, next) ↔
      Performs arb (.request requested origin) (.accepted state) next := by
  rw [← perform_eq_some_iff, perform]
  cases arb.request requested origin with
  | error hazard => simp
  | ok step => rcases step with ⟨held, following⟩; simp

/-- Only the first request of all can be accepted from a remote sender beyond the
limit. -/
theorem accepted_eq_none_of_overdrawn (overdrawn : requested.Overdrawn)
    (accepted : arb.request requested .remote = .ok (state, next)) : arb.accepted = none := by
  cases known : arb.accepted with
  | none => rfl
  | some current =>
    have broken : arb.hazard? requested .remote = some .allDampersOpen := by
      rw [hazard?, known, Option.bind_some, State.hazard?_remote_of_overdrawn overdrawn]
    rw [request_eq_error_iff.mpr broken] at accepted
    cases accepted

/-- Sending requests again is harmless.  With any repetitions put in directly
behind requests, a run goes through the same points and gives the other events
the same answers.  What has been accepted is accepted again with the same result,
unless the fan is to run against closed dampers, or a remote sender exceeds the
limit on open dampers; and the latter can only have been the first request. -/
theorem repetitions_are_harmless (lockTimeout : Span) :
    (∀ sendings : List Sending,
      (start lockTimeout).trace (sendings.flatMap Sending.sent) =
        ((start lockTimeout).trace (sendings.map Sending.meant)).map fun visited =>
          (List.zipWith Sending.answered sendings visited).flatten) ∧
    ∀ earlier arb requested origin state next,
      (start lockTimeout).run earlier = some arb →
      arb.request requested origin = .ok (state, next) →
        (next.request requested origin = .ok (state, next) ↔
          ¬ requested.RunsShut ∧ ¬ (origin = .remote ∧ requested.Overdrawn)) ∧
        (origin = .remote → requested.Overdrawn →
          ∀ event ∈ earlier, event.isRequest = false) := by
  refine ⟨trace_sent _, ?_⟩
  intro earlier arb requested origin state next reached accepted
  constructor
  · have repeated := (request_eq_ok_iff.mp accepted).again
    rw [request_eq_ok_iff, ← perform_eq_some_iff, perform_eq_some_iff.mpr repeated]
    unfold echo
    split_ifs <;> grind
  · rintro rfl overdrawn event member
    have known := isSome_accepted_of_run reached
    rw [accepted_eq_none_of_overdrawn overdrawn accepted] at known
    have none : earlier.any Event.isRequest = false := by simpa [start] using known.symm
    simpa using List.any_eq_false.mp none event member

/-- A remote sender asks for everything open before anything is known, and again.
Later all dampers are closed with the fan on, which is accepted from a trusted
sender although the OLGA workplace needs its air.  Both repetitions are refused,
and nothing is moved by any of them. -/
theorem repetitions_are_harmless_beyond_the_limit :
    let opened : State := ⟨.full, .full, .full, .on, .none⟩
    let closed : State := ⟨.closed, .closed, .closed, .on, .none⟩
    let stopped : State := ⟨.closed, .closed, .closed, .off, ⟨false, true⟩⟩
    let earlier : List Event := [.request opened .remote, .changeLock .olga true .local 5]
    let first : Arbitration := ⟨10, some opened, .none, ⟨none, none⟩⟩
    let locked : Arbitration := ⟨10, some opened, ⟨false, true⟩, ⟨none, some 15⟩⟩
    let last : Arbitration := ⟨10, some stopped, ⟨false, true⟩, ⟨none, some 15⟩⟩
    (start 10).request opened .remote = .ok (opened, first) ∧
      first.request opened .remote ≠ .ok (opened, first) ∧
      (start 10).run earlier = some locked ∧
      locked.request closed .local = .ok (stopped, last) ∧
      last.request closed .local ≠ .ok (stopped, last) ∧
      (start 10).trace
          [.request opened .remote, .request opened .remote, .changeLock .olga true .local 5,
            .request closed .local, .request closed .local, .expire 7] =
        some [(.accepted opened, first), (.refused .allDampersOpen, first),
          (.locks ⟨false, true⟩, locked), (.accepted stopped, last),
          (.refused .fanStartsShut, last), (.expired [], last)] := by
  intro opened closed stopped earlier first locked last
  have begun : (start 10).request opened .remote = .ok (opened, first) := rfl
  have reached : (start 10).run earlier = some locked := by decide
  have accepted : locked.request closed .local = .ok (stopped, last) := rfl
  refine ⟨begun, ?_, reached, accepted, ?_, ?_⟩
  · have verdict := ((repetitions_are_harmless 10).2 [] _ _ _ _ _ rfl begun).1
    exact fun again => (verdict.mp again).2 ⟨rfl, rfl, rfl⟩
  · have verdict := ((repetitions_are_harmless 10).2 earlier _ _ _ _ _ reached accepted).1
    exact fun again => (verdict.mp again).1 ⟨rfl, rfl⟩
  · have same := (repetitions_are_harmless 10).1 [.request opened .remote 1,
      .single (.changeLock .olga true .local 5), .request closed .local 1, .single (.expire 7)]
    exact same.trans (by decide)

end Arbitration
end Ventilation
