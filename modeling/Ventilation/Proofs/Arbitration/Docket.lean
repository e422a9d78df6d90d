import Ventilation.Arbiter
import Ventilation.Proofs.Arbitration.Run

namespace Ventilation

/-!
# The docket

The arbiter deals with one event after another, and a case is what it knew, what
came and what it ruled.  Everything that holds of the states it announces is a
matter of single cases: a case either makes a state current and announces it, or
it leaves the current state and announces nothing.  So the state that was
announced last is the current one.

There is no verdict on an activation whose deadline the clock cannot hold, and
no case after it.
-/

namespace Arbitration

variable {arb next : Arbitration} {now : Instant} {event : ArbiterEvent} {verdict : Verdict}

/-! ## One event -/

/-- The event of the arbitration that the arbiter makes of what it takes. -/
def eventOf (now : Instant) : ArbiterEvent → Event
  | .request r => .request r.state r.origin
  | .lock r => .changeLock r.lock r.active r.origin now
  | .deadline => .expire now

/-- What is announced after an answer. -/
def announcement (next : Arbitration) : Answer → Option State
  | .accepted state => some state
  | .locks _ => next.state
  | .expired released => if released = [] then none else next.state
  | .refused _ => none

theorem judge_eq_perform (arb : Arbitration) (now : Instant) (event : ArbiterEvent) :
    (arb.judge now event).map (fun verdict => (verdict.announced, verdict.arb)) =
      (arb.perform (eventOf now event)).map fun step => (step.2.announcement step.1, step.2) := by
  cases event with
  | request r =>
    simp only [judge, eventOf, perform]
    cases arb.request r.state r.origin <;> rfl
  | lock r =>
    simp only [judge, eventOf, perform]
    rcases arb.changeLock r.lock r.active r.origin now with (- | -) | next <;> rfl
  | deadline =>
    simp only [judge, eventOf, perform]
    by_cases idle : (arb.expire now).1 = []
    · simp [idle, announcement]
    · simp [idle, announcement]

theorem performs_of_judge (judged : arb.judge now event = some verdict) :
    ∃ answer, Performs arb (eventOf now event) answer verdict.arb ∧
      verdict.announced = verdict.arb.announcement answer := by
  have performed := arb.judge_eq_perform now event
  rw [judged, Option.map_some, eq_comm, Option.map_eq_some_iff] at performed
  rcases performed with ⟨⟨answer, next⟩, performs, same⟩
  rcases Prod.mk.inj same with ⟨announced, rfl⟩
  exact ⟨answer, perform_eq_some_iff.mp performs, announced.symm⟩

/-- There is no verdict exactly when someone who is trusted sets an interlock
whose deadline the clock cannot hold. -/
theorem judge_eq_none_iff :
    arb.judge now event = none ↔
      ∃ r, event = .lock r ∧ r.active = true ∧ r.origin = .local ∧
        Instant.limit ≤ now + arb.lockTimeout := by
  have performed := arb.judge_eq_perform now event
  constructor
  · intro unjudged
    rw [unjudged, Option.map_none, eq_comm, Option.map_eq_none_iff] at performed
    by_contra others
    have held : ∀ lock instant, eventOf now event = .changeLock lock true .local instant →
        instant + arb.lockTimeout < Instant.limit := by
      intro lock instant asked
      by_contra late
      cases event with
      | request | deadline => cases asked
      | lock r =>
        rcases r with ⟨lock, active, origin, reply⟩
        cases asked
        exact others ⟨_, rfl, rfl, rfl, Nat.le_of_not_lt late⟩
    rcases arb.exists_performs (eventOf now event) held with ⟨answer, next, performs⟩
    cases performed.symm.trans (perform_eq_some_iff.mpr performs)
  · rintro ⟨⟨lock, active, origin, reply⟩, rfl, rfl, rfl, late⟩
    have unheld : ¬ now + arb.lockTimeout < Instant.limit := Nat.not_lt.mpr late
    simp [judge, changeLock, deadlineOf?, Instant.after?, unheld]

/-- Whether an event is one that has a state announced: a request that is
accepted, or a change of an interlock by someone who is trusted or by an expiry,
once there is a state. -/
def Calls (arb : Arbitration) (now : Instant) : ArbiterEvent → Prop
  | .request r => (arb.request r.state r.origin).isOk = true
  | .lock r => r.origin = .local ∧ arb.state.isSome = true
  | .deadline => (arb.expire now).1 ≠ [] ∧ arb.state.isSome = true

theorem state_isSome (arb : Arbitration) : arb.state.isSome = arb.accepted.isSome :=
  Option.isSome_map

theorem expire_eq_of_nothing (nothing : (arb.expire now).1 = []) : (arb.expire now).2 = arb := by
  have held : ∀ lock, arb.expired now lock = false := fun lock => by
    simpa using List.filter_eq_nil_iff.mp nothing lock lock.mem_all
  simp [expire, Lock.all, expireOne, held]

/-- An event either has the state announced that is current after it, or it
leaves the current state. -/
theorem judge_announces (judged : arb.judge now event = some verdict) :
    (arb.Calls now event ∧ ∃ state, verdict.announced = some state ∧
      verdict.arb.state = some state) ∨
    (¬ arb.Calls now event ∧ verdict.announced = none ∧ verdict.arb.state = arb.state) := by
  rcases performs_of_judge judged with ⟨answer, performs, announced⟩
  rw [announced]
  generalize verdict.arb = next at performs
  have changed : next.accepted = arb.accepted →
      (arb.state.isSome = true ∧ ∃ state, next.state = some state) ∨
        (¬ arb.state.isSome = true ∧ next.state = none ∧ next.state = arb.state) := by
    intro same
    unfold Arbitration.state
    rw [same]
    cases arb.accepted with
    | none => exact .inr ⟨Bool.false_ne_true, rfl, rfl⟩
    | some state => exact .inl ⟨rfl, _, rfl⟩
  cases event with
  | request r =>
    cases performs with
    | accepts allowed =>
      refine .inl ⟨?_, _, rfl, rfl⟩
      simp [Calls, request, allowed, Except.isOk, Except.toBool]
    | refuses broken =>
      refine .inr ⟨?_, rfl, rfl⟩
      simp [Calls, request, broken, Except.isOk, Except.toBool]
  | lock r =>
    rcases r with ⟨lock, active, origin, reply⟩
    cases performs with
    | sets held =>
      rcases changed rfl with ⟨known, state, current⟩ | ⟨unknown, silent, still⟩
      · exact .inl ⟨⟨rfl, known⟩, state, current, current⟩
      · exact .inr ⟨fun calls => unknown calls.2, silent, still⟩
    | releases =>
      rcases changed rfl with ⟨known, state, current⟩ | ⟨unknown, silent, still⟩
      · exact .inl ⟨⟨rfl, known⟩, state, current, current⟩
      · exact .inr ⟨fun calls => unknown calls.2, silent, still⟩
    | keepsLock =>
      refine .inr ⟨fun calls => ?_, rfl, rfl⟩
      cases calls.1
  | deadline =>
    cases performs with
    | expires =>
      by_cases nothing : (arb.expire now).1 = []
      · refine .inr ⟨fun calls => calls.1 nothing, if_pos nothing, ?_⟩
        rw [expire_eq_of_nothing nothing]
      · simp only [announcement, if_neg nothing]
        rcases changed (expire_accepted arb now) with
          ⟨known, state, current⟩ | ⟨unknown, silent, still⟩
        · exact .inl ⟨⟨nothing, known⟩, state, current, current⟩
        · exact .inr ⟨fun calls => unknown calls.2, silent, still⟩

/-- What is announced on a request is what was asked for, settled. -/
theorem announced_of_request {r : Bus.Request}
    (judged : arb.judge now (.request r) = some verdict) {state : State}
    (announced : verdict.announced = some state) : state = settle arb.locks r.state := by
  rcases performs_of_judge judged with ⟨answer, performs, same⟩
  rw [same] at announced
  generalize verdict.arb = next at performs announced
  cases performs with
  | accepts allowed => exact (Option.some.inj announced).symm
  | refuses broken => cases announced

/-- An accepted state with all dampers closed has its fan off. -/
def Safe (arb : Arbitration) : Prop :=
  ∀ state, arb.accepted = some state → state.allClosed = true → state.fan = .off

theorem Performs.safe {event : Event} {answer : Answer} (performs : Performs arb event answer next)
    (safe : arb.Safe) : next.Safe := by
  cases performs with
  | accepts allowed =>
    rintro state ⟨rfl⟩ shut
    exact if_pos shut
  | refuses | sets | releases | keepsLock => exact safe
  | expires =>
    intro state accepted shut
    rw [expire_accepted] at accepted
    exact safe state accepted shut

end Arbitration

/-! ## Many events -/

/-- An event that the arbiter has dealt with: what it knew, when and what the
event was, and what it ruled. -/
structure Case where
  before : Arbitration
  now : Instant
  event : ArbiterEvent
  verdict : Verdict
  judged : before.judge now event = some verdict

namespace Case

def entry (case : Case) : Instant × ArbiterEvent := (case.now, case.event)

/-- The states that are announced in some cases, in order. -/
def announcements (cases : List Case) : List State :=
  cases.filterMap fun case => case.verdict.announced

theorem announcements_cons (case : Case) (rest : List Case) :
    announcements (case :: rest) = case.verdict.announced.toList ++ announcements rest := by
  unfold announcements
  rw [List.filterMap_cons]
  cases case.verdict.announced <;> rfl

theorem announcements_append (first second : List Case) :
    announcements (first ++ second) = announcements first ++ announcements second :=
  List.filterMap_append

end Case

namespace Arbitration

variable {arb : Arbitration} {now : Instant} {event : ArbiterEvent} {verdict : Verdict}

/-- The cases of some events, up to the first on which there is no verdict. -/
def docket (arb : Arbitration) : List (Instant × ArbiterEvent) → List Case
  | [] => []
  | (now, event) :: rest =>
    match judged : arb.judge now event with
    | none => []
    | some verdict => ⟨arb, now, event, verdict, judged⟩ :: verdict.arb.docket rest

/-- What is known after some cases. -/
def closing (arb : Arbitration) (cases : List Case) : Arbitration :=
  (cases.getLast?.map fun case => case.verdict.arb).getD arb

theorem closing_cons (arb : Arbitration) (case : Case) (rest : List Case) :
    arb.closing (case :: rest) = case.verdict.arb.closing rest := by
  cases rest with
  | nil => rfl
  | cons next rest =>
    unfold closing
    rw [List.getLast?_cons_cons]
    cases last : (next :: rest).getLast? with
    | none => cases List.getLast?_eq_none_iff.mp last
    | some case => rfl

theorem closing_concat (arb : Arbitration) (cases : List Case) (case : Case) :
    arb.closing (cases ++ [case]) = case.verdict.arb := by
  rw [closing, List.getLast?_concat]
  rfl

theorem docket_of_judged (judged : arb.judge now event = some verdict)
    (rest : List (Instant × ArbiterEvent)) :
    arb.docket ((now, event) :: rest) =
      ⟨arb, now, event, verdict, judged⟩ :: verdict.arb.docket rest := by
  rw [docket]
  split
  · next unjudged => cases unjudged.symm.trans judged
  · next same =>
    cases same.symm.trans judged
    rfl

theorem docket_of_unjudged (unjudged : arb.judge now event = none)
    (rest : List (Instant × ArbiterEvent)) : arb.docket ((now, event) :: rest) = [] := by
  rw [docket]
  split
  · rfl
  · next judged => cases unjudged.symm.trans judged

/-- One more event leads to one more case, if there is a verdict on it and on
all before it. -/
theorem docket_concat {events : List (Instant × ArbiterEvent)}
    (whole : (arb.docket events).map Case.entry = events)
    (judged : (arb.closing (arb.docket events)).judge now event = some verdict) :
    ∃ case : Case, arb.docket (events ++ [(now, event)]) = arb.docket events ++ [case] ∧
      case.entry = (now, event) ∧ case.verdict = verdict := by
  induction events generalizing arb with
  | nil => exact ⟨_, docket_of_judged judged [], rfl, rfl⟩
  | cons first rest inductionHypothesis =>
    rcases first with ⟨earlier, before⟩
    cases ruled : arb.judge earlier before with
    | none =>
      rw [docket_of_unjudged ruled] at whole
      cases whole
    | some ruling =>
      have split := docket_of_judged ruled rest
      rw [split] at whole
      have later : (ruling.arb.docket rest).map Case.entry = rest := (List.cons.inj whole).2
      have same : arb.closing (arb.docket ((earlier, before) :: rest)) =
          ruling.arb.closing (ruling.arb.docket rest) := by
        rw [split, closing_cons]
      rcases inductionHypothesis later (same ▸ judged) with ⟨case, further, entry, ruled_as⟩
      refine ⟨case, ?_, entry, ruled_as⟩
      rw [List.cons_append, docket_of_judged ruled, further, split, List.cons_append]

theorem docket_concat_of_unjudged {events : List (Instant × ArbiterEvent)}
    (unjudged : (arb.closing (arb.docket events)).judge now event = none) :
    arb.docket (events ++ [(now, event)]) = arb.docket events := by
  induction events generalizing arb with
  | nil => exact docket_of_unjudged unjudged []
  | cons first rest inductionHypothesis =>
    rcases first with ⟨earlier, before⟩
    cases ruled : arb.judge earlier before with
    | none => rw [List.cons_append, docket_of_unjudged ruled, docket_of_unjudged ruled]
    | some ruling =>
      have split := docket_of_judged ruled rest
      rw [split, closing_cons] at unjudged
      rw [List.cons_append, docket_of_judged ruled, inductionHypothesis unjudged, split]

/-- What every event keeps, every case keeps. -/
theorem forall_mem_docket {Kept : Arbitration → Prop}
    (step : ∀ before event answer after, Performs before event answer after → Kept before →
      Kept after) (events : List (Instant × ArbiterEvent)) (kept : Kept arb) :
    ∀ case ∈ arb.docket events, Kept case.before ∧ Kept case.verdict.arb := by
  induction events generalizing arb with
  | nil =>
    intro case member
    rw [docket] at member
    cases member
  | cons first rest inductionHypothesis =>
    rcases first with ⟨now, event⟩
    intro case member
    cases judged : arb.judge now event with
    | none =>
      rw [docket_of_unjudged judged] at member
      cases member
    | some verdict =>
      rcases performs_of_judge judged with ⟨answer, performs, -⟩
      have after := step _ _ _ _ performs kept
      rw [docket_of_judged judged] at member
      rcases List.mem_cons.mp member with rfl | later
      · exact ⟨kept, after⟩
      · exact inductionHypothesis after case later

theorem closing_docket_kept {Kept : Arbitration → Prop}
    (step : ∀ before event answer after, Performs before event answer after → Kept before →
      Kept after) (events : List (Instant × ArbiterEvent)) (kept : Kept arb) :
    Kept (arb.closing (arb.docket events)) := by
  have all := forall_mem_docket step events kept
  unfold closing
  cases last : (arb.docket events).getLast? with
  | none => exact kept
  | some case => exact (all case (List.mem_of_getLast? last)).2

/-- Whatever is announced has its fan off if all dampers are closed. -/
theorem announcements_docket_safe (events : List (Instant × ArbiterEvent)) (safe : arb.Safe) :
    ∀ state ∈ Case.announcements (arb.docket events),
      state.allClosed = true → state.fan = .off := by
  intro state member shut
  rcases List.mem_filterMap.mp member with ⟨case, among, announced⟩
  have kept := forall_mem_docket (fun _ _ _ _ performs safe => performs.safe safe) events safe
  rcases judge_announces case.judged with ⟨-, current, same, adopted⟩ | ⟨-, silent, -⟩
  · cases announced.symm.trans same
    rcases Option.map_eq_some_iff.mp adopted with ⟨accepted, known, rfl⟩
    exact (kept case among).2 accepted known shut
  · cases announced.symm.trans silent

/-- The state that was announced last is the current one. -/
theorem closing_docket_state (arb : Arbitration) (events : List (Instant × ArbiterEvent)) :
    (arb.closing (arb.docket events)).state =
      (Case.announcements (arb.docket events)).getLast?.or arb.state := by
  induction events generalizing arb with
  | nil => rfl
  | cons first rest inductionHypothesis =>
    rcases first with ⟨now, event⟩
    cases judged : arb.judge now event with
    | none =>
      rw [docket_of_unjudged judged]
      rfl
    | some verdict =>
      rw [docket_of_judged judged, closing_cons, inductionHypothesis, Case.announcements_cons,
        List.getLast?_append, Option.or_assoc]
      congr 1
      rcases judge_announces judged with ⟨-, state, announced, current⟩ | ⟨-, silent, still⟩
      · rw [announced, current]
        rfl
      · rw [silent, still]
        rfl

end Arbitration

end Ventilation
