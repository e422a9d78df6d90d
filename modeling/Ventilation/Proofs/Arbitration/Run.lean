import Ventilation.Arbitration
import Mathlib.Data.List.Chain

namespace Ventilation
namespace Arbitration

/-!
# Runs of the arbitration

What one event can do is said once, as a relation with a rule for each outcome:
a request is accepted or refused, an interlock is set, released or left alone,
and an expiry releases what is due.  Everything that holds of whole runs is
read off these rules, one case for each.

A run is taken in two forms.  `run` is the arbitration at its end; `path` lists
every arbitration that it passes through, the first one included, and is the
`trace` without the answers.
-/

variable {arb next : Arbitration} {event : Event} {answer : Answer} {now : Instant}

/-! ## One event -/

/-- What comes of one event, with a rule for each outcome.  An interlock is not
set when the clock cannot hold its deadline, and no rule covers that. -/
inductive Performs (arb : Arbitration) : Event → Answer → Arbitration → Prop
  | accepts {requested : State} {origin : Origin}
      (allowed : arb.hazard? requested origin = none) :
      Performs arb (.request requested origin) (.accepted (settle arb.locks requested))
        { arb with accepted := some (settle arb.locks requested) }
  | refuses {requested : State} {origin : Origin} {hazard : Hazard}
      (broken : arb.hazard? requested origin = some hazard) :
      Performs arb (.request requested origin) (.refused hazard) arb
  | sets {lock : Lock} {now : Instant} (held : now + arb.lockTimeout < Instant.limit) :
      Performs arb (.changeLock lock true .local now) (.locks (arb.locks.set lock true))
        { arb with
          locks := arb.locks.set lock true
          deadlines := arb.deadlines.set lock (some (now + arb.lockTimeout)) }
  | releases {lock : Lock} {now : Instant} :
      Performs arb (.changeLock lock false .local now) (.locks (arb.locks.set lock false))
        { arb with
          locks := arb.locks.set lock false
          deadlines := arb.deadlines.set lock none }
  | keepsLock {lock : Lock} {active : Bool} {now : Instant} :
      Performs arb (.changeLock lock active .remote now) (.refused (remoteHazard lock)) arb
  | expires {now : Instant} :
      Performs arb (.expire now) (.expired (arb.expire now).1) (arb.expire now).2

/-- The rules are exactly what `perform` does. -/
theorem perform_eq_some_iff :
    arb.perform event = some (answer, next) ↔ Performs arb event answer next := by
  constructor
  · intro performed
    cases event with
    | request requested origin =>
      simp only [perform, request] at performed
      cases verdict : arb.hazard? requested origin with
      | none =>
        simp only [verdict, Option.some.injEq, Prod.mk.injEq] at performed
        rcases performed with ⟨rfl, rfl⟩
        exact .accepts verdict
      | some hazard =>
        simp only [verdict, Option.some.injEq, Prod.mk.injEq] at performed
        rcases performed with ⟨rfl, rfl⟩
        exact .refuses verdict
    | changeLock lock active origin now =>
      cases origin with
      | remote =>
        simp only [perform, changeLock, ne_eq, reduceCtorEq, not_false_eq_true, if_true,
          Option.some.injEq, Prod.mk.injEq] at performed
        rcases performed with ⟨rfl, rfl⟩
        exact .keepsLock
      | «local» =>
        cases active with
        | false =>
          simp only [perform, changeLock, deadlineOf?, ne_eq, not_true_eq_false, if_false,
            Bool.false_eq_true, Option.some.injEq, Prod.mk.injEq] at performed
          rcases performed with ⟨rfl, rfl⟩
          exact .releases
        | true =>
          by_cases held : now + arb.lockTimeout < Instant.limit
          · simp only [perform, changeLock, deadlineOf?, Instant.after?, held, ne_eq,
              not_true_eq_false, if_false, if_true, Option.map_some, Option.some.injEq,
              Prod.mk.injEq] at performed
            rcases performed with ⟨rfl, rfl⟩
            exact .sets held
          · simp [perform, changeLock, deadlineOf?, Instant.after?, held] at performed
    | expire now =>
      simp only [perform, Option.some.injEq, Prod.mk.injEq] at performed
      rcases performed with ⟨rfl, rfl⟩
      exact .expires
  · intro performs
    cases performs with
    | accepts allowed => simp [perform, request, allowed]
    | refuses broken => simp [perform, request, broken]
    | sets held => simp [perform, changeLock, deadlineOf?, Instant.after?, held]
    | releases => simp [perform, changeLock, deadlineOf?]
    | keepsLock => simp [perform, changeLock]
    | expires => rfl

/-- Only a local activation can ask for a deadline that the clock cannot hold;
every other event has an outcome. -/
theorem exists_performs (arb : Arbitration) (event : Event)
    (held : ∀ lock now, event = .changeLock lock true .local now →
      now + arb.lockTimeout < Instant.limit) :
    ∃ answer next, Performs arb event answer next := by
  cases event with
  | request requested origin =>
    cases verdict : arb.hazard? requested origin with
    | none => exact ⟨_, _, .accepts verdict⟩
    | some hazard => exact ⟨_, _, .refuses verdict⟩
  | changeLock lock active origin now =>
    cases origin with
    | remote => exact ⟨_, _, .keepsLock⟩
    | «local» =>
      cases active with
      | false => exact ⟨_, _, .releases⟩
      | true => exact ⟨_, _, .sets (held lock now rfl)⟩
  | expire now => exact ⟨_, _, .expires⟩

/-! ## Expiry, interlock by interlock -/

theorem expireOne_deadline (arb : Arbitration) (now : Instant) (released lock : Lock) :
    (arb.expireOne now released).deadlines.get lock =
      if lock = released ∧ arb.expired now lock then none else arb.deadlines.get lock := by
  by_cases same : lock = released
  · subst same
    cases reached : arb.expired now lock <;> simp [expireOne, reached, PerLock.get_set]
  · cases reached : arb.expired now released <;> simp [expireOne, reached, PerLock.get_set, same]

theorem expireOne_flag (arb : Arbitration) (now : Instant) (released lock : Lock) :
    (arb.expireOne now released).locks.get lock =
      if lock = released ∧ arb.expired now lock then false else arb.locks.get lock := by
  by_cases same : lock = released
  · subst same
    cases reached : arb.expired now lock <;> simp [expireOne, reached, Locks.get_set]
  · cases reached : arb.expired now released <;> simp [expireOne, reached, Locks.get_set, same]

/-- An expiry drops exactly the deadlines that are reached. -/
theorem expire_deadline (arb : Arbitration) (now : Instant) (lock : Lock) :
    (arb.expire now).2.deadlines.get lock =
      if arb.expired now lock then none else arb.deadlines.get lock := by
  by_cases reached : Instant.due (arb.deadlines.get lock) now <;> cases lock <;>
    simp [expire, Lock.all, expireOne_deadline, expired, reached]

/-- An expiry clears exactly the flags whose deadlines are reached. -/
theorem expire_flag (arb : Arbitration) (now : Instant) (lock : Lock) :
    (arb.expire now).2.locks.get lock =
      if arb.expired now lock then false else arb.locks.get lock := by
  by_cases reached : Instant.due (arb.deadlines.get lock) now <;> cases lock <;>
    simp [expire, Lock.all, expireOne_flag, expireOne_deadline, expired, reached]

theorem expireOne_accepted (arb : Arbitration) (now : Instant) (lock : Lock) :
    (arb.expireOne now lock).accepted = arb.accepted := by
  unfold expireOne
  split <;> rfl

theorem expireOne_lockTimeout (arb : Arbitration) (now : Instant) (lock : Lock) :
    (arb.expireOne now lock).lockTimeout = arb.lockTimeout := by
  unfold expireOne
  split <;> rfl

@[simp] theorem expire_accepted (arb : Arbitration) (now : Instant) :
    (arb.expire now).2.accepted = arb.accepted := by
  simp [expire, Lock.all, expireOne_accepted]

@[simp] theorem expire_lockTimeout (arb : Arbitration) (now : Instant) :
    (arb.expire now).2.lockTimeout = arb.lockTimeout := by
  simp [expire, Lock.all, expireOne_lockTimeout]

theorem Performs.lockTimeout_eq (performs : Performs arb event answer next) :
    next.lockTimeout = arb.lockTimeout := by
  cases performs <;> simp

/-! ## Whole runs -/

/-- The arbitration at the end of a run; there is none if the clock overflows. -/
def run (arb : Arbitration) : List Event → Option Arbitration
  | [] => some arb
  | event :: rest => (arb.perform event).bind fun step => step.2.run rest

/-- Every arbitration that a run passes through, the first one included. -/
def path (arb : Arbitration) (events : List Event) : Option (List Arbitration) :=
  (arb.trace events).map fun visited => arb :: visited.map (·.2)

theorem path_cons_eq_some_iff {rest : List Event} {points : List Arbitration} :
    arb.path (event :: rest) = some points ↔
      ∃ answer next tail, Performs arb event answer next ∧ next.path rest = some tail ∧
        points = arb :: tail := by
  simp only [path, trace, ← perform_eq_some_iff]
  constructor
  · intro followed
    cases performed : arb.perform event with
    | none => simp [performed] at followed
    | some step =>
      rcases step with ⟨answer, next⟩
      cases later : next.trace rest with
      | none => simp [performed, later] at followed
      | some visited =>
        simp only [performed, later, Option.bind_eq_bind, Option.bind_some, Option.pure_def,
          Option.map_some, List.map_cons, Option.some.injEq] at followed
        exact ⟨answer, next, _, rfl, by rw [later]; rfl, followed.symm⟩
  · rintro ⟨answer, next, tail, performed, later, rfl⟩
    rcases Option.map_eq_some_iff.mp later with ⟨visited, traced, rfl⟩
    simp [performed, traced]

/-- A relation that every event of a run keeps, and that can be composed,
holds between any two points of its path, the earlier one first.  `Fit` is what
is known of all points of the path. -/
theorem path_pairwise {Fit : Arbitration → Prop} {Keeps : Arbitration → Arbitration → Prop}
    [IsTrans Arbitration Keeps] {events : List Event} {points : List Arbitration}
    (followed : arb.path events = some points) (fit : ∀ point ∈ points, Fit point)
    (step : ∀ event ∈ events, ∀ before answer after, Performs before event answer after →
      Fit before → Fit after → Keeps before after) :
    points.Pairwise Keeps := by
  rw [← List.isChain_iff_pairwise]
  induction events generalizing arb points with
  | nil =>
    obtain rfl : [arb] = points := by simpa [path, trace] using followed
    exact .singleton arb
  | cons event rest inductionHypothesis =>
    rcases path_cons_eq_some_iff.mp followed with ⟨answer, next, tail, performs, later, rfl⟩
    rcases Option.map_eq_some_iff.mp later with ⟨visited, -, rfl⟩
    have chained := inductionHypothesis later
      (fun point member => fit point (List.mem_cons_of_mem _ member))
      (fun event member => step event (List.mem_cons_of_mem _ member))
    refine .cons_cons ?_ chained
    exact step event List.mem_cons_self arb answer next performs (fit arb (by simp))
      (fit next (by simp))

end Arbitration
end Ventilation
