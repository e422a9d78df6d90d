import Ventilation.Proofs.Arbitration.Run
import Mathlib.Data.List.Induction
import Mathlib.Order.MinMax

namespace Ventilation

namespace Lock

theorem forall_iff {holds : Lock → Prop} :
    (∀ lock, holds lock) ↔ holds .laser ∧ holds .olga := by
  constructor
  · exact fun all => ⟨all .laser, all .olga⟩
  · rintro ⟨laser, olga⟩ lock
    cases lock <;> assumption

theorem exists_iff {holds : Lock → Prop} :
    (∃ lock, holds lock) ↔ holds .laser ∨ holds .olga := by
  constructor
  · rintro ⟨lock, held⟩
    cases lock
    · exact .inl held
    · exact .inr held
  · rintro (held | held)
    · exact ⟨_, held⟩
    · exact ⟨_, held⟩

end Lock

namespace Arbitration

/-!
# The interlocks as a matter of history

Flag and deadline of an interlock are determined by the events so far, without
any look at the arbitration: the last local change of the interlock decides,
and after an activation the expiries that come too late for its deadline.
Requests, remote changes and the other interlock do not enter.

The proof follows one interlock at a time.  `Event.deadlineAfter` says what an
event makes of its deadline, the flag always says whether there is one, and a
run is a fold of that function.
-/

variable {arb next last : Arbitration} {event : Event} {answer : Answer} {lock : Lock}
  {timeout : Span} {deadline : Instant}

namespace Event

/-- A change of the interlock that its sender is trusted with. -/
def changes (lock : Lock) : Event → Bool
  | .changeLock changed _ .local _ => changed = lock
  | _ => false

/-- An event that can matter to the interlock. -/
def concerns (lock : Lock) : Event → Bool
  | .expire _ => true
  | event => event.changes lock

/-- What an event makes of the deadline of the interlock. -/
def deadlineAfter (timeout : Span) (lock : Lock) (before : Option Instant) :
    Event → Option Instant
  | .changeLock changed active .local now =>
    if changed = lock then if active then some (now + timeout) else none else before
  | .expire now => if Instant.due before now then none else before
  | _ => before

theorem deadlineAfter_of_not_concerns {before : Option Instant}
    (apart : event.concerns lock = false) :
    event.deadlineAfter timeout lock before = before := by
  cases event with
  | request => rfl
  | changeLock changed active origin now =>
    cases origin with
    | remote => rfl
    | «local» => simp_all [concerns, changes, deadlineAfter]
  | expire => simp [concerns] at apart

end Event

/-- The last local change of the interlock among the events sets it, at an
instant that leads to this deadline, and no later expiry reaches the deadline. -/
def SetUntil (timeout : Span) (lock : Lock) (events : List Event) (deadline : Instant) : Prop :=
  ∃ before activated after,
    events = before ++ .changeLock lock true .local activated :: after ∧
    deadline = activated + timeout ∧
    (∀ event ∈ after, event.changes lock = false) ∧
    ∀ now, .expire now ∈ after → now < deadline

/-! ## One event -/

/-- The deadline of an interlock after an event depends on the deadline before
it and on the event alone. -/
theorem Performs.deadline_eq (performs : Performs arb event answer next) (lock : Lock) :
    next.deadlines.get lock =
      event.deadlineAfter arb.lockTimeout lock (arb.deadlines.get lock) := by
  cases performs with
  | accepts => rfl
  | refuses => rfl
  | sets => simp [Event.deadlineAfter, PerLock.get_set, eq_comm]
  | releases => simp [Event.deadlineAfter, PerLock.get_set, eq_comm]
  | keepsLock => rfl
  | expires => exact expire_deadline arb _ lock

/-- If flag and deadline of an interlock agree, they agree after every event. -/
theorem Performs.flag_eq (performs : Performs arb event answer next) (lock : Lock)
    (agree : arb.locks.get lock = (arb.deadlines.get lock).isSome) :
    next.locks.get lock = (next.deadlines.get lock).isSome := by
  cases performs with
  | accepts => exact agree
  | refuses => exact agree
  | sets =>
    simp only [Locks.get_set, PerLock.get_set, agree]
    split <;> rfl
  | releases =>
    simp only [Locks.get_set, PerLock.get_set, agree]
    split <;> rfl
  | keepsLock => exact agree
  | expires =>
    rw [expire_flag, expire_deadline, agree]
    split <;> rfl

/-! ## Whole runs -/

theorem run_cons_eq_some_iff {rest : List Event} :
    arb.run (event :: rest) = some last ↔
      ∃ answer next, Performs arb event answer next ∧ next.run rest = some last := by
  simp only [run, Option.bind_eq_some_iff, Prod.exists, perform_eq_some_iff]

/-- Along a run, a deadline is folded and the flag keeps pace with it. -/
theorem run_deadline_and_flag {events : List Event} (ran : arb.run events = some last)
    (lock : Lock) (agree : arb.locks.get lock = (arb.deadlines.get lock).isSome) :
    last.deadlines.get lock =
        events.foldl (Event.deadlineAfter arb.lockTimeout lock) (arb.deadlines.get lock) ∧
      last.locks.get lock = (last.deadlines.get lock).isSome := by
  induction events generalizing arb with
  | nil =>
    cases ran
    exact ⟨rfl, agree⟩
  | cons event rest inductionHypothesis =>
    rcases run_cons_eq_some_iff.mp ran with ⟨answer, next, performs, ran⟩
    have later := inductionHypothesis ran (performs.flag_eq lock agree)
    rw [performs.lockTimeout_eq, performs.deadline_eq lock] at later
    exact later

/-- A run has an end unless the clock cannot hold the deadline of one of its
activations. -/
theorem exists_run (arb : Arbitration) (events : List Event)
    (held : ∀ lock activated, .changeLock lock true .local activated ∈ events →
      activated + arb.lockTimeout < Instant.limit) :
    ∃ last, arb.run events = some last := by
  induction events generalizing arb with
  | nil => exact ⟨arb, rfl⟩
  | cons event rest inductionHypothesis =>
    obtain ⟨answer, next, performs⟩ := exists_performs arb event
      fun lock now same => held lock now (same ▸ List.mem_cons_self)
    obtain ⟨last, ran⟩ := inductionHypothesis next fun lock activated member => by
      rw [performs.lockTimeout_eq]
      exact held lock activated (List.mem_cons_of_mem _ member)
    exact ⟨last, run_cons_eq_some_iff.mpr ⟨answer, next, performs, ran⟩⟩

/-! ## The fold says what the history says -/

theorem not_setUntil_nil : ¬ SetUntil timeout lock [] deadline := by
  rintro ⟨before, activated, after, split, -⟩
  simp at split

/-- How one more event changes what the history says of an interlock. -/
theorem setUntil_concat_iff {events : List Event} {last : Event} :
    SetUntil timeout lock (events ++ [last]) deadline ↔
      (∃ activated, last = .changeLock lock true .local activated ∧
        deadline = activated + timeout) ∨
      (SetUntil timeout lock events deadline ∧ last.changes lock = false ∧
        ∀ now, last = .expire now → now < deadline) := by
  constructor
  · rintro ⟨before, activated, after, split, named, alone, early⟩
    rcases List.eq_nil_or_concat' after with rfl | ⟨earlier, final, rfl⟩
    · rcases List.append_inj' split rfl with ⟨rfl, same⟩
      exact .inl ⟨activated, by simpa using same, named⟩
    · rw [← List.cons_append, ← List.append_assoc] at split
      rcases List.append_inj' split rfl with ⟨rfl, same⟩
      obtain rfl : last = final := by simpa using same
      refine .inr ⟨⟨before, activated, earlier, rfl, named, ?_, ?_⟩, ?_, ?_⟩
      · exact fun event member => alone event (List.mem_append_left _ member)
      · exact fun now member => early now (List.mem_append_left _ member)
      · exact alone last (by simp)
      · exact fun now same => early now (by simp [same])
  · rintro (⟨activated, rfl, named⟩ | ⟨⟨before, activated, after, rfl, named, alone, early⟩,
      quiet, late⟩)
    · exact ⟨events, activated, [], rfl, named, by simp, by simp⟩
    · refine ⟨before, activated, after ++ [last], by simp, named, ?_, ?_⟩
      · intro event member
        rcases List.mem_append.mp member with member | member
        · exact alone event member
        · exact List.mem_singleton.mp member ▸ quiet
      · intro now member
        rcases List.mem_append.mp member with member | member
        · exact early now member
        · exact late now (List.mem_singleton.mp member).symm

/-- One event keeps, drops or sets the deadline as the history demands. -/
theorem deadlineAfter_eq_some_iff {before : Option Instant} {last : Event} :
    last.deadlineAfter timeout lock before = some deadline ↔
      (∃ activated, last = .changeLock lock true .local activated ∧
        deadline = activated + timeout) ∨
      (before = some deadline ∧ last.changes lock = false ∧
        ∀ now, last = .expire now → now < deadline) := by
  cases last with
  | request => simp [Event.deadlineAfter, Event.changes]
  | changeLock changed active origin now =>
    cases origin with
    | remote => simp [Event.deadlineAfter, Event.changes]
    | «local» =>
      by_cases same : changed = lock
      · cases active <;> simp [Event.deadlineAfter, Event.changes, same, eq_comm]
      · simp [Event.deadlineAfter, Event.changes, same]
  | expire now =>
    cases before with
    | none => simp [Event.deadlineAfter]
    | some current =>
      simp only [Event.deadlineAfter, Instant.due, decide_eq_true_eq, Event.changes, reduceCtorEq,
        false_and, exists_false, false_or, true_and, Event.expire.injEq, forall_eq',
        Option.some.injEq]
      constructor
      · intro kept
        split at kept
        · cases kept
        · next pending =>
          rcases Option.some.inj kept with rfl
          exact ⟨rfl, not_le.mp pending⟩
      · rintro ⟨rfl, early⟩
        rw [if_neg (not_le.mpr early)]

/-- The fold over a run from the start is the deadline that the history gives. -/
theorem foldl_deadlineAfter_eq_some_iff {events : List Event} :
    events.foldl (Event.deadlineAfter timeout lock) none = some deadline ↔
      SetUntil timeout lock events deadline := by
  induction events using List.reverseRecOn with
  | nil =>
    constructor
    · intro impossible
      cases impossible
    · intro given
      exact absurd given not_setUntil_nil
  | append_singleton events last inductionHypothesis =>
    rw [List.foldl_append, List.foldl_cons, List.foldl_nil, deadlineAfter_eq_some_iff,
      setUntil_concat_iff, inductionHypothesis]

/-- Events that do not concern an interlock may be left out of the fold. -/
theorem foldl_deadlineAfter_filter (timeout : Span) (lock : Lock) (events : List Event)
    (before : Option Instant) :
    (events.filter (Event.concerns lock)).foldl (Event.deadlineAfter timeout lock) before =
      events.foldl (Event.deadlineAfter timeout lock) before := by
  rw [List.foldl_filter]
  congr 1
  funext current event
  split
  · rfl
  · next apart => exact (Event.deadlineAfter_of_not_concerns (by simpa using apart)).symm

/-! ## The earliest deadline -/

theorem firstDeadline_eq_some_iff (arb : Arbitration) (first : Instant) :
    arb.firstDeadline = some first ↔
      (∃ lock, arb.deadlines.get lock = some first) ∧
        ∀ lock other, arb.deadlines.get lock = some other → first ≤ other := by
  rw [Lock.forall_iff, Lock.exists_iff]
  simp only [firstDeadline, PerLock.get]
  cases arb.deadlines.laser with
  | none =>
    cases arb.deadlines.olga with
    | none => simp [Instant.earlier?]
    | some olga =>
      simp only [Instant.earlier?, Option.some.injEq, reduceCtorEq, false_or, IsEmpty.forall_iff,
        implies_true, true_and, forall_eq', iff_self_and]
      exact fun same => same.ge
  | some laser =>
    cases arb.deadlines.olga with
    | none =>
      simp only [Instant.earlier?, Option.some.injEq, reduceCtorEq, or_false, IsEmpty.forall_iff,
        implies_true, and_true, forall_eq', iff_self_and]
      exact fun same => same.ge
    | some olga =>
      simp only [Instant.earlier?, Option.some.injEq, forall_eq']
      constructor
      · rintro rfl
        exact ⟨(min_choice laser olga).imp Eq.symm Eq.symm, min_le_left _ _, min_le_right _ _⟩
      · rintro ⟨rfl | rfl, beforeLaser, beforeOlga⟩
        · exact min_eq_left beforeOlga
        · exact min_eq_right beforeLaser

/-- After an expiry every deadline that is left is still to come. -/
theorem lt_of_expire_firstDeadline {now first : Instant}
    (left : (arb.expire now).2.firstDeadline = some first) : now < first := by
  rcases (firstDeadline_eq_some_iff _ _).mp left with ⟨⟨lock, remains⟩, -⟩
  rw [expire_deadline] at remains
  split at remains
  · cases remains
  · next pending => simpa [expired, remains, Instant.due] using pending

/-- An expiry lists the interlocks whose flags it clears. -/
theorem expire_fst_eq (now : Instant)
    (agree : ∀ lock, arb.locks.get lock = (arb.deadlines.get lock).isSome) :
    (arb.expire now).1 =
      Lock.all.filter fun lock => arb.locks.get lock && !(arb.expire now).2.locks.get lock := by
  refine List.filter_congr fun lock _ => ?_
  rw [expire_flag, agree, expired]
  cases arb.deadlines.get lock with
  | none => rfl
  | some deadline => cases reached : Instant.due (some deadline) now <;> simp

/-! ## Flag and deadline follow the history -/

/-- At the end of every run from the start that the clock can hold, an interlock
is set and has a deadline exactly as the history says, and is released without a
deadline otherwise.  Events that do not concern it change nothing about it.  The
earliest deadline is the minimum of those that are set; an expiry lists exactly
the interlocks that it releases, and what is left is still to come, so nothing
is due twice at one instant. -/
theorem interlocks_follow_history (timeout : Span) (events : List Event)
    (held : ∀ lock activated, .changeLock lock true .local activated ∈ events →
      activated + timeout < Instant.limit) :
    ∃ arb, (start timeout).run events = some arb ∧
      (∀ lock,
        (∀ deadline, arb.locks.get lock = true ∧ arb.deadlines.get lock = some deadline ↔
          SetUntil timeout lock events deadline) ∧
        ((¬ ∃ deadline, SetUntil timeout lock events deadline) →
          arb.locks.get lock = false ∧ arb.deadlines.get lock = none) ∧
        ∀ others arb', (start timeout).run others = some arb' →
          others.filter (Event.concerns lock) = events.filter (Event.concerns lock) →
          arb'.locks.get lock = arb.locks.get lock ∧
            arb'.deadlines.get lock = arb.deadlines.get lock) ∧
      (∀ first, arb.firstDeadline = some first ↔
        (∃ lock, arb.deadlines.get lock = some first) ∧
          ∀ lock other, arb.deadlines.get lock = some other → first ≤ other) ∧
      ∀ now,
        (arb.expire now).1 = [Lock.laser, Lock.olga].filter (fun lock =>
          arb.locks.get lock && !(arb.expire now).2.locks.get lock) ∧
        ∀ first, (arb.expire now).2.firstDeadline = some first → now < first := by
  rcases exists_run (start timeout) events held with ⟨arb, ran⟩
  have fromStart : ∀ {others : List Event} {last : Arbitration},
      (start timeout).run others = some last → ∀ lock,
        last.deadlines.get lock = others.foldl (Event.deadlineAfter timeout lock) none ∧
          last.locks.get lock = (last.deadlines.get lock).isSome := by
    intro others last ran lock
    cases lock <;> exact run_deadline_and_flag ran _ rfl
  have history : ∀ lock deadline, arb.deadlines.get lock = some deadline ↔
      SetUntil timeout lock events deadline := by
    intro lock deadline
    rw [(fromStart ran lock).1, foldl_deadlineAfter_eq_some_iff]
  have agree : ∀ lock, arb.locks.get lock = (arb.deadlines.get lock).isSome :=
    fun lock => (fromStart ran lock).2
  refine ⟨arb, ran, fun lock => ⟨fun deadline => ?_, fun never => ?_, ?_⟩,
    firstDeadline_eq_some_iff arb, fun now => ⟨expire_fst_eq now agree, fun first =>
      lt_of_expire_firstDeadline⟩⟩
  · rw [← history, agree]
    constructor
    · exact And.right
    · intro given
      exact ⟨by rw [given]; rfl, given⟩
  · have unset : arb.deadlines.get lock = none := by
      rw [Option.eq_none_iff_forall_ne_some]
      intro deadline given
      exact never ⟨deadline, (history lock deadline).mp given⟩
    exact ⟨by rw [agree, unset]; rfl, unset⟩
  · intro others arb' ran' alike
    have same : arb'.deadlines.get lock = arb.deadlines.get lock := by
      rw [(fromStart ran' lock).1, (fromStart ran lock).1, ← foldl_deadlineAfter_filter,
        alike, foldl_deadlineAfter_filter]
    exact ⟨by rw [(fromStart ran' lock).2, agree, same], same⟩

/-- Both interlocks under restarts, a refused release and times out of order:
the laser is held until `9 + 10`, since its last activation counts and not the
latest one, and the expiry at `18` has released the other interlock. -/
theorem interlocks_follow_history_out_of_order :
    ∃ arb, (start 10).run [.changeLock .laser true .local 12, .request State.shut .remote,
        .changeLock .olga true .local 1, .changeLock .laser true .local 9,
        .changeLock .laser false .remote 3, .expire 18] = some arb ∧
      arb.locks.get .laser = true ∧ arb.deadlines.get .laser = some 19 ∧
      arb.locks.get .olga = false ∧ arb.deadlines.get .olga = none := by
  obtain ⟨arb, ran, law, -, -⟩ := interlocks_follow_history 10
    [.changeLock .laser true .local 12, .request State.shut .remote,
      .changeLock .olga true .local 1, .changeLock .laser true .local 9,
      .changeLock .laser false .remote 3, .expire 18] (by
      intro lock activated member
      simp only [List.mem_cons, Event.changeLock.injEq, reduceCtorEq, List.not_mem_nil, or_false,
        false_or, and_false, false_and] at member
      obtain ⟨-, -, -, rfl⟩ | ⟨-, -, -, rfl⟩ | ⟨-, -, -, rfl⟩ := member <;> decide)
  have laser := ((law .laser).1 19).mpr ⟨[.changeLock .laser true .local 12,
    .request State.shut .remote, .changeLock .olga true .local 1], 9,
    [.changeLock .laser false .remote 3, .expire 18], rfl, rfl, by decide, by simp⟩
  have olga := (law .olga).2.1 (by
    rintro ⟨deadline, given⟩
    rw [← foldl_deadlineAfter_eq_some_iff] at given
    cases given)
  exact ⟨arb, ran, laser.1, laser.2, olga.1, olga.2⟩

end Arbitration
end Ventilation
