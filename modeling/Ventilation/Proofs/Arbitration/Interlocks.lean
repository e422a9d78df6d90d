import Ventilation.Proofs.Arbitration.Run

namespace Ventilation

/-!
# What the interlocks and the limit on remote senders hold back

The rules judge one request at a time.  Here they are read as relations between
states: what a set interlock keeps, whatever is asked for, can be composed, so
it holds between any two points of a run during which the interlock is set.
The fan that is switched off without a word is part of the accepted state and
so of every point.

Only accepted requests move anything.  An interlock change or an expiry leaves
dampers and fan alone, and no relation looks at the flags in a state.
-/

/-! ## Moves that a rule excludes -/

namespace Damper

variable {before after : Damper}

theorem closes_eq_false_iff :
    before.closes after = false ↔ (before ≠ .closed → after ≠ .closed) := by
  cases before <;> cases after <;> decide

theorem opensFully_eq_false_iff :
    before.opensFully after = false ↔ (before ≠ .full → after ≠ .full) := by
  cases before <;> cases after <;> decide

theorem opens_eq_false_iff :
    before.opens after = false ↔ after = before ∨ after = .closed := by
  cases before <;> cases after <;> decide

end Damper

namespace State

variable {before middle after : State} {origin : Origin} {locks : Locks}

theorem stopsFan_eq_false_iff :
    before.stopsFan after = false ↔
      (before.fan = .on → after.fan = .on ∧ after.allClosed = false) := by
  simp [stopsFan]

/-- Every rule is kept, in whatever order the rules are tried. -/
structure Allows (before after : State) (origin : Origin) (locks : Locks) : Prop where
  airForStart : before.startsFan after = true → after.allClosed = false
  limit : after.fan = .on → origin = .remote → after.allOpen = false
  laserDamper : locks.laser = true → before.damper1.closes after.damper1 = false
  laserAir : locks.laser = true → before.damper2.opensFully after.damper2 = false ∧
    before.damper3.opensFully after.damper3 = false
  laserFan : locks.laser = true → before.stopsFan after = false
  olgaFan : locks.olga = true → origin = .remote → before.stopsFan after = false
  olgaAir : locks.olga = true → origin = .remote →
    before.damper2.closes after.damper2 = false ∧
      before.damper3.closes after.damper3 = false ∧ before.damper1.opens after.damper1 = false

theorem hazard?_eq_none_iff :
    before.hazard? after origin locks = none ↔ before.Allows after origin locks := by
  have foreign : origin ≠ .local ↔ origin = .remote := by cases origin <;> decide
  simp only [hazard?, broken?_eq_none_iff, List.mem_filter, and_imp, rules, Rule.binds,
    List.forall_mem_cons, List.not_mem_nil, false_imp_iff, implies_true, and_true,
    Bool.not_false, Bool.not_true, Bool.true_or, Bool.false_or, forall_const, decide_eq_true_eq,
    foreign, Bool.and_eq_false_imp, Bool.or_eq_false_iff, and_assoc]
  constructor
  · rintro ⟨start, limit, damper, air, fan, olgaFan, olgaAir⟩
    exact ⟨start, fun runs remote => limit remote runs, damper, air, fan,
      fun set remote => olgaFan remote set, fun set remote => olgaAir remote set⟩
  · intro allows
    exact ⟨allows.airForStart, fun remote runs => allows.limit runs remote, allows.laserDamper,
      allows.laserAir, allows.laserFan, fun remote set => allows.olgaFan set remote,
      fun remote set => allows.olgaAir set remote⟩

/-! ## What is kept between two states -/

/-- What the laser cutter relies on: its own damper stays off its seat, the
others do not take its air, and the fan goes on. -/
structure KeepsLaser (before after : State) : Prop where
  damper1 : before.damper1 ≠ .closed → after.damper1 ≠ .closed
  damper2 : before.damper2 ≠ .full → after.damper2 ≠ .full
  damper3 : before.damper3 ≠ .full → after.damper3 ≠ .full
  fan : before.fan = .on → after.fan = .on

theorem KeepsLaser.trans (first : before.KeepsLaser middle) (second : middle.KeepsLaser after) :
    before.KeepsLaser after where
  damper1 := second.damper1 ∘ first.damper1
  damper2 := second.damper2 ∘ first.damper2
  damper3 := second.damper3 ∘ first.damper3
  fan := second.fan ∘ first.fan

/-- What the OLGA workplace relies on against remote senders: its dampers stay
off their seats, the fan goes on, and damper 1 stays where it is or closes. -/
structure KeepsOlga (before after : State) : Prop where
  damper1 : after.damper1 = before.damper1 ∨ after.damper1 = .closed
  damper2 : before.damper2 ≠ .closed → after.damper2 ≠ .closed
  damper3 : before.damper3 ≠ .closed → after.damper3 ≠ .closed
  fan : before.fan = .on → after.fan = .on

theorem KeepsOlga.trans (first : before.KeepsOlga middle) (second : middle.KeepsOlga after) :
    before.KeepsOlga after where
  damper1 := by
    rcases second.damper1 with same | closed
    · exact same ▸ first.damper1
    · exact .inr closed
  damper2 := second.damper2 ∘ first.damper2
  damper3 := second.damper3 ∘ first.damper3
  fan := second.fan ∘ first.fan

/-- The fan runs and no damper is closed, which remote senders may not ask for. -/
def Overdrawn (state : State) : Prop := state.fan = .on ∧ state.allOpen = true

/-- The state is not overdrawn unless it was. -/
def KeepsLimit (before after : State) : Prop := after.Overdrawn → before.Overdrawn

/-! ## What an allowed request keeps -/

/-- A request that lets a running fan run is not switched off either. -/
theorem settle_fan_of_not_stopsFan (kept : before.stopsFan after = false)
    (runs : before.fan = .on) : (Arbitration.settle locks after).fan = .on := by
  rcases stopsFan_eq_false_iff.mp kept runs with ⟨on, passes⟩
  simp [Arbitration.settle, on, passes]

theorem Allows.keepsLaser (allows : before.Allows after origin locks) (set : locks.laser = true) :
    before.KeepsLaser (Arbitration.settle locks after) where
  damper1 := Damper.closes_eq_false_iff.mp (allows.laserDamper set)
  damper2 := Damper.opensFully_eq_false_iff.mp (allows.laserAir set).1
  damper3 := Damper.opensFully_eq_false_iff.mp (allows.laserAir set).2
  fan := settle_fan_of_not_stopsFan (allows.laserFan set)

theorem Allows.keepsOlga (allows : before.Allows after .remote locks) (set : locks.olga = true) :
    before.KeepsOlga (Arbitration.settle locks after) where
  damper1 := Damper.opens_eq_false_iff.mp (allows.olgaAir set rfl).2.2
  damper2 := Damper.closes_eq_false_iff.mp (allows.olgaAir set rfl).1
  damper3 := Damper.closes_eq_false_iff.mp (allows.olgaAir set rfl).2.1
  fan := settle_fan_of_not_stopsFan (allows.olgaFan set rfl)

/-- An allowed remote request leads to no overdrawn state at all.  The override
only ever switches the fan off, so it cannot bring one about. -/
theorem Allows.not_overdrawn (allows : before.Allows after .remote locks) :
    ¬ (Arbitration.settle locks after).Overdrawn := by
  rintro ⟨runs, opened⟩
  have on : after.fan = .on := by
    simp only [Arbitration.settle] at runs
    split at runs
    · cases runs
    · exact runs
  exact absurd opened (Bool.eq_false_iff.mp (allows.limit on rfl))

end State

namespace Arbitration

open State (KeepsLaser KeepsOlga KeepsLimit Overdrawn)

variable {arb before after : Arbitration} {event : Event} {answer : Answer}

/-! ## From states to points of a run -/

/-- Once a state is known it stays known, and the later state keeps what the
relation says of the earlier one. -/
def Follows (keeps : State → State → Prop) (earlier later : Arbitration) : Prop :=
  ∀ state, earlier.state = some state → ∃ next, later.state = some next ∧ keeps state next

theorem Follows.trans {keeps : State → State → Prop} {first second third : Arbitration}
    (start : Follows keeps first second) (rest : Follows keeps second third)
    (compose : ∀ before middle after, keeps before middle → keeps middle after →
      keeps before after) :
    Follows keeps first third := by
  intro state known
  rcases start state known with ⟨middle, reached, kept⟩
  rcases rest middle reached with ⟨final, arrived, keptOn⟩
  exact ⟨final, arrived, compose _ _ _ kept keptOn⟩

instance : IsTrans Arbitration (Follows KeepsLaser) :=
  ⟨fun _ _ _ start rest => start.trans rest fun _ _ _ => KeepsLaser.trans⟩

instance : IsTrans Arbitration (Follows KeepsOlga) :=
  ⟨fun _ _ _ start rest => start.trans rest fun _ _ _ => KeepsOlga.trans⟩

instance : IsTrans Arbitration (Follows KeepsLimit) :=
  ⟨fun _ _ _ start rest => start.trans rest fun _ _ _ early late => early ∘ late⟩

/-- A relation that ignores flags is kept by every event if allowed requests
keep it: nothing else moves a damper or the fan. -/
theorem Performs.follows {keeps : State → State → Prop}
    (performs : Performs before event answer after)
    (flags : ∀ (state : State) first second,
      keeps (state.withLocks first) (state.withLocks second))
    (requests : ∀ (current : State) requested origin, event = .request requested origin →
      current.Allows requested origin before.locks →
      keeps (current.withLocks before.locks) (settle before.locks requested)) :
    Follows keeps before after := by
  intro state known
  rcases Option.map_eq_some_iff.mp known with ⟨current, accepted, rfl⟩
  have unmoved : ∀ {later : Arbitration}, later.accepted = before.accepted →
      ∃ next, later.state = some next ∧ keeps (current.withLocks before.locks) next := by
    intro later same
    exact ⟨current.withLocks later.locks, by simp [Arbitration.state, same, accepted],
      flags current _ _⟩
  cases performs with
  | accepts allowed =>
    refine ⟨_, rfl, requests current _ _ rfl ?_⟩
    rw [← State.hazard?_eq_none_iff]
    simpa [Arbitration.hazard?, accepted] using allowed
  | refuses => exact unmoved rfl
  | sets => exact unmoved rfl
  | releases => exact unmoved rfl
  | keepsLock => exact unmoved rfl
  | expires => exact unmoved (expire_accepted before _)

/-! ## Whole runs -/

/-- While the laser interlock is set, between any two points of a run its
damper is not closed, no other damper is fully opened and the fan is not
stopped, whoever asks and whatever else happens. -/
theorem laser_is_kept_along_runs {events : List Event} {points : List Arbitration}
    (followed : arb.path events = some points)
    (held : ∀ point ∈ points, point.locks.laser = true) :
    points.Pairwise (Follows KeepsLaser) := by
  refine path_pairwise followed held fun event _ before answer after performs set _ => ?_
  refine performs.follows (fun _ _ _ => ⟨id, id, id, id⟩) ?_
  intro current requested origin _ allows
  exact { allows.keepsLaser set with }

/-- The laser cutter is in use: closing everything is refused, half opening a
damper is not, the other interlock is set, and its own is renewed in time. -/
theorem laser_is_kept_along_a_busy_run :
    ∃ points, Arbitration.path
        ⟨60, some ⟨.full, .closed, .half, .on, ⟨true, false⟩⟩, ⟨true, false⟩, ⟨some 60, none⟩⟩
        [.request ⟨.closed, .closed, .closed, .on, .none⟩ .local,
          .request ⟨.half, .half, .half, .on, .none⟩ .local,
          .changeLock .olga true .local 5, .changeLock .laser true .local 30,
          .expire 65] = some points ∧
      points.length = 6 ∧ points.Pairwise (Follows KeepsLaser) :=
  ⟨_, rfl, rfl, @laser_is_kept_along_runs
    ⟨60, some ⟨.full, .closed, .half, .on, ⟨true, false⟩⟩, ⟨true, false⟩, ⟨some 60, none⟩⟩
    [.request ⟨.closed, .closed, .closed, .on, .none⟩ .local,
      .request ⟨.half, .half, .half, .on, .none⟩ .local,
      .changeLock .olga true .local 5, .changeLock .laser true .local 30, .expire 65]
    _ rfl (by decide)⟩

/-- With remote requests only, a running fan with no damper closed never comes
about between two points of a run; and while the OLGA interlock is set, the fan
is not stopped, dampers 2 and 3 are not closed, and damper 1 stays where it is
or closes for good. -/
theorem remote_requests_keep_limits {events : List Event} {points : List Arbitration}
    (followed : arb.path events = some points)
    (remote : ∀ requested origin, .request requested origin ∈ events → origin = .remote) :
    points.Pairwise (Follows KeepsLimit) ∧
      ((∀ point ∈ points, point.locks.olga = true) → points.Pairwise (Follows KeepsOlga)) := by
  constructor
  · have everywhere : ∀ point ∈ points, True := fun _ _ => trivial
    refine path_pairwise followed everywhere ?_
    intro event member before answer after performs _ _
    refine performs.follows (fun _ _ _ => id) ?_
    intro current requested origin same allows overdrawn
    rcases remote requested origin (same ▸ member) with rfl
    exact absurd overdrawn allows.not_overdrawn
  · intro held
    refine path_pairwise followed held fun event member before answer after performs set _ => ?_
    refine performs.follows (fun _ _ _ => ⟨.inl rfl, id, id, id⟩) ?_
    intro current requested origin same allows
    rcases remote requested origin (same ▸ member) with rfl
    exact { allows.keepsOlga set with }

/-- A remote sender tries the limit and the OLGA interlock in turn.  Opening all
dampers and opening damper 1 again are refused; closing damper 1 is not. -/
theorem remote_requests_keep_limits_in_turn :
    ∃ points, Arbitration.path
        ⟨60, some ⟨.half, .full, .closed, .on, ⟨false, true⟩⟩, ⟨false, true⟩, ⟨none, some 60⟩⟩
        [.request ⟨.half, .full, .full, .on, .none⟩ .remote,
          .request ⟨.closed, .full, .closed, .on, .none⟩ .remote,
          .changeLock .laser true .local 3, .changeLock .olga false .remote 4,
          .request ⟨.full, .full, .closed, .on, .none⟩ .remote, .expire 59] = some points ∧
      points.length = 7 ∧ points.Pairwise (Follows KeepsLimit) ∧
        points.Pairwise (Follows KeepsOlga) := by
  have kept := @remote_requests_keep_limits
    ⟨60, some ⟨.half, .full, .closed, .on, ⟨false, true⟩⟩, ⟨false, true⟩, ⟨none, some 60⟩⟩
    [.request ⟨.half, .full, .full, .on, .none⟩ .remote,
      .request ⟨.closed, .full, .closed, .on, .none⟩ .remote,
      .changeLock .laser true .local 3, .changeLock .olga false .remote 4,
      .request ⟨.full, .full, .closed, .on, .none⟩ .remote, .expire 59]
    _ rfl (by
      intro requested origin member
      simp only [List.mem_cons, Event.request.injEq, reduceCtorEq, List.not_mem_nil, or_false,
        false_or] at member
      obtain ⟨-, rfl⟩ | ⟨-, rfl⟩ | ⟨-, rfl⟩ := member <;> rfl)
  exact ⟨_, rfl, rfl, kept.1, kept.2 (by decide)⟩

end Arbitration
end Ventilation
