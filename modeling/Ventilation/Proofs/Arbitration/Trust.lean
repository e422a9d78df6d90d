import Ventilation.Proofs.Arbitration.Interlocks

namespace Ventilation

/-!
# What trust would help with

A refusal tells its sender whether the request is unsafe whoever asks or only
lacks a trusted sender.  So the rules fall into those that hold for everyone and
those that bind remote senders, and what a trusted sender is told depends on the
former alone.

The rules that hold for everyone are looked at first, with one exception: the
limit on open dampers, which only binds remote senders, comes before the rules
of the laser.  Where all three dampers are to be open with the fan running, it
hides that one of the other dampers would take the air of the laser.  This is
the only case in which a sender is told to come back with trust and would be
refused all the same.
-/

namespace State

variable {before after : State} {locks : Locks}

/-- The first rule that the change breaks among those that hold for everyone. -/
def danger? (before after : State) (locks : Locks) : Option Hazard :=
  broken? (rules.filter fun rule => !rule.remoteOnly) before after locks

/-- The first rule that the change breaks among those that only bind remote senders. -/
def intrusion? (before after : State) (locks : Locks) : Option Hazard :=
  broken? (rules.filter fun rule => rule.remoteOnly) before after locks

theorem kind_of_rule : ∀ rule ∈ rules,
    rule.hazard.kind = if rule.remoteOnly then .notAuthorized else .prohibited := by
  simp [rules, Hazard.kind]

theorem exists_rule {rules : List Rule} {hazard : Hazard}
    (found : broken? rules before after locks = some hazard) :
    ∃ rule ∈ rules, rule.hazard = hazard := by
  rcases Option.map_eq_some_iff.mp found with ⟨rule, first, same⟩
  exact ⟨rule, List.mem_of_find?_eq_some first, same⟩

theorem kind_of_danger {hazard : Hazard} (found : before.danger? after locks = some hazard) :
    hazard.kind = .prohibited := by
  rcases exists_rule found with ⟨rule, listed, rfl⟩
  rcases List.mem_filter.mp listed with ⟨listed, everyone⟩
  rw [kind_of_rule rule listed, if_neg (by simpa using everyone)]

theorem kind_of_intrusion {hazard : Hazard} (found : before.intrusion? after locks = some hazard) :
    hazard.kind = .notAuthorized := by
  rcases exists_rule found with ⟨rule, listed, rfl⟩
  rcases List.mem_filter.mp listed with ⟨listed, remote⟩
  rw [kind_of_rule rule listed, if_pos remote]

theorem Overdrawn.allClosed_eq_false (overdrawn : after.Overdrawn) : after.allClosed = false := by
  have opened := overdrawn.2
  simp only [allOpen, Bool.and_eq_true, decide_eq_true_eq] at opened
  simp [allClosed, opened.2]

/-! ## Which rule is reported to whom -/

/-- A trusted sender is bound by the rules for everyone and by no other. -/
theorem hazard?_local : before.hazard? after .local locks = before.danger? after locks := by
  simp [hazard?, danger?, Rule.binds]

/-- A remote sender is bound by both kinds of rules, in this order, as long as it
keeps the limit on open dampers. -/
theorem hazard?_remote (within : ¬ after.Overdrawn) :
    before.hazard? after .remote locks =
      (before.danger? after locks).or (before.intrusion? after locks) := by
  have limited : ¬ (after.fan = .on ∧ after.allOpen = true) := within
  simp only [hazard?, danger?, intrusion?, rules, Rule.binds, ne_eq, reduceCtorEq,
    not_false_eq_true, decide_true, Bool.or_true, Bool.not_false, Bool.not_true, List.filter_cons,
    List.filter_nil, if_true, Bool.false_eq_true, if_false, broken?_cons, Bool.and_eq_true,
    decide_eq_true_eq, limited]
  split_ifs <;> rfl

/-- A remote sender that does not keep the limit is told so, whatever else is
wrong. -/
theorem hazard?_remote_of_overdrawn (overdrawn : after.Overdrawn) :
    before.hazard? after .remote locks = some .allDampersOpen := by
  simp [hazard?, rules, Rule.binds, broken?_cons, overdrawn.allClosed_eq_false, overdrawn.1,
    overdrawn.2]

/-- Where the limit is not kept, the only rule for everyone that can be broken is
the one on the air of the laser: its damper is not closed and the fan runs. -/
theorem danger?_of_overdrawn (overdrawn : after.Overdrawn) :
    before.danger? after locks =
      if locks.laser && (before.damper2.opensFully after.damper2
        || before.damper3.opensFully after.damper3) then some .otherDamperOpensFully else none := by
  have opened := overdrawn.2
  simp only [allOpen, Bool.and_eq_true, decide_eq_true_eq] at opened
  have seated : before.damper1.closes after.damper1 = false := by
    simp [Damper.closes, opened.1.1]
  have runs : before.stopsFan after = false := by
    simp [stopsFan, overdrawn.1, overdrawn.allClosed_eq_false]
  simp [danger?, rules, broken?_cons, overdrawn.allClosed_eq_false, seated, runs]

end State

namespace Arbitration

variable {arb : Arbitration} {requested : State} {origin : Origin} {hazard : Hazard}

/-- The request exceeds the limit on open dampers and takes the air of the laser
while that is in use. -/
def HidesLaser (arb : Arbitration) (requested : State) : Prop :=
  requested.Overdrawn ∧ arb.locks.laser = true ∧ ∃ current, arb.accepted = some current ∧
    (current.damper2.opensFully requested.damper2 ||
      current.damper3.opensFully requested.damper3) = true

theorem request_eq_error_iff :
    arb.request requested origin = .error hazard ↔
      arb.hazard? requested origin = some hazard := by
  unfold request
  cases arb.hazard? requested origin <;> simp

theorem exists_accepted (allowed : arb.hazard? requested origin = none) :
    ∃ answer, arb.request requested origin = .ok answer := by
  unfold request
  rw [allowed]
  exact ⟨_, rfl⟩

/-- Before the first state there is nothing that could be refused. -/
theorem exists_current (refused : arb.request requested origin = .error hazard) :
    ∃ current, arb.accepted = some current ∧
      current.hazard? requested origin arb.locks = some hazard :=
  Option.bind_eq_some_iff.mp (request_eq_error_iff.mp refused)

theorem request_of_hides (hides : arb.HidesLaser requested) :
    arb.request requested .remote = .error .allDampersOpen ∧
      arb.request requested .local = .error .otherDamperOpensFully := by
  rcases hides with ⟨overdrawn, laser, current, accepted, opens⟩
  constructor
  · rw [request_eq_error_iff, Arbitration.hazard?, accepted, Option.bind_some,
      State.hazard?_remote_of_overdrawn overdrawn]
  · rw [request_eq_error_iff, Arbitration.hazard?, accepted, Option.bind_some,
      State.hazard?_local, State.danger?_of_overdrawn overdrawn, laser, opens]
    rfl

/-- Refusals mean what they say.  A trusted sender is only ever refused what is
prohibited, and what is prohibited to a remote sender is refused to a trusted one
for the same reason.  What a remote sender is not authorized for is accepted from
a trusted one, unless the limit on open dampers hides a rule of the laser.  Then
the remote sender is told of the limit, and a trusted one is refused because of
the laser. -/
theorem refusals_tell_whether_trust_helps (arb : Arbitration) (requested : State) :
    (∀ hazard, arb.request requested .local = .error hazard → hazard.kind = .prohibited) ∧
      (∀ hazard, arb.request requested .remote = .error hazard → hazard.kind = .prohibited →
        arb.request requested .local = .error hazard) ∧
      (∀ hazard, arb.request requested .remote = .error hazard → hazard.kind = .notAuthorized →
        ¬ arb.HidesLaser requested → ∃ answer, arb.request requested .local = .ok answer) ∧
      (arb.HidesLaser requested →
        arb.request requested .remote = .error .allDampersOpen ∧
          arb.request requested .local = .error .otherDamperOpensFully) := by
  refine ⟨?_, ?_, ?_, request_of_hides⟩
  · intro hazard refused
    rcases exists_current refused with ⟨current, accepted, broken⟩
    exact State.kind_of_danger (State.hazard?_local ▸ broken)
  · intro hazard refused prohibited
    rcases exists_current refused with ⟨current, accepted, broken⟩
    have within : ¬ requested.Overdrawn := by
      intro overdrawn
      rw [State.hazard?_remote_of_overdrawn overdrawn] at broken
      cases broken
      cases prohibited
    rw [State.hazard?_remote within, Option.or_eq_some_iff] at broken
    rcases broken with danger | ⟨-, intrusion⟩
    · rw [request_eq_error_iff, Arbitration.hazard?, accepted, Option.bind_some,
        State.hazard?_local, danger]
    · cases prohibited.symm.trans (State.kind_of_intrusion intrusion)
  · intro hazard refused unauthorized unhidden
    rcases exists_current refused with ⟨current, accepted, broken⟩
    apply exists_accepted
    rw [Arbitration.hazard?, accepted, Option.bind_some, State.hazard?_local]
    by_cases overdrawn : requested.Overdrawn
    · rw [State.danger?_of_overdrawn overdrawn, if_neg]
      rw [Bool.and_eq_true]
      rintro ⟨laser, opens⟩
      exact unhidden ⟨overdrawn, laser, current, accepted, opens⟩
    · rw [State.hazard?_remote overdrawn, Option.or_eq_some_iff] at broken
      rcases broken with danger | ⟨safe, -⟩
      · cases unauthorized.symm.trans (State.kind_of_danger danger)
      · exact safe

/-- The damper of the laser is open and both interlocks are set.  Closing that
damper is refused to everyone, half closing it to remote senders only; and
opening all dampers is refused to a remote sender as if trust would help, while
a trusted one is refused as well. -/
theorem refusals_tell_whether_trust_helps_but_at_the_limit :
    ∃ arb, (start (Span.ofSeconds 1800)).run
        [.request ⟨.full, .closed, .closed, .on, .none⟩ .local,
          .changeLock .laser true .local 0, .changeLock .olga true .local 1] = some arb ∧
      arb.request ⟨.closed, .full, .closed, .on, .none⟩ .remote = .error .laserDamperCloses ∧
      arb.request ⟨.closed, .full, .closed, .on, .none⟩ .local = .error .laserDamperCloses ∧
      arb.request ⟨.half, .closed, .closed, .on, .none⟩ .remote = .error .olgaLosesAir ∧
      (∃ answer, arb.request ⟨.half, .closed, .closed, .on, .none⟩ .local = .ok answer) ∧
      Hazard.allDampersOpen.kind = .notAuthorized ∧
      arb.request ⟨.full, .full, .full, .on, .none⟩ .remote = .error .allDampersOpen ∧
      arb.request ⟨.full, .full, .full, .on, .none⟩ .local = .error .otherDamperOpensFully := by
  refine ⟨_, rfl, rfl, ?_, rfl, ?_, rfl, ?_⟩
  · exact (refusals_tell_whether_trust_helps _ _).2.1 _ rfl rfl
  · exact (refusals_tell_whether_trust_helps _ _).2.2.1 _ rfl rfl
      fun hides => absurd hides.1.2 (by decide)
  · exact (refusals_tell_whether_trust_helps _ _).2.2.2 ⟨⟨rfl, rfl⟩, rfl, _, rfl, rfl⟩

end Arbitration
end Ventilation
