import Ventilation.State
import Ventilation.Refusal

namespace Ventilation

/-!
# Which changes of state are allowed

A requested state is compared with the current one, damper by damper.  Rules
that hold for everyone come before those that only bind remote senders, except
that the limit on open dampers is looked at before any interlock.  The first
rule that is broken is the one that is reported.
-/

namespace Damper

/-- The damper is moved onto its seat. -/
def closes (before after : Damper) : Bool := before ≠ after && after = .closed

/-- The damper is moved all the way open. -/
def opensFully (before after : Damper) : Bool := before ≠ after && after = .full

/-- The damper is moved, and not onto its seat. -/
def opens (before after : Damper) : Bool := before ≠ after && after ≠ .closed

end Damper

namespace State

def startsFan (before after : State) : Bool := before.fan ≠ after.fan && after.fan = .on

/-- A running fan is to stop.  Closing every damper stops the fan as well,
because it never runs against closed dampers. -/
def stopsFan (before after : State) : Bool :=
  before.fan = .on && (after.fan ≠ .on || after.allClosed)

/-- A rule: what is reported when it is broken, whether it only binds remote
senders, and which changes break it. -/
structure Rule where
  hazard : Hazard
  remoteOnly : Bool
  breaks : State → State → Locks → Bool

def Rule.binds (rule : Rule) (origin : Origin) : Bool := !rule.remoteOnly || origin ≠ .local

/-- All rules, in the order in which they are looked at. -/
def rules : List Rule := [
  ⟨.fanStartsShut, false, fun before after _ => before.startsFan after && after.allClosed⟩,
  ⟨.allDampersOpen, true, fun _ after _ => after.fan = .on && after.allOpen⟩,
  ⟨.laserDamperCloses, false, fun before after locks =>
    locks.laser && before.damper1.closes after.damper1⟩,
  ⟨.otherDamperOpensFully, false, fun before after locks =>
    locks.laser && (before.damper2.opensFully after.damper2
      || before.damper3.opensFully after.damper3)⟩,
  ⟨.laserLosesFan, false, fun before after locks => locks.laser && before.stopsFan after⟩,
  ⟨.olgaLosesFan, true, fun before after locks => locks.olga && before.stopsFan after⟩,
  ⟨.olgaLosesAir, true, fun before after locks =>
    locks.olga && (before.damper2.closes after.damper2 || before.damper3.closes after.damper3
      || before.damper1.opens after.damper1)⟩]

/-- The first of some rules that the change from `before` to `after` breaks. -/
def broken? (rules : List Rule) (before after : State) (locks : Locks) : Option Hazard :=
  (rules.find? fun rule => rule.breaks before after locks).map Rule.hazard

@[simp] theorem broken?_nil (before after : State) (locks : Locks) :
    broken? [] before after locks = none := rfl

theorem broken?_cons (rule : Rule) (rest : List Rule) (before after : State) (locks : Locks) :
    broken? (rule :: rest) before after locks =
      if rule.breaks before after locks then some rule.hazard
      else broken? rest before after locks := by
  unfold broken?
  rw [List.find?_cons]
  cases rule.breaks before after locks <;> rfl

theorem broken?_eq_none_iff {rules : List Rule} {before after : State} {locks : Locks} :
    broken? rules before after locks = none ↔
      ∀ rule ∈ rules, rule.breaks before after locks = false := by
  simp [broken?]

/-- What is reported of a change: the first rule it breaks of those that bind its
sender. -/
def hazard? (before after : State) (origin : Origin) (locks : Locks) : Option Hazard :=
  broken? (rules.filter (·.binds origin)) before after locks

/-- Every combination of dampers and fan without interlocks, damper 1 varying
slowest and the fan fastest. -/
def outputs : List State :=
  Damper.all.flatMap fun damper1 =>
    Damper.all.flatMap fun damper2 =>
      Damper.all.flatMap fun damper3 =>
        Fan.all.map fun fan => ⟨damper1, damper2, damper3, fan, .none⟩

end State

end Ventilation
