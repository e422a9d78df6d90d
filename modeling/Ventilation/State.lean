namespace Ventilation

/-!
# The state of the ventilation

Three dampers, a fan and two interlock flags.  A state is what a client asks
for, what the arbitration accepts and what is shown to everyone; the flags in
it only report the interlocks, so a requested state may carry any flags and
they are overwritten when it is accepted.
-/

/-- Position of one damper.  Damper 1 serves the laser cutter, dampers 2 and 3
serve the rest of the space. -/
inductive Damper
  | closed
  | half
  | full
  deriving DecidableEq, Repr, Inhabited

namespace Damper

/-- The word for a position, on the wire and in texts. -/
def name : Damper → String
  | closed => "closed"
  | half => "halfopen"
  | full => "open"

/-- All positions, in the order in which they are listed to people. -/
def all : List Damper := [closed, half, full]

end Damper

/-- The single fan behind all dampers. -/
inductive Fan
  | off
  | on
  deriving DecidableEq, Repr, Inhabited

namespace Fan

/-- The word for a fan state, on the wire and in texts. -/
def name : Fan → String
  | off => "off"
  | on => "on"

/-- Both fan states, in the order in which they are listed to people. -/
def all : List Fan := [off, on]

end Fan

/-- The two interlocks: the laser cutter is in use, or the OLGA workplace needs
its ventilation. -/
inductive Lock
  | laser
  | olga
  deriving DecidableEq, Repr, Inhabited

namespace Lock

/-- The word for an interlock in texts. -/
def name : Lock → String
  | laser => "laser"
  | olga => "olga"

/-- Both interlocks, in the order in which they are always visited. -/
def all : List Lock := [laser, olga]

theorem mem_all (k : Lock) : k ∈ all := by cases k <;> decide

end Lock

/-- Which interlocks are set. -/
structure Locks where
  laser : Bool
  olga : Bool
  deriving DecidableEq, Repr, Inhabited

namespace Locks

def none : Locks := ⟨false, false⟩

def get (locks : Locks) : Lock → Bool
  | .laser => locks.laser
  | .olga => locks.olga

def set (locks : Locks) (lock : Lock) (active : Bool) : Locks :=
  match lock with
  | .laser => { locks with laser := active }
  | .olga => { locks with olga := active }

theorem get_set (locks : Locks) (changed : Lock) (active : Bool) (lock : Lock) :
    (locks.set changed active).get lock = if lock = changed then active else locks.get lock := by
  cases changed <;> cases lock <;> rfl

end Locks

structure PerLock (α : Type) where
  laser : α
  olga : α
  deriving DecidableEq, Repr

namespace PerLock

variable {α : Type}

def get (values : PerLock α) : Lock → α
  | .laser => values.laser
  | .olga => values.olga

def set (values : PerLock α) (lock : Lock) (value : α) : PerLock α :=
  match lock with
  | .laser => { values with laser := value }
  | .olga => { values with olga := value }

theorem get_set (values : PerLock α) (changed : Lock) (value : α) (lock : Lock) :
    (values.set changed value).get lock = if lock = changed then value else values.get lock := by
  cases changed <;> cases lock <;> rfl

end PerLock

/-- Whether the sender of an event is trusted.  Feeds of the building and
clients that present the token are local, all other clients are remote. -/
inductive Origin
  | local
  | remote
  deriving DecidableEq, Repr, Inhabited

/-- Positions of the dampers, state of the fan and interlock flags. -/
structure State where
  damper1 : Damper
  damper2 : Damper
  damper3 : Damper
  fan : Fan
  locks : Locks
  deriving DecidableEq, Repr, Inhabited

namespace State

/-- Everything closed and off, no interlock. -/
def shut : State := ⟨.closed, .closed, .closed, .off, .none⟩

def withLocks (state : State) (locks : Locks) : State := { state with locks := locks }

/-- No air can pass. -/
def allClosed (state : State) : Bool :=
  state.damper1 = .closed && state.damper2 = .closed && state.damper3 = .closed

/-- No damper is closed; half open counts as open. -/
def allOpen (state : State) : Bool :=
  state.damper1 ≠ .closed && state.damper2 ≠ .closed && state.damper3 ≠ .closed

/-- The dampers stand alike, whatever fan and interlocks do. -/
def sameDampers (first second : State) : Bool :=
  first.damper1 = second.damper1 && first.damper2 = second.damper2
    && first.damper3 = second.damper3

/-- The same dampers and fan, whatever the interlocks say. -/
def sameOutputs (first second : State) : Bool :=
  first.sameDampers second && first.fan = second.fan

/-- One line for people and logs. -/
def describe (state : State) : String :=
  "D1=" ++ state.damper1.name ++ " D2=" ++ state.damper2.name ++ " D3=" ++ state.damper3.name
    ++ " fan=" ++ state.fan.name ++ " laser=" ++ toString state.locks.laser
    ++ " olga=" ++ toString state.locks.olga

end State

end Ventilation
