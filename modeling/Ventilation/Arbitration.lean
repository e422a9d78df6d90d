import Ventilation.Clock
import Ventilation.Transition

namespace Ventilation

/-!
# Arbitration

The one place where the canonical state and the interlocks change.  The first
state is accepted unseen, since there is nothing to compare it with; every
later one has to pass the rules of `State.hazard?`.  An accepted state with all
dampers closed has its fan switched off without a word.  Each interlock has a
deadline of its own that every activation sets anew.

Time is an argument, so the whole arbitration is a function of its events.
-/

/-- Canonical state, interlock flags and interlock deadlines. -/
structure Arbitration where
  lockTimeout : Span
  accepted : Option State
  locks : Locks
  deadlines : PerLock (Option Instant)
  deriving DecidableEq, Repr

namespace Arbitration

def start (lockTimeout : Span) : Arbitration := ⟨lockTimeout, none, .none, ⟨none, none⟩⟩

def state (arb : Arbitration) : Option State := arb.accepted.map (·.withLocks arb.locks)

/-- The rule that a requested state breaks, if any; the first state breaks none. -/
def hazard? (arb : Arbitration) (requested : State) (origin : Origin) : Option Hazard :=
  arb.accepted.bind fun current => current.hazard? requested origin arb.locks

/-- The state that an allowed request leads to: dampers as asked, the fan off
if all dampers are closed, the flags as they are. -/
def settle (locks : Locks) (requested : State) : State :=
  { requested with fan := if requested.allClosed then .off else requested.fan, locks := locks }

/-- Judge a requested state and adopt it if it is allowed. -/
def request (arb : Arbitration) (requested : State) (origin : Origin) :
    Except Hazard (State × Arbitration) :=
  match arb.hazard? requested origin with
  | some hazard => .error hazard
  | none =>
    let next := settle arb.locks requested
    .ok (next, { arb with accepted := some next })

/-- Why an interlock is not changed. -/
inductive LockFault
  /-- The sender may not touch interlocks. -/
  | refused (hazard : Hazard)
  /-- The clock cannot hold the deadline. -/
  | clockOverflow
  deriving DecidableEq, Repr

def remoteHazard : Lock → Hazard
  | .laser => .laserLockRemote
  | .olga => .olgaLockRemote

/-- The deadline of an interlock that is set or released now.  The inner
option is the deadline itself, the outer one says that the clock can hold it. -/
def deadlineOf? (lockTimeout : Span) (active : Bool) (now : Instant) : Option (Option Instant) :=
  if active then (now.after? lockTimeout).map some else some none

/-- Set or release an interlock; an activation starts its deadline anew. -/
def changeLock (arb : Arbitration) (lock : Lock) (active : Bool) (origin : Origin)
    (now : Instant) : Except LockFault Arbitration :=
  if origin ≠ .local then .error (.refused (remoteHazard lock))
  else match deadlineOf? arb.lockTimeout active now with
    | none => .error .clockOverflow
    | some deadline =>
      .ok { arb with
        locks := arb.locks.set lock active
        deadlines := arb.deadlines.set lock deadline }

def expired (arb : Arbitration) (now : Instant) (lock : Lock) : Bool :=
  Instant.due (arb.deadlines.get lock) now

/-- Release one interlock if its deadline is reached. -/
def expireOne (arb : Arbitration) (now : Instant) (lock : Lock) : Arbitration :=
  if arb.expired now lock then
    { arb with
      locks := arb.locks.set lock false
      deadlines := arb.deadlines.set lock none }
  else arb

def expire (arb : Arbitration) (now : Instant) : List Lock × Arbitration :=
  (Lock.all.filter (arb.expired now), Lock.all.foldl (expireOne · now) arb)

def firstDeadline (arb : Arbitration) : Option Instant :=
  Instant.earlier? arb.deadlines.laser arb.deadlines.olga

/-- What can be asked of the arbitration. -/
inductive Event
  | request (requested : State) (origin : Origin)
  | changeLock (lock : Lock) (active : Bool) (origin : Origin) (now : Instant)
  | expire (now : Instant)
  deriving DecidableEq, Repr

inductive Answer
  | accepted (state : State)
  | locks (locks : Locks)
  | expired (released : List Lock)
  | refused (hazard : Hazard)
  deriving DecidableEq, Repr

/-- One event with its answer; there is none if the clock overflows. -/
def perform (arb : Arbitration) : Event → Option (Answer × Arbitration)
  | .request requested origin =>
    match arb.request requested origin with
    | .ok (state, next) => some (.accepted state, next)
    | .error hazard => some (.refused hazard, arb)
  | .changeLock lock active origin now =>
    match arb.changeLock lock active origin now with
    | .ok next => some (.locks next.locks, next)
    | .error (.refused hazard) => some (.refused hazard, arb)
    | .error .clockOverflow => none
  | .expire now =>
    let (released, next) := arb.expire now
    some (.expired released, next)

/-- The answers to a list of events, each with the arbitration it leaves. -/
def trace (arb : Arbitration) : List Event → Option (List (Answer × Arbitration))
  | [] => some []
  | event :: rest => do
    let (answer, next) ← arb.perform event
    let later ← next.trace rest
    return (answer, next) :: later

end Arbitration

end Ventilation
