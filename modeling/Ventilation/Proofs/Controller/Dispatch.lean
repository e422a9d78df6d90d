import Ventilation.Controller.Actuator
import Mathlib.Data.List.Basic

namespace Ventilation
namespace Controller

/-!
# When commands go out

A call asks for a state at an instant, and its command departs at once or when
the motors have had their time since the command before.  Whether a damper moves
is judged by the state that went out last, and so is the instant from which the
time counts.  The dispatches of some calls are these departures, one for each.

As long as nothing is asked for before the last command has gone out, whatever
moves a damper keeps its distance from everything before that moves one.
-/

/-- A command with the instants at which it was asked for and went out, and
whether it moves a damper. -/
structure Dispatch where
  asked : Instant
  state : State
  moves : Bool
  gone : Instant
  deriving DecidableEq, Repr

namespace Dispatch

/-- What goes over the link, and when. -/
def frame (target : UInt8) (dispatch : Dispatch) : Instant × List UInt8 :=
  (dispatch.gone, (commandFrame target dispatch.state).bytes)

end Dispatch

namespace Pacing

variable {pacing : Pacing} {asked : Instant} {state : State}

/-- Whether a state moves a damper.  Nobody knows how the dampers stand before
the first command, so that one moves them. -/
def moves (pacing : Pacing) (state : State) : Bool :=
  !pacing.last.any fun last => last.1.sameDampers state

/-- When the command for a state departs: when it is asked for if it is the first
or leaves the dampers alone, else not before the motors have had their time. -/
def departure (pacing : Pacing) (asked : Instant) (state : State) : Instant :=
  match pacing.last with
  | none => asked
  | some (previous, sent) =>
    if previous.sameDampers state then asked else max asked (sent + pacing.interval)

def dispatch (pacing : Pacing) (call : Instant × State) : Dispatch :=
  ⟨call.1, call.2, pacing.moves call.2, pacing.departure call.1 call.2⟩

def after (pacing : Pacing) (call : Instant × State) : Pacing :=
  pacing.sent call.2 (pacing.departure call.1 call.2)

/-- The dispatches of some calls, one after another. -/
def dispatches (pacing : Pacing) : List (Instant × State) → List Dispatch
  | [] => []
  | call :: rest => pacing.dispatch call :: (pacing.after call).dispatches rest

/-! ## One call -/

theorem le_departure (pacing : Pacing) (asked : Instant) (state : State) :
    asked ≤ pacing.departure asked state := by
  unfold departure
  split
  · exact Nat.le_refl asked
  · split
    · exact Nat.le_refl asked
    · exact Nat.le_max_left asked _

theorem frame_dispatch {target : UInt8} {now : Instant}
    (departs : pacing.departure asked state = now) :
    (pacing.dispatch (asked, state)).frame target = (now, (commandFrame target state).bytes) :=
  congrArg (·, (commandFrame target state).bytes) departs

/-- The clock can hold what is ready, and it is the departure. -/
theorem eq_departure_of_readyAt? {ready : Instant}
    (found : pacing.readyAt? state asked = some ready) :
    ready = pacing.departure asked state := by
  unfold readyAt? at found
  unfold departure
  cases last : pacing.last with
  | none =>
    simp only [last, Option.some.injEq] at found
    exact found.symm
  | some before =>
    simp only [last] at found
    split at found
    · next same => exact (Option.some.inj found).symm.trans (if_pos same).symm
    · next differs =>
      rcases Option.map_eq_some_iff.mp found with ⟨later, held, rfl⟩
      rw [Instant.after?_eq_some held]
      exact (if_neg differs).symm

/-- The clock cannot hold the departure if nothing is ready. -/
theorem limit_le_departure (lost : pacing.readyAt? state asked = none) :
    Instant.limit ≤ pacing.departure asked state := by
  unfold readyAt? at lost
  unfold departure
  cases last : pacing.last with
  | none => simp [last] at lost
  | some before =>
    rcases before with ⟨previous, sent⟩
    simp only [last] at lost
    split at lost
    · cases lost
    · next differs =>
      have beyond : ¬ sent + pacing.interval < Instant.limit := by
        intro held
        simp [Instant.after?, held] at lost
      simp only [differs, Bool.false_eq_true, if_false]
      exact Nat.le_trans (Nat.le_of_not_lt beyond) (Nat.le_max_right asked _)

/-- What moves a damper after the first command has waited for the motors. -/
theorem le_departure_of_moves {previous : State} {sent : Instant}
    (last : pacing.last = some (previous, sent)) (moves : pacing.moves state = true) :
    sent + pacing.interval ≤ pacing.departure asked state := by
  have differs : previous.sameDampers state = false := by
    simpa [Pacing.moves, last] using moves
  simp only [departure, last, differs, Bool.false_eq_true, if_false]
  exact Nat.le_max_right asked _

/-! ## Many calls -/

theorem dispatches_concat (pacing : Pacing) (calls : List (Instant × State))
    (call : Instant × State) :
    pacing.dispatches (calls ++ [call]) =
      pacing.dispatches calls ++ [(calls.foldl after pacing).dispatch call] := by
  induction calls generalizing pacing with
  | nil => rfl
  | cons first rest inductionHypothesis =>
    rw [List.cons_append, dispatches, inductionHypothesis]
    rfl

/-- Nothing is asked for before what was asked for earlier has gone out. -/
def InTurn (dispatches : List Dispatch) : Prop :=
  dispatches.Pairwise fun earlier later => earlier.gone ≤ later.asked

/-- Whatever moves a damper later keeps its distance from the last command. -/
theorem distance_from_last {previous : State} {sent : Instant}
    (last : pacing.last = some (previous, sent)) {calls : List (Instant × State)}
    (later : ∀ dispatch ∈ pacing.dispatches calls, sent ≤ dispatch.asked)
    (inTurn : InTurn (pacing.dispatches calls)) :
    ∀ dispatch ∈ pacing.dispatches calls, dispatch.moves = true →
      sent + pacing.interval ≤ dispatch.gone := by
  induction calls generalizing pacing previous sent with
  | nil => nofun
  | cons call rest inductionHypothesis =>
    rcases List.pairwise_cons.mp inTurn with ⟨before, inTurn⟩
    have asked : sent ≤ call.1 := later _ List.mem_cons_self
    have gone : call.1 ≤ pacing.departure call.1 call.2 := pacing.le_departure call.1 call.2
    have next := @inductionHypothesis (pacing.after call) _ _ rfl before inTurn
    intro dispatch member moves
    rcases List.mem_cons.mp member with rfl | among
    · exact le_departure_of_moves last moves
    · have distance := next dispatch among moves
      exact Nat.le_trans (Nat.add_le_add_right (Nat.le_trans asked gone) _) distance

/-- Any two commands that move a damper keep their distance, whatever goes out
between them. -/
theorem moves_apart (pacing : Pacing) {calls : List (Instant × State)}
    (inTurn : InTurn (pacing.dispatches calls)) :
    ((pacing.dispatches calls).filter Dispatch.moves).Pairwise fun earlier later =>
      earlier.gone + pacing.interval ≤ later.gone := by
  induction calls generalizing pacing with
  | nil => exact List.Pairwise.nil
  | cons call rest inductionHypothesis =>
    rcases List.pairwise_cons.mp inTurn with ⟨before, inTurn⟩
    have apart := inductionHypothesis (pacing.after call) inTurn
    rw [dispatches, List.filter_cons]
    split
    · refine List.Pairwise.cons ?_ apart
      intro dispatch member
      rcases List.mem_filter.mp member with ⟨among, moves⟩
      exact @distance_from_last (pacing.after call) _ _ rfl rest before inTurn dispatch among moves
    · exact apart

end Pacing
end Controller
end Ventilation
