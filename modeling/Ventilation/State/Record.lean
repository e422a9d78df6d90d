import Ventilation.State
import Ventilation.Json.Printer
import Ventilation.Json.Record

namespace Ventilation

/-!
# States in JSON

A state is a record of four outputs, which are required, and two interlock
flags, which are false if they are left out.
-/

open Json (Choice Document Layout Mismatch Value)

namespace Damper

def choice : Choice Damper := ⟨[closed, half, full].map fun position => (position.name, position)⟩

end Damper

namespace Fan

def choice : Choice Fan := ⟨[off, on].map fun fan => (fan.name, fan)⟩

end Fan

namespace State

/-- The fields of a state in order; an array needs the four outputs. -/
def layout : Layout :=
  ⟨"WireVentilationState", ["Damper1", "Damper2", "Damper3", "Fan", "LaserLock", "OLGALock"], 4⟩

/-- The fields of a state that have been read so far. -/
structure Draft where
  damper1 : Option Damper
  damper2 : Option Damper
  damper3 : Option Damper
  fan : Option Fan
  laser : Option Bool
  olga : Option Bool

namespace Draft

def empty : Draft := ⟨none, none, none, none, none, none⟩

/-- Read one field, given how to read its parts. -/
def put {Source : Type} {m : Type → Type} [Monad m] (damper : Source → m Damper)
    (fan : Source → m Fan) (flag : Source → m Bool) (draft : Draft) (key : String)
    (source : Source) : m Draft :=
  match key with
  | "Damper1" => do return { draft with damper1 := some (← damper source) }
  | "Damper2" => do return { draft with damper2 := some (← damper source) }
  | "Damper3" => do return { draft with damper3 := some (← damper source) }
  | "Fan" => do return { draft with fan := some (← fan source) }
  | "LaserLock" => do return { draft with laser := some (← flag source) }
  | "OLGALock" => do return { draft with olga := some (← flag source) }
  | _ => pure draft

/-- The state, or the first output that is missing. -/
def finish (draft : Draft) : Except Mismatch State := do
  let some damper1 := draft.damper1 | throw (.missingField "Damper1")
  let some damper2 := draft.damper2 | throw (.missingField "Damper2")
  let some damper3 := draft.damper3 | throw (.missingField "Damper3")
  let some fan := draft.fan | throw (.missingField "Fan")
  return ⟨damper1, damper2, damper3, fan, ⟨draft.laser.getD false, draft.olga.getD false⟩⟩

end Draft

def ofValue (value : Value) : Except Mismatch State := do
  let draft ← layout.read (Draft.put Damper.choice.read Fan.choice.read Value.readBool) .empty value
  draft.finish

def ofDocument? (document : Document) : Option State := do
  let draft ← layout.read?
    (Draft.put Damper.choice.read? Fan.choice.read? Document.bool?) .empty document
  draft.finish.toOption

def ofText? (text : String) : Option State := Document.ofChars? text.toList >>= ofDocument?

def members (state : State) : List Json.Member :=
  [ Document.field "Damper1" (.ofText state.damper1.name),
    Document.field "Damper2" (.ofText state.damper2.name),
    Document.field "Damper3" (.ofText state.damper3.name),
    Document.field "Fan" (.ofText state.fan.name),
    Document.field "LaserLock" (.bool state.locks.laser),
    Document.field "OLGALock" (.bool state.locks.olga)]

def document (state : State) : Document := .object state.members

end State
end Ventilation
