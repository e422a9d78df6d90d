import Ventilation.State.Record

namespace Ventilation
namespace Feed

/-!
# Feeds of the building

Two feeds matter: the laser cutter is in use or not, and somebody is in the
space or not.  Accepted states are published on a third topic with a time.
-/

open Json (Document Layout)

/-- The topics on the broker of the building. -/
structure Topics where
  laser : String
  presence : String
  ventilation : String
  deriving DecidableEq, Repr

def Topics.standard : Topics :=
  ⟨"realraum/lasercutter/cardpresent", "realraum/metaevt/presence",
    "realraum/ventilation/ventilation"⟩

/-- What a feed reports. -/
inductive Event
  | laser (inUse : Bool)
  | presence (present : Bool)
  deriving DecidableEq, Repr

/-- Why a message of a feed is not understood. -/
inductive EventError
  | invalidPayload (topic : String)
  deriving DecidableEq, Repr

def flag? (field : String) (document : Document) : Option Bool := do
  let found ← (Layout.mk field [field] 1).read?
    (fun (_ : Option Bool) _ item => item.bool?.map some) none document
  found

namespace Event

def flagOf (topic field : String) (payload : List UInt8) : Except EventError Bool :=
  match Document.ofBytes? payload >>= flag? field with
  | some flag => .ok flag
  | none => .error (.invalidPayload topic)

/-- Read a message of the broker; messages on other topics are of no interest. -/
def read (topics : Topics) (topic : String) (payload : List UInt8) :
    Except EventError (Option Event) :=
  if topic = topics.laser then (flagOf topic "IsHot" payload).map fun flag => some (laser flag)
  else if topic = topics.presence then
    (flagOf topic "Present" payload).map fun flag => some (presence flag)
  else .ok none

end Event

/-- The text under which an accepted state is published, with the time in
seconds. -/
def reportText (state : State) (time : Int) : String :=
  (Document.object (state.members ++ [Document.field "Ts" (.numeral (.ofInt time))])).write

end Feed
end Ventilation
