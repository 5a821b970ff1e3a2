import Mathlib.Data.Finset.Card
import Mathlib.Data.List.Forall2
import Baas.Lib.Binary64
import Baas.Lib.ByteOrder
import Baas.Resource.Json

/-! `migrated_event_config`: an event document is completed with the default events. -/
namespace Baas.Resource.Events

inductive Number
  | integer (value : Int)
  | float (value : Binary64)
deriving DecidableEq

abbrev Document := Json Number

abbrev Members := List (Text × Document)

def spell (name : String) : Text := name.toList.map fun c => UInt8.ofNat c.toNat

def functionKey : Text := spell "func_name"
def resetKey : Text := spell "daily_reset"
def enabledKey : Text := spell "enabled"

def field (key : Text) : Document → Option Document
  | .object members => member? key members
  | _ => none

def intMinimum : Int := -2 ^ 31
def intMaximum : Int := 2 ^ 31 - 1

def validComponent : Document → Bool
  | .number (.integer value) => intMinimum ≤ value && value ≤ intMaximum
  | _ => false

/-- The hour can be moved one back. -/
def validReset : Document → Bool
  | .array [hour, minute, second] =>
    validComponent hour && validComponent minute && validComponent second &&
      (match hour with
        | .number (.integer value) => value ≠ intMinimum
        | _ => false)
  | _ => false

def validEntry (item : Document) : Bool :=
  (match field functionKey item with
    | some (.string _) => true
    | _ => false) &&
  match field resetKey item with
    | some (.array resets) => resets.all validReset
    | _ => false

/-- `validate_event` -/
def validateEvent : Document → Bool
  | .array items => items.all validEntry
  | _ => false

/-- The default events that `load_runtime_configuration_defaults` has accepted. -/
structure EventDefaults where
  items : List Document
  valid : validateEvent (.array items) = true

/-- `value(key, fallback)` of a document, which throws where it is no object and where the value
is no string. -/
def valueOr (key fallback : Text) : Document → Option Text
  | .object members =>
    match member? key members with
    | none => some fallback
    | some (.string text) => some text
    | some _ => none
  | _ => none

/-- The two servers in China, in UTF-8. -/
def chinaServers : List Text :=
  [[0xE5, 0xAE, 0x98, 0xE6, 0x9C, 0x8D], [0x42, 0xE6, 0x9C, 0x8D]]

/-- The resets of a default event have no other form. -/
def shiftReset : Document → Document
  | .array (.number (.integer hour) :: rest) => .array (.number (.integer (hour - 1)) :: rest)
  | reset => reset

def shiftEntry : Document → Document
  | .object members =>
    match member? resetKey members with
    | some (.array resets) =>
      .object (assign resetKey (.array (resets.map shiftReset)) members)
    | _ => .object members
  | item => item

def serverEventDefaults (user : Document) (defaults : EventDefaults) : Option (List Document) :=
  (valueOr (spell "server") [] user).map fun server =>
    if server ∈ chinaServers then defaults.items else defaults.items.map shiftEntry

/-- The function of a default event. -/
def functionOf (item : Document) : Text :=
  match field functionKey item with
  | some (.string name) => name
  | _ => []

def isEvent (function : Text) (item : Document) : Bool :=
  match field functionKey item with
  | some (.string name) => name = function
  | _ => false

def zeroReset : Document := .array (.replicate 3 (.number (.integer 0)))

/-- Scalars other than strings make the migration fall back. -/
def normalReset : Document → Option Document
  | .null | .bool _ | .number _ => none
  | .array [hour, minute, second] => some (.array [hour, minute, second])
  | _ => some zeroReset

def addMissing (defaults members : Members) : Members :=
  defaults.foldl (fun members entry =>
    if (member? entry.1 members).isSome then members else assign entry.1 entry.2 members) members

/-- An event that is there already; `none` makes the migration fall back. -/
def completeEvent (item : Document) : Document → Option Document
  | .object members =>
    match member? resetKey members with
    | some (.array resets) => (resets.mapM normalReset).map fun resets =>
      let members := assign resetKey (.array resets) members
      match item with
      | .object defaults => .object (addMissing defaults members)
      | _ => .object members
    | _ => none
  | _ => none

def insertedEvent (enable : Text) : Document → Document
  | .object members =>
    if enable = spell "on" then .object (assign enabledKey (.bool true) members)
    else if enable = spell "off" then .object (assign enabledKey (.bool false) members)
    else .object members
  | item => item

inductive Attempt
  | done (result : List Document)
  | fallback
  -- an insertion behind the end of the array
  | outside

/-- The loop over the default events, from one of them on. -/
def migrateFrom (enable : Text) : Nat → List Document → List Document → Attempt
  | _, [], result => .done result
  | index, item :: items, result =>
    match result.findIdx? (isEvent (functionOf item)) with
    | none =>
      if index ≤ result.length then
        migrateFrom enable (index + 1) items (result.insertIdx index (insertedEvent enable item))
      else .outside
    | some position =>
      match result[position]?.bind (completeEvent item) with
      | none => .fallback
      | some event => migrateFrom enable (index + 1) items (result.set position event)

inductive Outcome
  | thrown
  | outside
  | returned (document : Document)

def migratedEventConfig (source : Option Document) (user : Document) (defaults : EventDefaults) :
    Outcome :=
  match serverEventDefaults user defaults with
  | none => .thrown
  | some items =>
    match source with
    | some (.array events) =>
      if events.any fun event => (field functionKey event).isNone then .returned (.array items)
      else
        match valueOr (spell "new_event_enable_state") (spell "default") user with
        | none => .returned (.array items)
        | some enable =>
          match migrateFrom enable 0 items events with
          | .done result => .returned (.array result)
          | .fallback => .returned (.array items)
          | .outside => .outside
    | _ => .returned (.array items)

end Baas.Resource.Events
