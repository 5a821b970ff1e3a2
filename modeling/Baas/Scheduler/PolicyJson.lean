import Baas.Lib.Decimal
import Baas.Lib.JsonText
import Baas.Scheduler.Policy

/-! `event.json` as text: the strict parser with its limits, and the writer. The JSON library
is a parameter where it reads; what it writes is its documented layout. -/
namespace Baas.Scheduler

open Decimal JsonText

/-- A number that is no 64-bit integer is kept as its text: it is told apart and never looked
at. The members of an object are listed as they stand in the text. -/
inductive Json
  | null
  | boolean (value : Bool)
  | integer (value : Int)
  | float (text : Text)
  | string (value : Text)
  | array (items : List Json)
  | object (members : List (Text × Json))

/-- What the shape of a text is checked on. -/
inductive SaxEvent
  | scalar | key | containerStart | containerEnd
deriving DecidableEq

mutual

def Json.events : Json → List SaxEvent
  | .array items => .containerStart :: (itemEvents items ++ [.containerEnd])
  | .object members => .containerStart :: (memberEvents members ++ [.containerEnd])
  | _ => [.scalar]

def itemEvents : List Json → List SaxEvent
  | [] => []
  | item :: rest => item.events ++ itemEvents rest

def memberEvents : List (Text × Json) → List SaxEvent
  | [] => []
  | (_, value) :: rest => .key :: (value.events ++ memberEvents rest)

end

/-- The reading half of the JSON library: a value, or the events before a syntax error. -/
structure JsonLibrary where
  read : Text → Except (List SaxEvent) Json

structure ParseLimits where
  maximumJsonBytes : Nat := 1 * 1024 * 1024
  maximumDepth : Nat := 8
  maximumNodes : Nat := 16384
  maximumEvents : Nat := 256
  maximumItemsPerEvent : Nat := 64
  maximumStringBytes : Nat := 256
  maximumTotalStringBytes : Nat := 128 * 1024

inductive ParseError
  | inputTooLarge | invalidUtf8 | invalidJson | limitExceeded | invalidSchema | invalidValue
deriving DecidableEq

def effectiveLimits (limits : ParseLimits) : ParseLimits where
  maximumJsonBytes := min limits.maximumJsonBytes hardMaximumJsonBytes
  maximumDepth := min limits.maximumDepth hardMaximumDepth
  maximumNodes := min limits.maximumNodes hardMaximumNodes
  maximumEvents := min limits.maximumEvents hardMaximumEvents
  maximumItemsPerEvent := min limits.maximumItemsPerEvent hardMaximumItemsPerEvent
  maximumStringBytes := min limits.maximumStringBytes hardMaximumStringBytes
  maximumTotalStringBytes := min limits.maximumTotalStringBytes hardMaximumTotalStringBytes

/-! UTF-8. -/

def isTrailing (byte : UInt8) : Bool := byte &&& 0xC0 = 0x80

/-- The code point with the six bits of one more byte. -/
def joined (codePoint : Nat) (byte : UInt8) : Nat := codePoint * 64 + byte.toNat % 64

def codePointAllowed (minimum codePoint : Nat) : Bool :=
  !(codePoint < minimum || codePoint > 0x10FFFF ||
    0xD800 ≤ codePoint && codePoint ≤ 0xDFFF)

def isValidUtf8 : Text → Bool
  | [] => true
  | lead :: rest =>
    if lead ≤ 0x7F then isValidUtf8 rest
    else if 0xC2 ≤ lead && lead ≤ 0xDF then
      match rest with
      | a :: rest =>
        isTrailing a && codePointAllowed 0x80 (joined (lead.toNat % 32) a) && isValidUtf8 rest
      | _ => false
    else if 0xE0 ≤ lead && lead ≤ 0xEF then
      match rest with
      | a :: b :: rest =>
        isTrailing a && isTrailing b &&
          codePointAllowed 0x800 (joined (joined (lead.toNat % 16) a) b) && isValidUtf8 rest
      | _ => false
    else if 0xF0 ≤ lead && lead ≤ 0xF4 then
      match rest with
      | a :: b :: c :: rest =>
        isTrailing a && isTrailing b && isTrailing c &&
          codePointAllowed 0x10000 (joined (joined (joined (lead.toNat % 8) a) b) c) &&
          isValidUtf8 rest
      | _ => false
    else false

/-! The shape. -/

structure ShapeSax where
  depth : Nat := 0
  nodes : Nat := 0

def ShapeSax.node (limits : ParseLimits) (shape : ShapeSax) : Except ParseError ShapeSax :=
  if shape.depth > limits.maximumDepth ∨ shape.nodes + 1 > limits.maximumNodes then
    .error .limitExceeded
  else .ok { shape with nodes := shape.nodes + 1 }

def ShapeSax.containerStart (limits : ParseLimits) (shape : ShapeSax) :
    Except ParseError ShapeSax := do
  let shape ← shape.node limits
  if shape.depth + 1 > limits.maximumDepth then .error .limitExceeded
  else .ok { shape with depth := shape.depth + 1 }

/-- A refusal that exceeds nothing counts as a syntax error. -/
def ShapeSax.containerEnd (shape : ShapeSax) : Except ParseError ShapeSax :=
  if shape.depth = 0 then .error .invalidJson else .ok { shape with depth := shape.depth - 1 }

def ShapeSax.handle (limits : ParseLimits) (shape : ShapeSax) :
    SaxEvent → Except ParseError ShapeSax
  | .scalar | .key => shape.node limits
  | .containerStart => shape.containerStart limits
  | .containerEnd => shape.containerEnd

def checkShape (limits : ParseLimits) (events : List SaxEvent) : Except ParseError ShapeSax :=
  events.foldlM (ShapeSax.handle limits) {}

mutual

/-- Some object has two members of one name. -/
def Json.hasDuplicateKey : Json → Bool
  | .array items => itemsHaveDuplicateKey items
  | .object members =>
    !decide (members.map Prod.fst).Nodup || membersHaveDuplicateKey members
  | _ => false

def itemsHaveDuplicateKey : List Json → Bool
  | [] => false
  | item :: rest => item.hasDuplicateKey || itemsHaveDuplicateKey rest

def membersHaveDuplicateKey : List (Text × Json) → Bool
  | [] => false
  | (_, value) :: rest => value.hasDuplicateKey || membersHaveDuplicateKey rest

end

/-! The values. -/

def Json.member (value : Json) (key : String) : Json :=
  match value with
  | .object members => ((members.find? (·.1 = ascii key)).map Prod.snd).getD .null
  | _ => .null

def jsonInteger : Json → Option Int
  | .integer value => if value > 9223372036854775807 then none else some value
  | _ => none

def requiredKeys : List String :=
  ["enabled", "priority", "interval", "daily_reset", "next_tick", "event_name", "func_name",
    "disabled_time_range", "pre_task", "post_task"]

def exactEventShape : Json → Bool
  | .object members =>
    members.length = requiredKeys.length &&
      requiredKeys.all (fun key => members.any (fun member => member.1 = ascii key))
  | _ => false

/-- A string, and the bytes of all strings so far. -/
def takeString (limits : ParseLimits) (total : Nat) (nonempty : Bool) : Json → Option (Text × Nat)
  | .string text =>
    if nonempty && text.isEmpty || text.length > limits.maximumStringBytes ||
        text.length > limits.maximumTotalStringBytes - total then none
    else some (text, total + text.length)
  | _ => none

def parseTimeOfDay : Json → Option TimeOfDay
  | .array [first, second, third] =>
    match jsonInteger first, jsonInteger second, jsonInteger third with
    | some hour, some minute, some second =>
      if hour < 0 ∨ hour > 23 ∨ minute < 0 ∨ minute > 59 ∨ second < 0 ∨ second > 59 then none
      else some ⟨UInt8.ofNat hour.toNat, UInt8.ofNat minute.toNat, UInt8.ofNat second.toNat⟩
    | _, _, _ => none
  | _ => none

/-- A list that is not too long, element by element. -/
def parseList {α : Type} (limits : ParseLimits) (parse : Json → Option α) : Json → Option (List α)
  | .array items =>
    if items.length > limits.maximumItemsPerEvent then none else items.mapM parse
  | _ => none

def parseTimeList (limits : ParseLimits) : Json → Option (List TimeOfDay) :=
  parseList limits parseTimeOfDay

def parseDisabledRange : Json → Option DisabledTimeRange
  | .array [first, second] =>
    match parseTimeOfDay first, parseTimeOfDay second with
    | some start, some finish => some ⟨start, finish⟩
    | _, _ => none
  | _ => none

def parseDisabledRanges (limits : ParseLimits) : Json → Option (List DisabledTimeRange) :=
  parseList limits parseDisabledRange

def takeStrings (limits : ParseLimits) : Nat → List Json → Option (List Text × Nat)
  | total, [] => some ([], total)
  | total, item :: rest => do
    let (text, total) ← takeString limits total true item
    let (texts, total) ← takeStrings limits total rest
    return (text :: texts, total)

def parseTaskList (limits : ParseLimits) (total : Nat) : Json → Option (List Text × Nat)
  | .array items =>
    if items.length > limits.maximumItemsPerEvent then none else takeStrings limits total items
  | _ => none

def Json.asBoolean : Json → Option Bool
  | .boolean value => some value
  | _ => none

def checkedInteger (least most : Int) (value : Json) : Option Int :=
  match jsonInteger value with
  | none => none
  | some number => if number < least ∨ number > most then none else some number

def parseEvent (limits : ParseLimits) (total : Nat) (value : Json) :
    Option (SchedulerEvent × Nat) := do
  if !exactEventShape value then none
  else
    let enabled ← (value.member "enabled").asBoolean
    let priority ← checkedInteger (-2147483648) 2147483647 (value.member "priority")
    let interval ← checkedInteger (-maximumIntervalSeconds) maximumIntervalSeconds
      (value.member "interval")
    let nextTick ← checkedInteger 0 maximumUnixSeconds (value.member "next_tick")
    let (eventName, total) ← takeString limits total true (value.member "event_name")
    let (functionName, total) ← takeString limits total true (value.member "func_name")
    let dailyResets ← parseTimeList limits (value.member "daily_reset")
    let disabledTimeRanges ← parseDisabledRanges limits (value.member "disabled_time_range")
    let (preTasks, total) ← parseTaskList limits total (value.member "pre_task")
    let (postTasks, total) ← parseTaskList limits total (value.member "post_task")
    return (⟨enabled, Int32.ofInt priority, interval, dailyResets, nextTick, eventName,
      functionName, disabledTimeRanges, preTasks, postTasks⟩, total)

def parseEvents (limits : ParseLimits) : Nat → List Json → Option (List SchedulerEvent)
  | _, [] => some []
  | total, value :: rest => do
    let (event, total) ← parseEvent limits total value
    let events ← parseEvents limits total rest
    return event :: events

def parseRoot (limits : ParseLimits) : Json → Except ParseError SchedulerDocument
  | .array items =>
    if items.length > limits.maximumEvents then .error .limitExceeded
    else
      match parseEvents limits 0 items with
      | none => .error .invalidValue
      | some events => .ok ⟨events⟩
  | _ => .error .invalidSchema

def parseEventJson (library : JsonLibrary) (text : Text) (requestedLimits : ParseLimits := {}) :
    Except ParseError SchedulerDocument :=
  let limits := effectiveLimits requestedLimits
  if text.length > limits.maximumJsonBytes then .error .inputTooLarge
  else if !isValidUtf8 text then .error .invalidUtf8
  else
    match library.read text with
    | .error events => do
      let _ ← checkShape limits events
      .error .invalidJson
    | .ok root => do
      let _ ← checkShape limits root.events
      if root.hasDuplicateKey then .error .invalidSchema else parseRoot limits root

/-! The writer. -/

def hexDigitText (n : UInt8) : UInt8 := if n < 10 then 48 + n else 87 + n

def escapeByte (byte : UInt8) : Text :=
  if byte = 34 then [92, 34]
  else if byte = 92 then [92, 92]
  else if byte = 8 then [92, 98]
  else if byte = 12 then [92, 102]
  else if byte = 10 then [92, 110]
  else if byte = 13 then [92, 114]
  else if byte = 9 then [92, 116]
  else if byte < 0x20 then [92, 117, 48, 48, hexDigitText (byte >>> 4), hexDigitText (byte &&& 0xF)]
  else [byte]

def quoted (text : Text) : Text := [34] ++ text.flatMap escapeByte ++ [34]

def integerText : Int → Text
  | .ofNat n => decimal n
  | .negSucc n => 45 :: decimal (n + 1)

def spaces (count : Nat) : Text := List.replicate count 32

/-- The elements of a container, each on a line of its own. -/
def lines (indent : Nat) : List Text → Text
  | [] => []
  | [line] => spaces indent ++ line ++ [10]
  | line :: rest => spaces indent ++ line ++ [44, 10] ++ lines indent rest

def container (opening closing : UInt8) (indent : Nat) (elements : List Text) : Text :=
  if elements.isEmpty then [opening, closing]
  else [opening, 10] ++ lines (indent + 2) elements ++ spaces indent ++ [closing]

mutual

/-- `dump(2)` of what is valid UTF-8. -/
def Json.dump (indent : Nat) : Json → Text
  | .null => ascii "null"
  | .boolean value => if value then ascii "true" else ascii "false"
  | .integer value => integerText value
  | .float text => text
  | .string value => quoted value
  | .array items => container 91 93 indent (itemTexts (indent + 2) items)
  | .object members => container 123 125 indent (memberTexts (indent + 2) members)

def itemTexts (indent : Nat) : List Json → List Text
  | [] => []
  | item :: rest => item.dump indent :: itemTexts indent rest

def memberTexts (indent : Nat) : List (Text × Json) → List Text
  | [] => []
  | (key, value) :: rest =>
    (quoted key ++ [58, 32] ++ value.dump indent) :: memberTexts indent rest

end

mutual

/-- `dump` throws on any other string. -/
def Json.utf8 : Json → Bool
  | .string value => isValidUtf8 value
  | .array items => itemsUtf8 items
  | .object members => membersUtf8 members
  | _ => true

def itemsUtf8 : List Json → Bool
  | [] => true
  | item :: rest => item.utf8 && itemsUtf8 rest

def membersUtf8 : List (Text × Json) → Bool
  | [] => true
  | (key, value) :: rest => isValidUtf8 key && value.utf8 && membersUtf8 rest

end

def encodeTime (time : TimeOfDay) : Json :=
  .array [.integer time.hour.toNat, .integer time.minute.toNat, .integer time.second.toNat]

def encodeRange (range : DisabledTimeRange) : Json :=
  .array [encodeTime range.start, encodeTime range.finish]

/-- The library keeps the members of an object in the order of their keys. -/
def encodeEvent (event : SchedulerEvent) : Json :=
  .object [
    (ascii "daily_reset", .array (event.dailyResets.map encodeTime)),
    (ascii "disabled_time_range", .array (event.disabledTimeRanges.map encodeRange)),
    (ascii "enabled", .boolean event.enabled),
    (ascii "event_name", .string event.eventName),
    (ascii "func_name", .string event.functionName),
    (ascii "interval", .integer event.intervalSeconds),
    (ascii "next_tick", .integer event.nextTick),
    (ascii "post_task", .array (event.postTasks.map .string)),
    (ascii "pre_task", .array (event.preTasks.map .string)),
    (ascii "priority", .integer event.priority.toInt)]

def encodeDocument (document : SchedulerDocument) : Json :=
  .array (document.events.map encodeEvent)

def serializeEventJson (document : SchedulerDocument) : Option Text :=
  if !validDocument document then none
  else if !(encodeDocument document).utf8 then none
  else
    let encoded := (encodeDocument document).dump 0
    if encoded.length > hardMaximumJsonBytes then none else some encoded

end Baas.Scheduler
