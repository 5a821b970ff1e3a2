import Mathlib.Data.List.Sort
import Baas.Lib.ByteOrder
import Baas.Lib.Decimal
import Baas.Lib.JsonText

/-! The JSON that the service signs, encrypts and persists: its values, the writer with its
limits and the parser with its. -/
namespace Baas.Auth

open Decimal JsonText

abbrev Text := List UInt8

inductive CanonicalJsonValue
  | null
  | boolean (value : Bool)
  | integer (value : Int)
  | string (value : Text)
  | array (items : List CanonicalJsonValue)
  | object (members : List (Text × CanonicalJsonValue))

inductive CanonicalJsonError
  | inputTooLarge | outputTooLarge | invalidUtf8 | invalidJson | duplicateKey
  | unsupportedNumber | unsafeInteger | depthExceeded | valueLimitExceeded
deriving DecidableEq

structure CanonicalJsonLimits where
  maxInputBytes : Nat := 1048576
  maxOutputBytes : Nat := 1048576
  maxDepth : Nat := 64
  maxValues : Nat := 65536

def maximumSafeJsonInteger : Nat := 9007199254740991

def CanonicalJsonValue.find (key : Text) : CanonicalJsonValue → Option CanonicalJsonValue
  | .object members => (members.find? (·.1 = key)).map Prod.snd
  | _ => none

def CanonicalJsonLimits.empty (limits : CanonicalJsonLimits) : Bool :=
  limits.maxInputBytes = 0 || limits.maxOutputBytes = 0 || limits.maxDepth = 0 ||
    limits.maxValues = 0

/-! UTF-8. -/

def continuation (value : UInt8) : Bool := value &&& 0xC0 = 0x80

def validUtf8 : Text → Bool
  | [] => true
  | first :: rest =>
    if first ≤ 0x7F then validUtf8 rest
    else if 0xC2 ≤ first ∧ first ≤ 0xDF then
      match rest with
      | second :: rest => continuation second && validUtf8 rest
      | _ => false
    else if 0xE0 ≤ first ∧ first ≤ 0xEF then
      match rest with
      | second :: third :: rest =>
        continuation second && continuation third &&
          !(first = 0xE0 && second < 0xA0 || first = 0xED && 0xA0 ≤ second) && validUtf8 rest
      | _ => false
    else if 0xF0 ≤ first ∧ first ≤ 0xF4 then
      match rest with
      | second :: third :: fourth :: rest =>
        continuation second && continuation third && continuation fourth &&
          !(first = 0xF0 && second < 0x90 || first = 0xF4 && 0x8F < second) && validUtf8 rest
      | _ => false
    else false

/-! Numbers. -/

def integerText : Int → Text
  | .ofNat n => decimal n
  | .negSucc n => 45 :: decimal (n + 1)

/-! The writer. -/

structure Writer where
  output : Text := []
  valueCount : Nat := 0

abbrev Encoder := Nat → Writer → Except CanonicalJsonError Writer

variable (limits : CanonicalJsonLimits)

def append (w : Writer) (value : Text) : Except CanonicalJsonError Writer :=
  if value.length > limits.maxOutputBytes - w.output.length then .error .outputTooLarge
  else .ok { w with output := w.output ++ value }

def hexDigitText (n : UInt8) : UInt8 := if n < 10 then 48 + n else 87 + n

def escapeByte (byte : UInt8) : Text :=
  if byte = 34 then [92, 34]
  else if byte = 92 then [92, 92]
  else if byte = 8 then [92, 98]
  else if byte = 12 then [92, 102]
  else if byte = 10 then [92, 110]
  else if byte = 13 then [92, 114]
  else if byte = 9 then [92, 116]
  else if byte < 0x20 then [92, 117, 48, 48, hexDigitText (byte >>> 4), hexDigitText (byte &&& 0xF)]
  else [byte]

def appendJsonString (w : Writer) (value : Text) : Except CanonicalJsonError Writer := do
  let w ← append limits w [34]
  let w ← value.foldlM (fun w byte => append limits w (escapeByte byte)) w
  append limits w [34]

/-- The checks at the start of `append_value`. -/
def enter (depth : Nat) (w : Writer) : Except CanonicalJsonError Writer :=
  if depth > limits.maxDepth then .error .depthExceeded
  else if w.valueCount + 1 > limits.maxValues then .error .valueLimitExceeded
  else .ok { w with valueCount := w.valueCount + 1 }

def appendComma (first : Bool) (w : Writer) : Except CanonicalJsonError Writer :=
  if first then .ok w else append limits w [44]

/-- The elements of a container, with a comma before each but the first. -/
def appendElements (depth : Nat) : Bool → List Encoder → Writer → Except CanonicalJsonError Writer
  | _, [], w => .ok w
  | first, element :: rest, w => do
    let w ← appendComma limits first w
    let w ← element depth w
    appendElements depth false rest w

def appendMember (member : Text × Encoder) : Encoder := fun depth w => do
  let w ← appendJsonString limits w member.1
  let w ← append limits w [58]
  member.2 depth w

def hasDuplicate : List Text → Bool
  | first :: second :: rest => first = second || hasDuplicate (second :: rest)
  | _ => false

/-- Members in the order of their keys. -/
def sortMembers {α : Type} (members : List (Text × α)) : List (Text × α) :=
  members.insertionSort (fun left right => left.1 ≤ right.1)

mutual

def appendValue : CanonicalJsonValue → Encoder
  | .null, depth, w => do
    let w ← enter limits depth w
    append limits w (ascii "null")
  | .boolean value, depth, w => do
    let w ← enter limits depth w
    append limits w (if value then ascii "true" else ascii "false")
  | .integer value, depth, w => do
    let w ← enter limits depth w
    if value.natAbs > maximumSafeJsonInteger then .error .unsafeInteger
    else append limits w (integerText value)
  | .string value, depth, w => do
    let w ← enter limits depth w
    if !validUtf8 value then .error .invalidUtf8 else appendJsonString limits w value
  | .array items, depth, w => do
    let w ← enter limits depth w
    let w ← append limits w [91]
    let w ← appendElements limits (depth + 1) true (itemEncoders items) w
    append limits w [93]
  | .object members, depth, w => do
    let w ← enter limits depth w
    if !members.all (fun member => validUtf8 member.1) then .error .invalidUtf8
    else
      let sorted := sortMembers (memberEncoders members)
      if hasDuplicate (sorted.map Prod.fst) then .error .duplicateKey
      else
        let w ← append limits w [123]
        let w ← appendElements limits (depth + 1) true (sorted.map (appendMember limits)) w
        append limits w [125]

def itemEncoders : List CanonicalJsonValue → List Encoder
  | [] => []
  | item :: rest => appendValue item :: itemEncoders rest

def memberEncoders : List (Text × CanonicalJsonValue) → List (Text × Encoder)
  | [] => []
  | (key, value) :: rest => (key, appendValue value) :: memberEncoders rest

end

def encodeCanonicalJsonValue (value : CanonicalJsonValue) (limits : CanonicalJsonLimits := {}) :
    Except CanonicalJsonError Text :=
  if limits.empty then .error .invalidJson
  else (appendValue limits value 1 {}).map Writer.output

/-! The parser. A failure keeps what was not read yet. -/

abbrev Failure := CanonicalJsonError × Text

def hexDigits : Nat → Nat → Text → Except Failure (Nat × Text)
  | 0, value, input => .ok (value, input)
  | _ + 1, _, [] => .error (.invalidJson, [])
  | n + 1, value, c :: rest =>
    match hexDigit c with
    | none => .error (.invalidJson, c :: rest)
    | some digit => hexDigits n (16 * value + digit) rest

def parseHexQuad (input : Text) : Except Failure (Nat × Text) :=
  if input.length < 4 then .error (.invalidJson, input) else hexDigits 4 0 input

/-- What follows `\u`. -/
def parseUnicode (input : Text) : Except Failure (Nat × Text) := do
  let (first, rest) ← parseHexQuad input
  if 0xD800 ≤ first ∧ first ≤ 0xDBFF then
    match rest with
    | 92 :: 117 :: rest =>
      let (second, rest) ← parseHexQuad rest
      if second < 0xDC00 ∨ 0xDFFF < second then .error (.invalidJson, rest)
      else .ok (0x10000 + (first - 0xD800) * 1024 + (second - 0xDC00), rest)
    | _ => .error (.invalidJson, rest)
  else if 0xDC00 ≤ first ∧ first ≤ 0xDFFF then .error (.invalidJson, rest)
  else .ok (first, rest)

def simpleEscape (escape : UInt8) : Option UInt8 :=
  if escape = 34 then some 34
  else if escape = 92 then some 92
  else if escape = 47 then some 47
  else if escape = 98 then some 8
  else if escape = 102 then some 12
  else if escape = 110 then some 10
  else if escape = 114 then some 13
  else if escape = 116 then some 9
  else none

/-- The loop of `parse_string`; the fuel is the length of the input, of which every turn
takes a byte. -/
def stringBody : Nat → Text → Text → Except Failure (Text × Text)
  | 0, _, input => .error (.invalidJson, input)
  | _ + 1, _, [] => .error (.invalidJson, [])
  | fuel + 1, output, value :: rest =>
    if value = 34 then .ok (output, rest)
    else if value < 0x20 then .error (.invalidJson, rest)
    else if value ≠ 92 then stringBody fuel (output ++ [value]) rest
    else
      match rest with
      | [] => .error (.invalidJson, [])
      | escape :: rest =>
        match simpleEscape escape with
        | some byte => stringBody fuel (output ++ [byte]) rest
        | none =>
          if escape ≠ 117 then .error (.invalidJson, rest)
          else
            match parseUnicode rest with
            | .error failure => .error failure
            | .ok (codePoint, rest) => stringBody fuel (output ++ utf8Bytes codePoint) rest

def parseString : Text → Except Failure (Text × Text)
  | 34 :: rest => stringBody rest.length [] rest
  | input => .error (.invalidJson, input)

def startsWith (p : UInt8 → Bool) (input : Text) : Bool := (input.head?.map p).getD false

/-- The digits of a number without its sign. -/
def parseMagnitude (negative : Bool) : Text → Except Failure (CanonicalJsonValue × Text)
  | [] => .error (.invalidJson, [])
  | first :: rest =>
    if !isDigit first then .error (.invalidJson, first :: rest)
    else
      let digits := if first = 48 then [first] else first :: rest.takeWhile isDigit
      let rest := if first = 48 then rest else rest.dropWhile isDigit
      if startsWith isDigit rest then .error (.invalidJson, rest)
      else if startsWith (fun c => c = 46 || c = 101 || c = 69) rest then
        .error (.unsupportedNumber, rest)
      else
        let magnitude := valueOf digits
        if magnitude > maximumSafeJsonInteger then .error (.unsafeInteger, rest)
        else .ok (.integer (if negative then -magnitude else magnitude), rest)

def parseNumber : Text → Except Failure (CanonicalJsonValue × Text)
  | 45 :: rest => parseMagnitude true rest
  | input => parseMagnitude false input

def consume (expected : Text) (input : Text) : Except Failure Text :=
  if expected.isPrefixOf input then .ok (input.drop expected.length)
  else .error (.invalidJson, input)

/-- A parser of values, with the number of values behind it. -/
abbrev ValueParser := Text → Nat → Except Failure (CanonicalJsonValue × Text × Nat)

/-- The loop of `parse_array`. -/
def parseItems (parse : ValueParser) : Nat → List CanonicalJsonValue → Text → Nat →
    Except Failure (List CanonicalJsonValue × Text × Nat)
  | 0, _, input, _ => .error (.invalidJson, input)
  | fuel + 1, values, input, count => do
    let (value, rest, count) ← parse (skipWhitespace input) count
    match skipWhitespace rest with
    | [] => .error (.invalidJson, [])
    | c :: rest =>
      if c = 93 then .ok (values ++ [value], rest, count)
      else if c = 44 then parseItems parse fuel (values ++ [value]) rest count
      else .error (.invalidJson, rest)

def parseArray (parse : ValueParser) (input : Text) (count : Nat) :
    Except Failure (CanonicalJsonValue × Text × Nat) :=
  match skipWhitespace input with
  | 93 :: rest => .ok (.array [], rest, count)
  | rest => do
    let (values, rest, count) ← parseItems parse (rest.length + 1) [] rest count
    .ok (.array values, rest, count)

/-- The loop of `parse_object`. -/
def parseMembers (parse : ValueParser) : Nat → List (Text × CanonicalJsonValue) → Text → Nat →
    Except Failure (List (Text × CanonicalJsonValue) × Text × Nat)
  | 0, _, input, _ => .error (.invalidJson, input)
  | fuel + 1, values, input, count => do
    let (key, rest) ← parseString (skipWhitespace input)
    match skipWhitespace rest with
    | [] => .error (.invalidJson, [])
    | c :: rest =>
      if c ≠ 58 then .error (.invalidJson, rest)
      else
        let (value, rest, count) ← parse (skipWhitespace rest) count
        match skipWhitespace rest with
        | [] => .error (.invalidJson, [])
        | c :: rest =>
          if c = 125 then .ok (values ++ [(key, value)], rest, count)
          else if c = 44 then parseMembers parse fuel (values ++ [(key, value)]) rest count
          else .error (.invalidJson, rest)

def parseObject (parse : ValueParser) (input : Text) (count : Nat) :
    Except Failure (CanonicalJsonValue × Text × Nat) :=
  match skipWhitespace input with
  | 125 :: rest => .ok (.object [], rest, count)
  | rest => do
    let (values, rest, count) ← parseMembers parse (rest.length + 1) [] rest count
    let sorted := sortMembers values
    if hasDuplicate (sorted.map Prod.fst) then .error (.duplicateKey, rest)
    else .ok (.object sorted, rest, count)

/-- `room` is how many levels are left: `max_depth + 1 - depth`. -/
def parseValue : Nat → ValueParser
  | 0, input, _ => .error (.depthExceeded, input)
  | room + 1, input, count =>
    if count + 1 > limits.maxValues then .error (.valueLimitExceeded, input)
    else
      match input with
      | [] => .error (.invalidJson, [])
      | c :: rest =>
        if c = 110 then (consume (ascii "null") input).map (fun rest => (.null, rest, count + 1))
        else if c = 116 then
          (consume (ascii "true") input).map (fun rest => (.boolean true, rest, count + 1))
        else if c = 102 then
          (consume (ascii "false") input).map (fun rest => (.boolean false, rest, count + 1))
        else if c = 34 then
          (parseString input).map (fun (value, rest) => (.string value, rest, count + 1))
        else if c = 91 then parseArray (parseValue room) rest (count + 1)
        else if c = 123 then parseObject (parseValue room) rest (count + 1)
        else if c = 45 ∨ isDigit c then
          (parseNumber input).map (fun (value, rest) => (value, rest, count + 1))
        else .error (.invalidJson, input)

def parseDocument (input : Text) : Except Failure CanonicalJsonValue := do
  let (value, rest, _) ← parseValue limits limits.maxDepth (skipWhitespace input) 0
  match skipWhitespace rest with
  | [] => .ok value
  | rest => .error (.invalidJson, rest)

def parseCanonicalJsonValue (input : Text) (limits : CanonicalJsonLimits := {}) :
    Except (CanonicalJsonError × Nat) CanonicalJsonValue :=
  if limits.empty then .error (.invalidJson, 0)
  else if input.length > limits.maxInputBytes then .error (.inputTooLarge, 0)
  else if !validUtf8 input then .error (.invalidUtf8, 0)
  else
    (parseDocument limits input).mapError (fun (error, unread) =>
      (error, input.length - unread.length))

end Baas.Auth
