import Mathlib.Data.List.Basic
import Baas.Lib.JsonText

/-! The pointers and the publish journal of the runtime repositories, and the JSON they are
kept as. -/
namespace Baas.Repository

open JsonText

abbrev Text := List UInt8

inductive Json
  | null
  | string (value : Text)
  | array (items : List Json)
  | object (members : List (Text × Json))

/-! The parser. An error is the message it fails with. -/

def take : Text → Except String (UInt8 × Text)
  | [] => .error "truncated JSON"
  | c :: rest => .ok (c, rest)

def unicodeCodeUnit : Nat → Nat → Text → Except String (Nat × Text)
  | 0, result, input => .ok (result, input)
  | n + 1, result, input => do
    let (c, rest) ← take input
    match hexDigit c with
    | none => .error "invalid JSON Unicode escape"
    | some digit => unicodeCodeUnit n (16 * result + digit) rest

def unicodeEscape (input : Text) : Except String (Text × Text) := do
  let (first, rest) ← unicodeCodeUnit 4 0 input
  if 0xDC00 ≤ first ∧ first ≤ 0xDFFF then
    .error "isolated low surrogate in JSON Unicode escape"
  else if first < 0xD800 ∨ 0xDBFF < first then .ok (utf8Bytes first, rest)
  else
    let (c, rest) ← take rest
    if c ≠ 92 then .error "high surrogate is not followed by a low surrogate"
    else
      let (c, rest) ← take rest
      if c ≠ 117 then .error "high surrogate is not followed by a low surrogate"
      else
        let (second, rest) ← unicodeCodeUnit 4 0 rest
        if second < 0xDC00 ∨ 0xDFFF < second then
          .error "high surrogate is not followed by a low surrogate"
        else .ok (utf8Bytes (0x10000 + (first - 0xD800) * 1024 + (second - 0xDC00)), rest)

def simpleEscape (escaped : UInt8) : Option UInt8 :=
  if escaped = 34 ∨ escaped = 92 ∨ escaped = 47 then some escaped
  else if escaped = 98 then some 8
  else if escaped = 102 then some 12
  else if escaped = 110 then some 10
  else if escaped = 114 then some 13
  else if escaped = 116 then some 9
  else none

/-- The loop of `string`. Every turn takes a byte, so the length of the input is enough
fuel. -/
def stringBody : Nat → Text → Text → Except String (Text × Text)
  | 0, _, _ => .error "unterminated JSON string"
  | _ + 1, _, [] => .error "unterminated JSON string"
  | fuel + 1, result, character :: rest =>
    if character = 34 then .ok (result, rest)
    else if character < 0x20 then .error "JSON strings must not contain control bytes"
    else if character ≠ 92 then stringBody fuel (result ++ [character]) rest
    else do
      let (escaped, rest) ← take rest
      match simpleEscape escaped with
      | some byte => stringBody fuel (result ++ [byte]) rest
      | none =>
        if escaped = 117 then do
          let (bytes, rest) ← unicodeEscape rest
          stringBody fuel (result ++ bytes) rest
        else .error "unsupported JSON escape"

def parseString (input : Text) : Except String (Text × Text) := do
  let (c, rest) ← take input
  if c ≠ 34 then .error "JSON string expected" else stringBody (rest.length + 1) [] rest

/-- The loop of `object`. -/
def objectBody (value : Text → Except String (Json × Text)) : Nat → List (Text × Json) →
    Text → Except String (List (Text × Json) × Text)
  | 0, _, _ => .error "truncated JSON"
  | fuel + 1, result, input => do
    let (key, rest) ← parseString (skipWhitespace input)
    let (colon, rest) ← take (skipWhitespace rest)
    if colon ≠ 58 then .error "JSON object separator expected"
    else
      let (item, rest) ← value rest
      if result.any (·.1 = key) then .error "duplicate JSON member"
      else
        let (separator, rest) ← take (skipWhitespace rest)
        if separator = 125 then .ok (result ++ [(key, item)], rest)
        else if separator = 44 then objectBody value fuel (result ++ [(key, item)]) rest
        else .error "JSON object delimiter expected"

def parseObject (value : Text → Except String (Json × Text)) (input : Text) :
    Except String (Json × Text) :=
  match skipWhitespace input with
  | 125 :: rest => .ok (.object [], rest)
  | rest => do
    let (members, rest) ← objectBody value (rest.length + 1) [] rest
    .ok (.object members, rest)

/-- The loop of `array`. -/
def arrayBody (value : Text → Except String (Json × Text)) : Nat → List Json → Text →
    Except String (List Json × Text)
  | 0, _, _ => .error "truncated JSON"
  | fuel + 1, result, input => do
    let (item, rest) ← value input
    let (separator, rest) ← take (skipWhitespace rest)
    if separator = 93 then .ok (result ++ [item], rest)
    else if separator = 44 then arrayBody value fuel (result ++ [item]) rest
    else .error "JSON array delimiter expected"

def parseArray (value : Text → Except String (Json × Text)) (input : Text) :
    Except String (Json × Text) :=
  match skipWhitespace input with
  | 93 :: rest => .ok (.array [], rest)
  | rest => do
    let (items, rest) ← arrayBody value (rest.length + 1) [] rest
    .ok (.array items, rest)

/-- `room` is how many levels are left: `13 - depth`. -/
def parseValue : Nat → Text → Except String (Json × Text)
  | 0, _ => .error "JSON nesting limit exceeded"
  | room + 1, input =>
    match skipWhitespace input with
    | [] => .error "missing JSON value"
    | c :: rest =>
      if c = 34 then (parseString (c :: rest)).map (fun (value, rest) => (.string value, rest))
      else if c = 123 then parseObject (parseValue room) rest
      else if c = 91 then parseArray (parseValue room) rest
      else if (ascii "null").isPrefixOf (c :: rest) then .ok (.null, (c :: rest).drop 4)
      else .error "unsupported JSON value"

def parse (input : Text) : Except String Json := do
  let (result, rest) ← parseValue 13 input
  match skipWhitespace rest with
  | [] => .ok result
  | _ => .error "trailing JSON data"

/-! Members. -/

def asObject : Json → Except String (List (Text × Json))
  | .object members => .ok members
  | _ => .error "JSON object expected"

def member (members : List (Text × Json)) (key : Text) : Except String Json :=
  match members.find? (·.1 = key) with
  | none => .error "required JSON member absent"
  | some found => .ok found.2

def stringMember (members : List (Text × Json)) (key : Text) : Except String Text := do
  match ← member members key with
  | .string value => .ok value
  | _ => .error "JSON string expected"

def exactMembers (members : List (Text × Json)) (names : List Text) : Except String Unit :=
  if members.length ≠ names.length ∨ !names.all (fun name => members.any (·.1 = name)) then
    .error "unknown or missing JSON member"
  else .ok ()

/-! Pointers and the journal. -/

def quoteJson (value : Text) : Text :=
  34 :: (value.flatMap (fun c => if c = 34 ∨ c = 92 then [92, c] else [c]) ++ [34])

def lowerHex (value : Text) (length : Nat) : Bool :=
  value.length = length && value.all (fun c => 48 ≤ c && c ≤ 57 || 97 ≤ c && c ≤ 102)

structure Pointer where
  generation : Text
  snapshot : Text
deriving DecidableEq

def currentSchema : Text := ascii "baas.runtime-repositories.current/v1"
def journalSchema : Text := ascii "baas.runtime-repositories.publish-journal/v1"

/-- A member behind the opening brace, on a line of its own. -/
def line (name : String) (value : Text) : Text :=
  ascii "\n  " ++ quoteJson (ascii name) ++ ascii ": " ++ value

def pointerJson (pointer : Pointer) : Text :=
  ascii "\x7b" ++ line "schema" (quoteJson currentSchema) ++ ascii "," ++
    line "generation" (quoteJson pointer.generation) ++ ascii "," ++
    line "snapshot" (quoteJson pointer.snapshot) ++ ascii "\n\x7d\n"

def validPointer (pointer : Pointer) : Bool :=
  lowerHex pointer.generation 64 &&
    pointer.snapshot = ascii "snapshots/" ++ pointer.generation ++ ascii ".json"

def parsePointer (json : Json) : Except String Pointer := do
  let value ← asObject json
  exactMembers value [ascii "schema", ascii "generation", ascii "snapshot"]
  let schema ← stringMember value (ascii "schema")
  if schema ≠ currentSchema then .error "invalid pointer schema"
  else
    let generation ← stringMember value (ascii "generation")
    let snapshot ← stringMember value (ascii "snapshot")
    if !validPointer ⟨generation, snapshot⟩ then .error "invalid repository pointer"
    else .ok ⟨generation, snapshot⟩

structure Journal where
  operation : Text
  phase : Text
  oldPrevious : Option Pointer
  oldCurrent : Option Pointer
  newPrevious : Option Pointer
  newCurrent : Pointer
deriving DecidableEq

/-- Without the line feed at the end. -/
def optionalPointerJson : Option Pointer → Text
  | none => ascii "null"
  | some pointer => (pointerJson pointer).dropLast

def journalJson (journal : Journal) : Text :=
  ascii "\x7b" ++ line "schema" (quoteJson journalSchema) ++ ascii "," ++
    line "operation" (quoteJson journal.operation) ++ ascii "," ++
    line "phase" (quoteJson journal.phase) ++ ascii "," ++
    line "old_previous" (optionalPointerJson journal.oldPrevious) ++ ascii "," ++
    line "old_current" (optionalPointerJson journal.oldCurrent) ++ ascii "," ++
    line "new_previous" (optionalPointerJson journal.newPrevious) ++ ascii "," ++
    line "new_current" (optionalPointerJson journal.newCurrent) ++ ascii "\n\x7d\n"

def parseOptionalPointer : Json → Except String (Option Pointer)
  | .null => .ok none
  | json => (parsePointer json).map some

def publishOperation : Text := ascii "publish"
def rollbackOperation : Text := ascii "rollback"
def prepared : Text := ascii "prepared"
def previousReplaced : Text := ascii "previous_replaced"
def currentReplaced : Text := ascii "current_replaced"

/-- The checks at the end of `parse_journal`. -/
def validJournal (journal : Journal) : Bool :=
  (journal.operation = publishOperation || journal.operation = rollbackOperation) &&
    (journal.phase = prepared || journal.phase = previousReplaced ||
      journal.phase = currentReplaced) &&
    journal.newPrevious = journal.oldCurrent &&
    (journal.operation ≠ rollbackOperation || journal.oldPrevious = some journal.newCurrent)

def parseJournal (json : Json) : Except String Journal := do
  let value ← asObject json
  exactMembers value [ascii "schema", ascii "operation", ascii "phase", ascii "old_previous",
    ascii "old_current", ascii "new_previous", ascii "new_current"]
  let schema ← stringMember value (ascii "schema")
  if schema ≠ journalSchema then .error "invalid journal schema"
  else
    let operation ← stringMember value (ascii "operation")
    let phase ← stringMember value (ascii "phase")
    let oldPrevious ← parseOptionalPointer (← member value (ascii "old_previous"))
    let oldCurrent ← parseOptionalPointer (← member value (ascii "old_current"))
    let newPrevious ← parseOptionalPointer (← member value (ascii "new_previous"))
    let newCurrent ← parsePointer (← member value (ascii "new_current"))
    let journal : Journal :=
      ⟨operation, phase, oldPrevious, oldCurrent, newPrevious, newCurrent⟩
    if !validJournal journal then .error "invalid journal relationship" else .ok journal

end Baas.Repository
