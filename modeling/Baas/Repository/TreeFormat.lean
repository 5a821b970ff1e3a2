import Mathlib.Data.List.Sort
import Mathlib.Algebra.Group.Nat.Defs
import Baas.Lib.ByteOrder
import Baas.Lib.JsonText

/-! The manifest of a repository tree, from `RuntimeRepositoryTreeFormat.cpp`. An error is the
message it fails with. -/
namespace Baas.TreeFormat

open JsonText

abbrev Text := List UInt8

inductive Json
  | string (value : Text)
  | array (items : List Json)
  | object (members : List (Text × Json))

structure TreeFormatLimits where
  maxEntries : Nat := 16383
  maxFileBytes : Nat := 268435456
  maxTotalBytes : Nat := 2147483648
  maxRelativePathBytes : Nat := 1024
  maxRelativePathDepth : Nat := 32

/-! The parser. -/

structure JsonParser where
  size : Nat
  nodeLimit : Nat
  stringLimit : Nat

/-- What is not read yet, the nodes so far and the bytes of the strings so far. -/
structure Cursor where
  rest : Text
  nodes : Nat
  decoded : Nat

def take : Text → Except String (UInt8 × Text)
  | [] => .error "truncated JSON"
  | c :: rest => .ok (c, rest)

def unicodeUnit : Nat → Nat → Text → Except String (Nat × Text)
  | 0, result, input => .ok (result, input)
  | n + 1, result, input => do
    let (c, rest) ← take input
    match hexDigit c with
    | none => .error "invalid JSON Unicode escape"
    | some digit => unicodeUnit n (result * 16 + digit) rest

/-- The bytes of what follows `\u`. -/
def unicode (input : Text) : Except String (Text × Text) := do
  let (first, rest) ← unicodeUnit 4 0 input
  if 0xDC00 ≤ first ∧ first ≤ 0xDFFF then .error "isolated low surrogate"
  else if first < 0xD800 ∨ 0xDBFF < first then .ok (utf8Bytes first, rest)
  else
    let (c, rest) ← take rest
    if c ≠ 92 then .error "high surrogate is missing a low surrogate"
    else
      let (c, rest) ← take rest
      if c ≠ 117 then .error "high surrogate is missing a low surrogate"
      else
        let (second, rest) ← unicodeUnit 4 0 rest
        if second < 0xDC00 ∨ 0xDFFF < second then
          .error "high surrogate is followed by an invalid low surrogate"
        else .ok (utf8Bytes (0x10000 + (first - 0xD800) * 1024 + (second - 0xDC00)), rest)

def simpleEscape (escaped : UInt8) : Option UInt8 :=
  if escaped = 34 ∨ escaped = 92 ∨ escaped = 47 then some escaped
  else if escaped = 98 then some 8
  else if escaped = 102 then some 12
  else if escaped = 110 then some 10
  else if escaped = 114 then some 13
  else if escaped = 116 then some 9
  else none

variable (p : JsonParser)

def checkString (result : Text) : Except String Text :=
  if p.stringLimit < result.length then .error "JSON string byte limit exceeded" else .ok result

/-- The loop of `string`. Every turn takes a byte, so the length of the input is enough
fuel. -/
def stringBody : Nat → Text → Text → Except String (Text × Text)
  | 0, _, _ => .error "truncated JSON"
  | fuel + 1, result, input => do
    let (value, rest) ← take input
    if value = 34 then .ok (result, rest)
    else if value < 0x20 then .error "control byte in JSON"
    else if value ≠ 92 then
      let result ← checkString p (result ++ [value])
      stringBody fuel result rest
    else
      let (escaped, rest) ← take rest
      match simpleEscape escaped with
      | some byte =>
        let result ← checkString p (result ++ [byte])
        stringBody fuel result rest
      | none =>
        if escaped = 117 then
          let (bytes, rest) ← unicode rest
          let result ← checkString p (result ++ bytes)
          stringBody fuel result rest
        else .error "invalid JSON escape"

def string (c : Cursor) : Except String (Text × Cursor) := do
  let (quote, rest) ← take c.rest
  if quote ≠ 34 then .error "JSON string expected"
  else
    let (result, rest) ← stringBody p (rest.length + 1) [] rest
    if p.size - c.decoded < result.length then .error "JSON decoded string budget exceeded"
    else .ok (result, ⟨rest, c.nodes, c.decoded + result.length⟩)

/-- A parser of values. -/
abbrev ValueParser := Cursor → Except String (Json × Cursor)

def Cursor.skip (c : Cursor) : Cursor := { c with rest := skipWhitespace c.rest }

/-- The loop of `object`. -/
def members (value : ValueParser) : Nat → List (Text × Json) → Cursor →
    Except String (List (Text × Json) × Cursor)
  | 0, _, _ => .error "truncated JSON"
  | fuel + 1, result, c => do
    let (key, c) ← string p c.skip
    let (colon, rest) ← take c.skip.rest
    if colon ≠ 58 then .error "JSON member separator expected"
    else
      let (item, c) ← value { c with rest }
      if result.any (·.1 = key) then .error "duplicate JSON member"
      else
        let (separator, rest) ← take c.skip.rest
        if separator = 125 then .ok (result ++ [(key, item)], { c with rest })
        else if separator = 44 then members value fuel (result ++ [(key, item)]) { c with rest }
        else .error "JSON object delimiter expected"

def parseObject (value : ValueParser) (c : Cursor) : Except String (Json × Cursor) :=
  match skipWhitespace c.rest with
  | 125 :: rest => .ok (.object [], { c with rest })
  | rest => do
    let (result, c) ← members p value (rest.length + 1) [] { c with rest }
    .ok (.object result, c)

/-- The loop of `array`. -/
def items (value : ValueParser) : Nat → List Json → Cursor → Except String (List Json × Cursor)
  | 0, _, _ => .error "truncated JSON"
  | fuel + 1, result, c => do
    let (item, c) ← value c
    let (separator, rest) ← take c.skip.rest
    if separator = 93 then .ok (result ++ [item], { c with rest })
    else if separator = 44 then items value fuel (result ++ [item]) { c with rest }
    else .error "JSON array delimiter expected"

def parseArray (value : ValueParser) (c : Cursor) : Except String (Json × Cursor) :=
  match skipWhitespace c.rest with
  | 93 :: rest => .ok (.array [], { c with rest })
  | rest => do
    let (result, c) ← items value (rest.length + 1) [] { c with rest }
    .ok (.array result, c)

/-- `room` is how many levels are left: `7 - depth`. -/
def value : Nat → ValueParser
  | 0, _ => .error "JSON nesting limit exceeded"
  | room + 1, c =>
    if p.nodeLimit < c.nodes + 1 then .error "JSON node limit exceeded"
    else
      match skipWhitespace c.rest with
      | [] => .error "missing JSON value"
      | first :: rest =>
        if first = 34 then do
          let (text, c) ← string p ⟨first :: rest, c.nodes + 1, c.decoded⟩
          .ok (.string text, c)
        else if first = 123 then parseObject p (value room) ⟨rest, c.nodes + 1, c.decoded⟩
        else if first = 91 then parseArray (value room) ⟨rest, c.nodes + 1, c.decoded⟩
        else .error "unsupported JSON value"

/-- A limit of nodes that a word cannot hold is refused. -/
def jsonParser (input : Text) (limits : TreeFormatLimits) : Except String JsonParser :=
  if (2 ^ 64 - 1 - 16) / 6 < limits.maxEntries then
    .error "tree manifest entry limit cannot be represented"
  else .ok ⟨input.length, 16 + limits.maxEntries * 6, max limits.maxRelativePathBytes 256⟩

def parse (input : Text) (limits : TreeFormatLimits) : Except String Json := do
  let p ← jsonParser input limits
  let (result, c) ← value p 7 ⟨input, 0, 0⟩
  match skipWhitespace c.rest with
  | [] => .ok result
  | _ => .error "trailing JSON data"

/-! Members. -/

def asObject : Json → Except String (List (Text × Json))
  | .object members => .ok members
  | _ => .error "JSON object expected"

def asArray : Json → Except String (List Json)
  | .array items => .ok items
  | _ => .error "JSON array expected"

def member (members : List (Text × Json)) (key : Text) : Except String Json :=
  match members.find? (·.1 = key) with
  | none => .error "required JSON member absent"
  | some found => .ok found.2

def stringMember (members : List (Text × Json)) (key : Text) : Except String Text := do
  match ← member members key with
  | .string value => .ok value
  | _ => .error "JSON string expected"

def exactMembers (members : List (Text × Json)) (names : List Text) : Except String Unit :=
  if members.length ≠ names.length ∨ !names.all (fun name => members.any (·.1 = name)) then
    .error "unknown or missing JSON member"
  else .ok ()

def decimalSize (value : Text) : Except String Nat :=
  if value = [] ∨ 1 < value.length ∧ value.head? = some 48 then
    .error "manifest entry size is not canonical"
  else
    value.foldlM (fun result c =>
      if c < 48 ∨ 57 < c ∨ (2 ^ 64 - 1 - (c.toNat - 48)) / 10 < result then
        .error "manifest entry size is invalid"
      else .ok (result * 10 + (c.toNat - 48))) 0

def lowerHex (value : Text) (length : Nat) : Bool :=
  value.length = length && value.all (fun c => 48 ≤ c && c ≤ 57 || 97 ≤ c && c ≤ 102)

/-! Paths. -/

def combining (codePoint : Nat) : Bool :=
  0x0300 ≤ codePoint && codePoint ≤ 0x036F || 0x1AB0 ≤ codePoint && codePoint ≤ 0x1AFF ||
    0x1DC0 ≤ codePoint && codePoint ≤ 0x1DFF || 0x20D0 ≤ codePoint && codePoint ≤ 0x20FF ||
    0xFE20 ≤ codePoint && codePoint ≤ 0xFE2F || codePoint = 0x3099 || codePoint = 0x309A ||
    0x1100 ≤ codePoint && codePoint ≤ 0x11FF || 0xA960 ≤ codePoint && codePoint ≤ 0xA97F ||
    0xD7B0 ≤ codePoint && codePoint ≤ 0xD7FF

/-- A code point that no portable path has; `least` is the first one of its width. -/
def refused (least codePoint : Nat) : Bool :=
  codePoint < least || 0x10FFFF < codePoint || 0xD800 ≤ codePoint && codePoint ≤ 0xDFFF ||
    codePoint = 0x85 || codePoint = 0x2028 || codePoint = 0x2029 ||
    0x7F ≤ codePoint && codePoint ≤ 0x9F || 0xFDD0 ≤ codePoint && codePoint ≤ 0xFDEF ||
    codePoint % 0x10000 = 0xFFFE || codePoint % 0x10000 = 0xFFFF || combining codePoint

/-- The code point of a lead byte and its continuations. -/
def codePoint (lead : Nat) (tail : List UInt8) : Except String Nat :=
  tail.foldlM (fun code byte =>
    if byte &&& 0xC0 ≠ 0x80 then .error "manifest entry path is not valid UTF-8"
    else .ok (code * 64 + byte.toNat % 64)) lead

def fold (byte : UInt8) : UInt8 := if 65 ≤ byte ∧ byte ≤ 90 then byte + 32 else byte

/-- The bytes of one character of several bytes, which are kept. -/
def character (lead least : Nat) (bytes : Text) : Except String Text := do
  let code ← codePoint lead bytes.tail
  if refused least code then .error "manifest entry path is not portable normalized UTF-8"
  else .ok bytes

def foldComponent : Text → Except String Text
  | [] => .ok []
  | a :: rest =>
    if a < 0x80 then
      if refused 0 a.toNat then .error "manifest entry path is not portable normalized UTF-8"
      else if a < 0x20 ∨ a ∈ [60, 62, 34, 124, 63, 42] then
        .error "manifest entry path contains a non-portable character"
      else do
        let folded ← foldComponent rest
        .ok (fold a :: folded)
    else if 0xC2 ≤ a ∧ a ≤ 0xDF then
      match rest with
      | b :: rest => do
        let bytes ← character (a.toNat % 32) 0x80 [a, b]
        let folded ← foldComponent rest
        .ok (bytes ++ folded)
      | _ => .error "manifest entry path is not valid UTF-8"
    else if 0xE0 ≤ a ∧ a ≤ 0xEF then
      match rest with
      | b :: c :: rest => do
        let bytes ← character (a.toNat % 16) 0x800 [a, b, c]
        let folded ← foldComponent rest
        .ok (bytes ++ folded)
      | _ => .error "manifest entry path is not valid UTF-8"
    else if 0xF0 ≤ a ∧ a ≤ 0xF4 then
      match rest with
      | b :: c :: d :: rest => do
        let bytes ← character (a.toNat % 8) 0x10000 [a, b, c, d]
        let folded ← foldComponent rest
        .ok (bytes ++ folded)
      | _ => .error "manifest entry path is not valid UTF-8"
    else .error "manifest entry path is not valid UTF-8"

/-- A device name, its number also as a superscript. -/
def reserved (folded : Text) : Bool :=
  let stem := folded.takeWhile (· ≠ 46)
  let device := (ascii "com").isPrefixOf stem || (ascii "lpt").isPrefixOf stem
  stem = ascii "con" || stem = ascii "prn" || stem = ascii "aux" || stem = ascii "nul" ||
    stem.length = 4 && device && stem.getLast?.any (fun digit => 49 ≤ digit && digit ≤ 57) ||
    stem.length = 5 && device && ([0xC2, 0xB9].isSuffixOf stem ||
      [0xC2, 0xB2].isSuffixOf stem || [0xC2, 0xB3].isSuffixOf stem)

/-- The loop over the components, with their number and the key so far. -/
def keyLoop (limits : TreeFormatLimits) : Nat → Text → List Text → Except String Text
  | _, key, [] => .ok key
  | depth, key, component :: rest =>
    if limits.maxRelativePathDepth < depth + 1 then .error "manifest entry path is too deep"
    else if component = [] ∨ component = [46] ∨ component = [46, 46] ∨
        component.head? = some 32 ∨ component.getLast? = some 46 ∨
        component.getLast? = some 32 then
      .error "manifest entry path is not canonical"
    else do
      let folded ← foldComponent component
      if reserved folded then .error "manifest entry path uses a reserved portable name"
      else
        let key := if key = [] then folded else key ++ 47 :: folded
        keyLoop limits (depth + 1) key rest

def portablePathKey (path : Text) (limits : TreeFormatLimits) : Except String Text :=
  if path = [] ∨ limits.maxRelativePathBytes < path.length ∨ path.head? = some 47 ∨
      path.getLast? = some 47 ∨ 92 ∈ path ∨ 58 ∈ path then
    .error "manifest entry path is not portable"
  else keyLoop limits 0 [] (path.splitOn 47)

/-! The manifest. -/

structure TreeManifestEntry where
  path : Text
  size : Nat
  sha256 : Text
deriving DecidableEq

def treeManifestSchema : Text := ascii "baas.runtime-repository.tree-manifest/v1"

/-- The entries so far, the portable keys and the bytes of the files. -/
structure Manifest where
  result : List TreeManifestEntry
  portablePaths : List Text
  total : Nat

def readEntry (manifestName : Text) (limits : TreeFormatLimits) (total : Nat) (item : Json) :
    Except String (TreeManifestEntry × Text) := do
  let entry ← asObject item
  exactMembers entry [ascii "path", ascii "size", ascii "sha256", ascii "mode"]
  let path ← stringMember entry (ascii "path")
  let size ← decimalSize (← stringMember entry (ascii "size"))
  let sha256 ← stringMember entry (ascii "sha256")
  let mode ← stringMember entry (ascii "mode")
  if mode ≠ ascii "file" ∨ lowerHex sha256 64 = false ∨ path = manifestName ∨
      limits.maxFileBytes < size ∨ limits.maxTotalBytes - total < size then
    .error "tree manifest entry is invalid or exceeds limits"
  else
    let key ← portablePathKey path limits
    .ok (⟨path, size, sha256⟩, key)

def readEntries (manifestName : Text) (limits : TreeFormatLimits) :
    Manifest → List Json → Except String Manifest
  | manifest, [] => .ok manifest
  | manifest, item :: rest =>
    if manifest.result.length = limits.maxEntries then
      .error "tree manifest entry limit exceeded"
    else do
      let (entry, key) ← readEntry manifestName limits manifest.total item
      if key ∈ manifest.portablePaths then .error "tree manifest contains a portable path alias"
      else
        readEntries manifestName limits ⟨manifest.result ++ [entry], key :: manifest.portablePaths,
          manifest.total + entry.size⟩ rest

def adjacentEqual : List TreeManifestEntry → Bool
  | first :: second :: rest => first.path = second.path || adjacentEqual (second :: rest)
  | _ => false

def readManifest (document : Json) (manifestName : Text) (limits : TreeFormatLimits) :
    Except String (List TreeManifestEntry) := do
  let root ← asObject document
  exactMembers root [ascii "schema", ascii "entries"]
  let schema ← stringMember root (ascii "schema")
  if schema ≠ treeManifestSchema then .error "invalid tree manifest schema"
  else
    let own ← portablePathKey manifestName limits
    let entries ← asArray (← member root (ascii "entries"))
    let manifest ← readEntries manifestName limits ⟨[], [own], 0⟩ entries
    let result := manifest.result.insertionSort (fun left right => left.path ≤ right.path)
    if adjacentEqual result then .error "tree manifest contains duplicate entries"
    else .ok result

def parseTreeManifest (bytes manifestName : Text) (limits : TreeFormatLimits) :
    Except String (List TreeManifestEntry) := do
  let document ← parse bytes limits
  readManifest document manifestName limits

end Baas.TreeFormat
