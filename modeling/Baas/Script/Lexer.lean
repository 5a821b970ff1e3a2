import Baas.Lib.Scalars
import Baas.Script.HeapData

/-! The lexer of the script language. -/
namespace Baas.Lexer

open Baas.Script (Bytes SourceLocation SourceSpan)
open Scalars

structure DecodedCodePoint where
  value : Nat
  length : Nat
  valid : Bool
deriving DecidableEq

/-- The length, the payload and the least value that a lead byte announces. -/
def leadByte (first : UInt8) : Option (Nat × Nat × Nat) :=
  if 0xC2 ≤ first ∧ first ≤ 0xDF then some (2, (first &&& 0x1F).toNat, 0x80)
  else if 0xE0 ≤ first ∧ first ≤ 0xEF then some (3, (first &&& 0x0F).toNat, 0x800)
  else if 0xF0 ≤ first ∧ first ≤ 0xF4 then some (4, (first &&& 0x07).toNat, 0x10000)
  else none

/-- Decodes the start of what is left of a source. -/
def decodeUtf8 : Bytes → DecodedCodePoint
  | [] => ⟨0, 0, false⟩
  | first :: rest =>
    if first ≤ 0x7F then ⟨first.toNat, 1, true⟩
    else match leadByte first with
      | none => ⟨0, 1, false⟩
      | some (length, payload, minimum) =>
        if length > rest.length + 1 then ⟨0, 1, false⟩
        else if (rest.take (length - 1)).any fun byte => byte &&& 0xC0 != 0x80 then ⟨0, 1, false⟩
        else
          let value := (rest.take (length - 1)).foldl
            (fun value byte => value * 64 + (byte &&& 0x3F).toNat) payload
          if value < minimum ∨ value > 0x10FFFF ∨ (value ≥ 0xD800 ∧ value ≤ 0xDFFF) then
            ⟨0, 1, false⟩
          else ⟨value, length, true⟩

def isAsciiDigit (byte : UInt8) : Bool := 48 ≤ byte && byte ≤ 57

def isIdentifierStart (value : Nat) : Bool :=
  value == 95 || (97 ≤ value && value ≤ 122) || (65 ≤ value && value ≤ 90) || 0x80 ≤ value

def isIdentifierContinue (value : Nat) : Bool :=
  isIdentifierStart value || (48 ≤ value && value ≤ 57)

inductive TokenKind
  | endOfFile | identifier | integer | float | string
  | kwLet | kwFn | kwIf | kwElse | kwWhile | kwFor | kwIn | kwReturn | kwBreak | kwContinue
  | kwImport | kwAs | kwTrue | kwFalse | kwNull | kwTry | kwCatch | kwThrow | kwDefer | kwAsync
  | kwAwait | kwAnd | kwOr | kwNot | kwIs
  | plus | minus | star | power | slash | floorDivide | percent | equal | equalEqual | bang
  | bangEqual | less | lessEqual | greater | greaterEqual | andAnd | orOr | ampersand | pipe
  | caret | tilde | plusEqual | minusEqual | starEqual | powerEqual | slashEqual
  | floorDivideEqual | percentEqual | plusPlus | minusMinus | arrow | fatArrow | dot | dotDot
  | comma | colon | semicolon | question | leftParen | rightParen | leftBracket | rightBracket
  | leftBrace | rightBrace
deriving DecidableEq

/-- An ASCII text. -/
def bytes (text : List Char) : Bytes := text.map fun c => UInt8.ofNat c.toNat

def keywords : List (Bytes × TokenKind) :=
  [(bytes ['l', 'e', 't'], .kwLet), (bytes ['f', 'n'], .kwFn), (bytes ['i', 'f'], .kwIf),
    (bytes ['e', 'l', 's', 'e'], .kwElse), (bytes ['w', 'h', 'i', 'l', 'e'], .kwWhile),
    (bytes ['f', 'o', 'r'], .kwFor), (bytes ['i', 'n'], .kwIn),
    (bytes ['r', 'e', 't', 'u', 'r', 'n'], .kwReturn),
    (bytes ['b', 'r', 'e', 'a', 'k'], .kwBreak),
    (bytes ['c', 'o', 'n', 't', 'i', 'n', 'u', 'e'], .kwContinue),
    (bytes ['i', 'm', 'p', 'o', 'r', 't'], .kwImport), (bytes ['a', 's'], .kwAs),
    (bytes ['t', 'r', 'u', 'e'], .kwTrue), (bytes ['f', 'a', 'l', 's', 'e'], .kwFalse),
    (bytes ['n', 'u', 'l', 'l'], .kwNull), (bytes ['t', 'r', 'y'], .kwTry),
    (bytes ['c', 'a', 't', 'c', 'h'], .kwCatch), (bytes ['t', 'h', 'r', 'o', 'w'], .kwThrow),
    (bytes ['d', 'e', 'f', 'e', 'r'], .kwDefer), (bytes ['a', 's', 'y', 'n', 'c'], .kwAsync),
    (bytes ['a', 'w', 'a', 'i', 't'], .kwAwait), (bytes ['a', 'n', 'd'], .kwAnd),
    (bytes ['o', 'r'], .kwOr), (bytes ['n', 'o', 't'], .kwNot), (bytes ['i', 's'], .kwIs)]

def keywordKind (text : Bytes) : TokenKind := (keywords.lookup text).getD .identifier

/-- The spellings of the operators, in the order in which they are tried. -/
def operators : List (Bytes × TokenKind) :=
  [(bytes ['/', '/', '='], .floorDivideEqual), (bytes ['*', '*', '='], .powerEqual),
    (bytes ['=', '='], .equalEqual), (bytes ['!', '='], .bangEqual),
    (bytes ['<', '='], .lessEqual), (bytes ['>', '='], .greaterEqual),
    (bytes ['&', '&'], .andAnd), (bytes ['|', '|'], .orOr), (bytes ['+', '='], .plusEqual),
    (bytes ['-', '='], .minusEqual), (bytes ['*', '='], .starEqual),
    (bytes ['/', '='], .slashEqual), (bytes ['%', '='], .percentEqual),
    (bytes ['+', '+'], .plusPlus), (bytes ['-', '-'], .minusMinus), (bytes ['-', '>'], .arrow),
    (bytes ['=', '>'], .fatArrow), (bytes ['.', '.'], .dotDot),
    (bytes ['/', '/'], .floorDivide), (bytes ['*', '*'], .power),
    (bytes ['+'], .plus), (bytes ['-'], .minus), (bytes ['*'], .star), (bytes ['/'], .slash),
    (bytes ['%'], .percent), (bytes ['='], .equal), (bytes ['!'], .bang), (bytes ['<'], .less),
    (bytes ['>'], .greater), (bytes ['&'], .ampersand), (bytes ['|'], .pipe),
    (bytes ['^'], .caret), (bytes ['~'], .tilde), (bytes ['.'], .dot), (bytes [','], .comma),
    (bytes [':'], .colon), (bytes [';'], .semicolon), (bytes ['?'], .question),
    (bytes ['('], .leftParen), (bytes [')'], .rightParen), (bytes ['['], .leftBracket),
    (bytes [']'], .rightBracket), ([123], .leftBrace), ([125], .rightBrace)]

theorem operators_pos {operator : Bytes × TokenKind} (known : operator ∈ operators) :
    0 < operator.1.length := by
  have all : ∀ operator ∈ operators, 0 < operator.1.length := by decide
  exact all operator known

structure Token where
  kind : TokenKind
  lexeme : Bytes
  value : Bytes
  span : SourceSpan
deriving DecidableEq

inductive DiagnosticSeverity
  | error | warning
deriving DecidableEq

structure Diagnostic where
  severity : DiagnosticSeverity
  code : String
  message : String
  span : SourceSpan
deriving DecidableEq

structure LexResult where
  tokens : List Token
  diagnostics : List Diagnostic
deriving DecidableEq

/-- The offset, the line and the column, and what has been found. -/
structure Scanner where
  location : SourceLocation
  result : LexResult
deriving DecidableEq

variable (source : Bytes)

def substr (start stop : SourceLocation) : Bytes :=
  (source.drop start.byteOffset).take (stop.byteOffset - start.byteOffset)

/-- How many bytes a scalar, or a byte that starts none, takes. -/
def unitLength (rest : Bytes) : Nat :=
  if (decodeUtf8 rest).valid then (decodeUtf8 rest).length else 1

def advance (here : SourceLocation) : SourceLocation :=
  match source.drop here.byteOffset with
  | [] => here
  | byte :: rest =>
    if byte = 13 then
      ⟨here.byteOffset + (if rest.head? = some 10 then 2 else 1), here.line + 1, 1⟩
    else if byte = 10 then ⟨here.byteOffset + 1, here.line + 1, 1⟩
    else ⟨here.byteOffset + unitLength (byte :: rest), here.line, here.column + 1⟩

theorem leadByte_two {a : UInt8} (low : 0xC2 ≤ a.toNat) (high : a.toNat ≤ 0xDF) :
    leadByte a = some (2, a.toNat - 0xC0, 0x80) := by
  unfold leadByte
  simp only [UInt8.le_iff_toNat_le, UInt8.reduceToNat]
  rw [if_pos ⟨low, high⟩, and_lead_two low high]

theorem leadByte_three {a : UInt8} (low : 0xE0 ≤ a.toNat) (high : a.toNat ≤ 0xEF) :
    leadByte a = some (3, a.toNat - 0xE0, 0x800) := by
  unfold leadByte
  simp only [UInt8.le_iff_toNat_le, UInt8.reduceToNat]
  rw [if_neg (by omega), if_pos ⟨low, high⟩, and_lead_three low high]

theorem leadByte_four {a : UInt8} (low : 0xF0 ≤ a.toNat) (high : a.toNat ≤ 0xF4) :
    leadByte a = some (4, a.toNat - 0xF0, 0x10000) := by
  unfold leadByte
  simp only [UInt8.le_iff_toNat_le, UInt8.reduceToNat]
  rw [if_neg (by omega), if_neg (by omega), if_pos ⟨low, high⟩, and_lead_four low high]

theorem leadByte_none {a : UInt8} (other : ¬ (0xC2 ≤ a.toNat ∧ a.toNat ≤ 0xF4)) :
    leadByte a = none := by
  unfold leadByte
  simp only [UInt8.le_iff_toNat_le, UInt8.reduceToNat]
  rw [if_neg (by omega), if_neg (by omega), if_neg (by omega)]

theorem tails_iff {l : Bytes} :
    (l.any fun byte => byte &&& 0xC0 != 0x80) = false ↔ ∀ b ∈ l, Tail b := by
  rw [List.any_eq_false]
  exact forall_congr' fun b => imp_congr_right fun _ => by
    rw [← tail_iff]
    simp [bne]

/-- The value that is accepted. -/
theorem decode_long {first : UInt8} (tail rest : Bytes) {length payload minimum value : Nat}
    (high : ¬ first.toNat ≤ 0x7F) (lead : leadByte first = some (length, payload, minimum))
    (size : length = tail.length + 1) (tails : ∀ b ∈ tail, Tail b)
    (folded : tail.foldl (fun value byte => value * 64 + (byte &&& 0x3F).toNat) payload = value) :
    decodeUtf8 (first :: (tail ++ rest)) =
      if value < minimum ∨ value > 0x10FFFF ∨ (value ≥ 0xD800 ∧ value ≤ 0xDFFF) then ⟨0, 1, false⟩
      else ⟨value, length, true⟩ := by
  have taken : (tail ++ rest).take (length - 1) = tail := by
    rw [size, Nat.add_sub_cancel, List.take_left]
  have room : ¬ length > (tail ++ rest).length + 1 := by
    rw [List.length_append]
    omega
  unfold decodeUtf8
  simp only [UInt8.le_iff_toNat_le, UInt8.reduceToNat]
  rw [if_neg high, lead]
  dsimp only
  rw [if_neg room, taken, tails_iff.mpr tails, if_neg Bool.false_ne_true, folded]

theorem decode_encode (c : Char) (rest : Bytes) :
    decodeUtf8 (String.utf8EncodeChar c ++ rest) =
      ⟨c.toNat, (String.utf8EncodeChar c).length, true⟩ := by
  have range := scalar_range c
  have shape := shape_encode c
  generalize String.utf8EncodeChar c = l at shape
  generalize c.toNat = v at shape range
  cases shape with
  | @one a low =>
    have ascii : a ≤ 0x7F := UInt8.le_iff_toNat_le.mpr low
    rw [List.singleton_append, decodeUtf8, if_pos ascii]
    rfl
  | @two a b low high tail =>
    have ⟨lowB, highB⟩ : 0x80 ≤ b.toNat ∧ b.toNat ≤ 0xBF := tail
    have decoded := decode_long [b] rest (by omega) (leadByte_two low high) rfl
      (by simpa using tail) (by rw [List.foldl_cons, List.foldl_nil, tail_low tail])
    rw [if_neg (by omega)] at decoded
    exact decoded
  | @three a b c low high tail tail' least =>
    have decoded := decode_long [b, c] rest (by omega)
      (leadByte_three low high) rfl (by simp [tail, tail'])
      (by rw [List.foldl_cons, List.foldl_cons, List.foldl_nil, tail_low tail, tail_low tail'])
    rw [if_neg (by omega)] at decoded
    exact decoded
  | @four a b c d low high tail tail' tail'' least =>
    have decoded := decode_long [b, c, d] rest (by omega)
      (leadByte_four low high) rfl (by simp [tail, tail', tail''])
      (by rw [List.foldl_cons, List.foldl_cons, List.foldl_cons, List.foldl_nil, tail_low tail,
        tail_low tail', tail_low tail''])
    rw [if_neg (by omega)] at decoded
    exact decoded

/-- A valid start of several bytes has its tails. -/
theorem decode_tails {first : UInt8} {rest : Bytes} {length payload minimum : Nat}
    (high : ¬ first.toNat ≤ 0x7F) (lead : leadByte first = some (length + 1, payload, minimum))
    (valid : (decodeUtf8 (first :: rest)).valid = true) :
    ∃ tail later, rest = tail ++ later ∧ tail.length = length ∧ ∀ b ∈ tail, Tail b := by
  unfold decodeUtf8 at valid
  simp only [UInt8.le_iff_toNat_le, UInt8.reduceToNat] at valid
  rw [if_neg high, lead] at valid
  dsimp only at valid
  split at valid
  · exact absurd valid Bool.false_ne_true
  next room =>
  split at valid
  · exact absurd valid Bool.false_ne_true
  next tails =>
  rw [Bool.not_eq_true, Nat.add_sub_cancel, tails_iff] at tails
  exact ⟨rest.take length, rest.drop length, (List.take_append_drop length rest).symm,
    List.length_take_of_le (by omega), tails⟩

/-- What decodes is a scalar. -/
theorem decode_sound {rest : Bytes} (valid : (decodeUtf8 rest).valid = true) :
    ∃ c later, rest = String.utf8EncodeChar c ++ later := by
  cases rest with
  | nil => exact absurd valid Bool.false_ne_true
  | cons first rest =>
    by_cases low : first.toNat ≤ 0x7F
    · have shape : Shape first.toNat [first] := .one low
      obtain ⟨c, -, encoded⟩ := shape.encodes (by omega) (by omega)
      exact ⟨c, rest, by rw [encoded]; rfl⟩
    by_cases lead : 0xC2 ≤ first.toNat ∧ first.toNat ≤ 0xF4
    · by_cases two : first.toNat ≤ 0xDF
      · have announced := leadByte_two lead.1 two
        obtain ⟨tail, later, rfl, size, tails⟩ := decode_tails low announced valid
        obtain ⟨b, rfl⟩ := List.length_eq_one_iff.mp size
        have tb := tails b List.mem_cons_self
        rw [decode_long [b] later low announced rfl tails
          (by rw [List.foldl_cons, List.foldl_nil, tail_low tb])] at valid
        split at valid
        · exact absurd valid Bool.false_ne_true
        next fine =>
        have shape := Shape.two lead.1 two tb
        obtain ⟨c, -, encoded⟩ := shape.encodes (by omega) (by omega)
        exact ⟨c, later, by rw [encoded]; rfl⟩
      by_cases three : first.toNat ≤ 0xEF
      · have announced := leadByte_three (by omega) three
        obtain ⟨tail, later, rfl, size, tails⟩ := decode_tails low announced valid
        obtain ⟨b, c, rfl⟩ := List.length_eq_two.mp size
        have tb := tails b List.mem_cons_self
        have tc := tails c (List.mem_cons_of_mem b (List.mem_singleton_self c))
        rw [decode_long [b, c] later low announced rfl tails
          (by rw [List.foldl_cons, List.foldl_cons, List.foldl_nil, tail_low tb,
            tail_low tc])] at valid
        split at valid
        · exact absurd valid Bool.false_ne_true
        next fine =>
        have shape := Shape.three (by omega) three tb tc (by omega)
        obtain ⟨c, -, encoded⟩ := shape.encodes (by omega) (by omega)
        exact ⟨c, later, by rw [encoded]; rfl⟩
      · have announced := leadByte_four (a := first) (by omega) lead.2
        obtain ⟨tail, later, rfl, size, tails⟩ := decode_tails low announced valid
        obtain ⟨b, c, d, rfl⟩ := List.length_eq_three.mp size
        have tb := tails b (by simp)
        have tc := tails c (by simp)
        have td := tails d (by simp)
        rw [decode_long [b, c, d] later low announced rfl tails
          (by rw [List.foldl_cons, List.foldl_cons, List.foldl_cons, List.foldl_nil, tail_low tb,
            tail_low tc, tail_low td])] at valid
        split at valid
        · exact absurd valid Bool.false_ne_true
        next fine =>
        have shape := Shape.four (by omega) lead.2 tb tc td (by omega)
        obtain ⟨c, -, encoded⟩ := shape.encodes (by omega) (by omega)
        exact ⟨c, later, by rw [encoded]; rfl⟩
    · unfold decodeUtf8 at valid
      simp only [UInt8.le_iff_toNat_le, UInt8.reduceToNat] at valid
      rw [if_neg low, leadByte_none lead] at valid
      exact absurd valid Bool.false_ne_true

/-- What decodes from one byte is that byte. -/
theorem decode_one {rest : Bytes} (valid : (decodeUtf8 rest).valid = true)
    (size : (decodeUtf8 rest).length = 1) :
    ∃ byte later, rest = byte :: later ∧ (decodeUtf8 rest).value = byte.toNat := by
  obtain ⟨c, later, rfl⟩ := decode_sound valid
  rw [decode_encode] at size ⊢
  have shape := shape_encode c
  generalize String.utf8EncodeChar c = l at shape size
  generalize c.toNat = v at shape
  cases shape with
  | @one a low => exact ⟨a, later, rfl, rfl⟩
  | two => exact absurd size nofun
  | three => exact absurd size nofun
  | four => exact absurd size nofun

theorem unitLength_encode (c : Char) (rest : Bytes) :
    unitLength (String.utf8EncodeChar c ++ rest) = (String.utf8EncodeChar c).length := by
  rw [unitLength, decode_encode, if_pos rfl]

theorem unitLength_pos (rest : Bytes) : 0 < unitLength rest := by
  by_cases valid : (decodeUtf8 rest).valid = true
  · obtain ⟨c, later, rfl⟩ := decode_sound valid
    rw [unitLength_encode, String.length_utf8EncodeChar]
    exact c.utf8Size_pos
  · rw [unitLength, if_neg valid]
    exact Nat.one_pos

/-- Every step of the scanner moves it on. -/
theorem advance_lt {here : SourceLocation} (inside : here.byteOffset < source.length) :
    here.byteOffset < (advance source here).byteOffset := by
  unfold advance
  split
  · next none =>
    have short := List.drop_eq_nil_iff.mp none
    omega
  · next byte rest shape =>
    split
    · dsimp only
      split <;> omega
    split
    · exact Nat.lt_succ_self _
    · have positive := unitLength_pos (byte :: rest)
      dsimp only
      omega

theorem advance_le (here : SourceLocation) :
    here.byteOffset ≤ (advance source here).byteOffset := by
  obtain inside | outside := Nat.lt_or_ge here.byteOffset source.length
  · exact (advance_lt source inside).le
  · have none : source.drop here.byteOffset = [] := List.drop_eq_nil_iff.mpr outside
    unfold advance
    rw [none]

/-- `while (!at_end() && wanted) advance();` -/
def advanceWhile (wanted : Bytes → Bool) (here : SourceLocation) : SourceLocation :=
  if here.byteOffset < source.length then
    if wanted (source.drop here.byteOffset) then advanceWhile wanted (advance source here) else here
  else here
termination_by source.length - here.byteOffset
decreasing_by
  have moved : here.byteOffset < (advance source here).byteOffset :=
    advance_lt source (by assumption)
  omega

theorem advanceWhile_le (wanted : Bytes → Bool) (here : SourceLocation) :
    here.byteOffset ≤ (advanceWhile source wanted here).byteOffset := by
  fun_induction advanceWhile source wanted here with
  | case1 here inside _ ih => exact (advance_lt source inside).le.trans ih
  | case2 => exact Nat.le_refl _
  | case3 => exact Nat.le_refl _

theorem advanceWhile_lt {wanted : Bytes → Bool} {here : SourceLocation}
    (inside : here.byteOffset < source.length)
    (first : wanted (source.drop here.byteOffset) = true) :
    here.byteOffset < (advanceWhile source wanted here).byteOffset := by
  rw [advanceWhile, if_pos inside, if_pos first]
  exact (advance_lt source inside).trans_le (advanceWhile_le source wanted _)

namespace Scanner

variable (s : Scanner)

def atEnd : Bool := source.length ≤ s.location.byteOffset

def rest : Bytes := source.drop s.location.byteOffset

def startsWith (text : Bytes) : Bool := text.isPrefixOf (s.rest source)

def advance : Scanner := { s with location := Lexer.advance source s.location }

def advanceAscii : Nat → Scanner → Scanner
  | 0, s => s
  | count + 1, s => advanceAscii count (s.advance source)

def addToken (kind : TokenKind) (start : SourceLocation) (value : Bytes) : Scanner :=
  { s with result.tokens := s.result.tokens ++
      [⟨kind, substr source start s.location, value, ⟨start, s.location⟩⟩] }

def addError (code message : String) (start : SourceLocation) : Scanner :=
  { s with result.diagnostics := s.result.diagnostics ++
      [⟨.error, code, message, ⟨start, s.location⟩⟩] }

def diagnoseInvalidUtf8 : Scanner :=
  (s.advance source).addError "LEX001" "invalid UTF-8 byte sequence" s.location

/-- One scalar of a comment, or a byte that starts none. -/
def skipScalar : Scanner :=
  if (decodeUtf8 (s.rest source)).valid then s.advance source else s.diagnoseInvalidUtf8 source

@[simp] theorem advance_location : (s.advance source).location = Lexer.advance source s.location :=
  rfl

@[simp] theorem addError_location (code message : String) (start : SourceLocation) :
    (s.addError code message start).location = s.location := rfl

@[simp] theorem addToken_location (kind : TokenKind) (start : SourceLocation) (value : Bytes) :
    (s.addToken source kind start value).location = s.location := rfl

@[simp] theorem skipScalar_location :
    (s.skipScalar source).location = Lexer.advance source s.location := by
  unfold skipScalar
  split <;> rfl

theorem advanceAscii_le (count : Nat) :
    s.location.byteOffset ≤ (s.advanceAscii source count).location.byteOffset := by
  induction count generalizing s with
  | zero => exact Nat.le_refl _
  | succ count ih => exact (advance_le source s.location).trans (ih (s.advance source))

theorem advanceAscii_lt {count : Nat} (more : 0 < count)
    (inside : s.location.byteOffset < source.length) :
    s.location.byteOffset < (s.advanceAscii source count).location.byteOffset := by
  cases count with
  | zero => omega
  | succ count =>
    exact lt_of_lt_of_le (advance_lt source inside)
      (advanceAscii_le source (s.advance source) count)

def isSpace (byte : UInt8) : Bool :=
  byte == 32 || byte == 9 || byte == 10 || byte == 13 || byte == 12 || byte == 11

def skipSpaces : Scanner :=
  { s with location := advanceWhile source (fun rest => rest.head?.any isSpace) s.location }

/-- The rest of a line comment. -/
def skipLineComment (s : Scanner) : Scanner :=
  if inside : s.location.byteOffset < source.length then
    if (s.rest source).head?.any fun byte => byte == 10 || byte == 13 then s
    else skipLineComment (s.skipScalar source)
  else s
termination_by source.length - s.location.byteOffset
decreasing_by
  have moved := advance_lt source inside
  rw [skipScalar_location]
  omega

/-- The rest of a block comment of some depth, and the depth that is left at its end. -/
def skipBlockComment (s : Scanner) (depth : Nat) : Scanner × Nat :=
  if inside : s.location.byteOffset < source.length ∧ depth ≠ 0 then
    if s.startsWith source (bytes ['/', '*']) then
      skipBlockComment (s.advanceAscii source 2) (depth + 1)
    else if s.startsWith source (bytes ['*', '/']) then
      skipBlockComment (s.advanceAscii source 2) (depth - 1)
    else skipBlockComment (s.skipScalar source) depth
  else (s, depth)
termination_by source.length - s.location.byteOffset
decreasing_by
  · have moved := s.advanceAscii_lt source Nat.two_pos inside.1
    omega
  · have moved := s.advanceAscii_lt source Nat.two_pos inside.1
    omega
  · have moved := advance_lt source inside.1
    rw [skipScalar_location]
    omega

theorem skipSpaces_le : s.location.byteOffset ≤ (s.skipSpaces source).location.byteOffset :=
  advanceWhile_le source _ _

theorem skipLineComment_le :
    s.location.byteOffset ≤ (s.skipLineComment source).location.byteOffset := by
  fun_induction skipLineComment source s with
  | case1 => exact Nat.le_refl _
  | case2 s inside _ ih =>
    rw [skipScalar_location] at ih
    exact (advance_lt source inside).le.trans ih
  | case3 => exact Nat.le_refl _

theorem skipBlockComment_le (depth : Nat) :
    s.location.byteOffset ≤ (s.skipBlockComment source depth).1.location.byteOffset := by
  fun_induction skipBlockComment source s depth with
  | case1 s depth inside _ ih => exact (s.advanceAscii_le source 2).trans ih
  | case2 s depth inside _ _ ih => exact (s.advanceAscii_le source 2).trans ih
  | case3 s depth inside _ _ ih =>
    rw [skipScalar_location] at ih
    exact (advance_lt source inside.1).le.trans ih
  | case4 => exact Nat.le_refl _

/-- Whitespace and comments. A block comment that does not end is diagnosed. -/
def skipTrivia (s : Scanner) : Scanner :=
  let t := s.skipSpaces source
  if t.location.byteOffset < source.length then
    if t.startsWith source (bytes ['#']) then
      skipTrivia ((t.advance source).skipLineComment source)
    else if t.startsWith source (bytes ['/', '*']) then
      let commented := (t.advanceAscii source 2).skipBlockComment source 1
      if commented.2 ≠ 0 then
        commented.1.addError "LEX003" "unterminated block comment" t.location
      else skipTrivia commented.1
    else t
  else t
termination_by source.length - s.location.byteOffset
decreasing_by
  · have spaces : s.location.byteOffset ≤ t.location.byteOffset := s.skipSpaces_le source
    have moved : t.location.byteOffset < (t.advance source).location.byteOffset :=
      advance_lt source (by assumption)
    have more := (t.advance source).skipLineComment_le source
    have inside : t.location.byteOffset < source.length := by assumption
    exact Nat.sub_lt_sub_left (spaces.trans_lt inside) (spaces.trans_lt (moved.trans_le more))
  · have spaces : s.location.byteOffset ≤ t.location.byteOffset := s.skipSpaces_le source
    have moved := t.advanceAscii_lt source Nat.two_pos (by assumption)
    have more : (t.advanceAscii source 2).location.byteOffset ≤ commented.1.location.byteOffset :=
      (t.advanceAscii source 2).skipBlockComment_le source 1
    have inside : t.location.byteOffset < source.length := by assumption
    exact Nat.sub_lt_sub_left (spaces.trans_lt inside) (spaces.trans_lt (moved.trans_le more))

def scanIdentifier : Scanner :=
  let stop := advanceWhile source (fun rest =>
    (decodeUtf8 rest).valid && isIdentifierContinue (decodeUtf8 rest).value) s.location
  { s with location := stop }.addToken source (keywordKind (substr source s.location stop))
    s.location []

def digitAt (offset : Nat) : Bool := (source[offset]?).any isAsciiDigit

def skipDigits (here : SourceLocation) : SourceLocation :=
  advanceWhile source (fun rest => rest.head?.any isAsciiDigit) here

def byteAt (offset : Nat) (choices : Bytes) : Bool :=
  (source[offset]?).any fun byte => choices.contains byte

/-- The location after the fraction, when there is one. -/
def skipFraction (here : SourceLocation) : SourceLocation :=
  if byteAt source here.byteOffset (bytes ['.']) ∧ digitAt source (here.byteOffset + 1) then
    skipDigits source (Lexer.advance source here)
  else here

/-- The location after the exponent, when there is one. -/
def skipExponent (here : SourceLocation) : SourceLocation :=
  if byteAt source here.byteOffset (bytes ['e', 'E']) then
    let sign := byteAt source (here.byteOffset + 1) (bytes ['+', '-'])
    if digitAt source (here.byteOffset + 1 + (if sign then 1 else 0)) then
      let after := Lexer.advance source here
      skipDigits source (if byteAt source after.byteOffset (bytes ['+', '-']) then
        Lexer.advance source after else after)
    else here
  else here

def scanNumber : Scanner :=
  let whole := skipDigits source s.location
  let stop := skipExponent source (skipFraction source whole)
  { s with location := stop }.addToken source
    (if stop = whole then .integer else .float) s.location []

/-- The characters of the known escapes. -/
def escapes : List (UInt8 × UInt8) :=
  [(92, 92), (34, 34), (39, 39), (110, 10), (114, 13), (116, 9), (98, 8), (102, 12), (118, 11),
    (48, 0)]

/-- U+FFFD. -/
def replacement : Bytes := [0xEF, 0xBF, 0xBD]

def closeString (start : SourceLocation) (value : Bytes) : Scanner :=
  s.addToken source .string start value

def unterminated (start : SourceLocation) (value : Bytes) : Scanner :=
  (s.addError "LEX002" "unterminated string literal" start).closeString source start value

/-- The character after a backslash and what it stands for. -/
def scanEscape (escapeStart : SourceLocation) (escaped : UInt8) (value : Bytes) :
    Scanner × Bytes :=
  match escapes.lookup escaped with
  | some character => (s.advance source, value ++ [character])
  | none =>
    ((s.advance source).addError "LEX005" "unknown escape sequence" escapeStart, value ++ [escaped])

theorem inside_of_rest {s : Scanner} {byte : UInt8} {more : Bytes}
    (shape : s.rest source = byte :: more) : s.location.byteOffset < source.length := by
  by_contra outside
  have none : s.rest source = [] := List.drop_eq_nil_iff.mpr (Nat.le_of_not_lt outside)
  rw [none] at shape
  exact absurd shape nofun

theorem scanEscape_location (escapeStart : SourceLocation) (escaped : UInt8) (value : Bytes) :
    (s.scanEscape source escapeStart escaped value).1.location =
      Lexer.advance source s.location := by
  unfold scanEscape
  split <;> rfl

/-- The rest of a string after its opening quote. -/
def scanStringBody (quote : UInt8) (start : SourceLocation) (s : Scanner) (value : Bytes) :
    Scanner :=
  match _shape : s.rest source with
  | [] => s.unterminated source start value
  | byte :: _ =>
    if byte = quote then (s.advance source).closeString source start value
    else if byte = 10 ∨ byte = 13 then s.unterminated source start value
    else if byte = 92 then
      match (s.advance source).rest source with
      | [] => (s.advance source).unterminated source start value
      | escaped :: _ =>
        let next := (s.advance source).scanEscape source s.location escaped value
        scanStringBody quote start next.1 next.2
    else if (decodeUtf8 (s.rest source)).valid then
      scanStringBody quote start (s.advance source)
        (value ++ (s.rest source).take (decodeUtf8 (s.rest source)).length)
    else scanStringBody quote start (s.diagnoseInvalidUtf8 source) (value ++ replacement)
termination_by source.length - s.location.byteOffset
decreasing_by
  · have moved := advance_lt source (inside_of_rest source _shape)
    have more : (Lexer.advance source s.location).byteOffset ≤ next.1.location.byteOffset := by
      have place : next.1.location = Lexer.advance source (Lexer.advance source s.location) :=
        scanEscape_location source (s.advance source) _ _ _
      rw [place]
      exact advance_le source _
    exact Nat.sub_lt_sub_left (inside_of_rest source _shape) (moved.trans_le more)
  · have moved := advance_lt source (inside_of_rest source _shape)
    exact Nat.sub_lt_sub_left (inside_of_rest source _shape) moved
  · have moved := advance_lt source (inside_of_rest source _shape)
    exact Nat.sub_lt_sub_left (inside_of_rest source _shape) moved

def scanString (quote : UInt8) : Scanner :=
  scanStringBody source quote s.location (s.advance source) []

def scanOperatorOrError : Scanner :=
  match operators.find? fun operator => s.startsWith source operator.1 with
  | some operator =>
    (s.advanceAscii source operator.1.length).addToken source operator.2 s.location []
  | none => (s.advance source).addError "LEX004" "unexpected character" s.location

/-- What starts after the trivia. -/
def scanNext : Scanner :=
  let decoded := decodeUtf8 (s.rest source)
  if !decoded.valid then s.diagnoseInvalidUtf8 source
  else if s.location.byteOffset = 0 ∧ decoded.value = 0xFEFF then
    (s.advance source).addError "LEX006" "UTF-8 byte-order mark is not permitted" s.location
  else if isIdentifierStart decoded.value then s.scanIdentifier source
  else if decoded.length = 1 ∧ 48 ≤ decoded.value ∧ decoded.value ≤ 57 then s.scanNumber source
  else if decoded.value = 34 ∨ decoded.value = 39 then
    s.scanString source (UInt8.ofNat decoded.value)
  else s.scanOperatorOrError source

theorem skipFraction_le (here : SourceLocation) :
    here.byteOffset ≤ (skipFraction source here).byteOffset := by
  unfold skipFraction
  split
  · exact (advance_le source here).trans (advanceWhile_le source _ _)
  · exact Nat.le_refl _

theorem skipExponent_le (here : SourceLocation) :
    here.byteOffset ≤ (skipExponent source here).byteOffset := by
  have moved := advance_le source here
  unfold skipExponent
  dsimp only
  generalize here.byteOffset + 1 + _ = ahead
  split
  · split
    · refine moved.trans (le_trans ?_ (advanceWhile_le source _ _))
      split
      · exact advance_le source _
      · exact Nat.le_refl _
    · exact Nat.le_refl _
  · exact Nat.le_refl _

theorem skipTrivia_le : s.location.byteOffset ≤ (s.skipTrivia source).location.byteOffset := by
  fun_induction skipTrivia source s with
  | case1 s t inside _ ih =>
    have moved := advance_le source t.location
    have more := (t.advance source).skipLineComment_le source
    exact (s.skipSpaces_le source).trans (moved.trans (more.trans ih))
  | case2 s t inside _ _ commented _ =>
    have moved := t.advanceAscii_le source 2
    have more := (t.advanceAscii source 2).skipBlockComment_le source 1
    exact (s.skipSpaces_le source).trans (moved.trans more)
  | case3 s t inside _ _ commented _ ih =>
    have moved := t.advanceAscii_le source 2
    have more := (t.advanceAscii source 2).skipBlockComment_le source 1
    exact (s.skipSpaces_le source).trans (moved.trans (more.trans ih))
  | case4 s t => exact s.skipSpaces_le source
  | case5 s t => exact s.skipSpaces_le source

theorem scanStringBody_le (quote : UInt8) (start : SourceLocation) (value : Bytes) :
    s.location.byteOffset ≤ (s.scanStringBody source quote start value).location.byteOffset := by
  fun_induction scanStringBody source quote start s value with
  | case1 => exact Nat.le_refl _
  | case2 s _ byte => exact advance_le source s.location
  | case3 => exact Nat.le_refl _
  | case4 s => exact advance_le source s.location
  | case5 s value _ escaped _ _ next _ _ _ ih =>
    have place : next.1.location = Lexer.advance source (Lexer.advance source s.location) :=
      scanEscape_location source (s.advance source) _ _ _
    rw [place] at ih
    exact (advance_le source _).trans ((advance_le source _).trans ih)
  | case6 s value _ _ _ _ _ _ _ ih => exact (advance_le source _).trans ih
  | case7 s value _ _ _ _ _ _ _ ih => exact (advance_le source _).trans ih

/-- What is scanned next takes at least one byte. -/
theorem scanNext_lt (inside : s.location.byteOffset < source.length) :
    s.location.byteOffset < (s.scanNext source).location.byteOffset := by
  have moved := advance_lt source inside
  unfold scanNext
  dsimp only
  split
  · exact moved
  next valid =>
  rw [Bool.not_eq_true, Bool.not_eq_false'] at valid
  split
  · exact moved
  split
  next identifier =>
    have wanted : isIdentifierContinue (decodeUtf8 (s.rest source)).value = true := by
      rw [isIdentifierContinue, identifier, Bool.true_or]
    exact advanceWhile_lt source inside (by rw [← rest, valid, wanted]; rfl)
  split
  next digit =>
    obtain ⟨byte, later, shape, same⟩ := decode_one valid digit.1
    have wanted : isAsciiDigit byte = true := by
      rw [isAsciiDigit, Bool.and_eq_true, decide_eq_true_eq, decide_eq_true_eq,
        UInt8.le_iff_toNat_le, UInt8.le_iff_toNat_le, ← same]
      exact digit.2
    have whole : s.location.byteOffset < (skipDigits source s.location).byteOffset := by
      refine advanceWhile_lt source inside ?_
      rw [show source.drop s.location.byteOffset = byte :: later from shape]
      exact wanted
    exact whole.trans_le ((skipFraction_le source _).trans (skipExponent_le source _))
  split
  · exact moved.trans_le (scanStringBody_le source (s.advance source) _ _ _)
  · unfold scanOperatorOrError
    split
    next operator found =>
      have known := List.mem_of_find?_eq_some found
      exact s.advanceAscii_lt source (operators_pos known) inside
    · exact moved

end Scanner

/-- `while (!at_end())` -/
def scan (s : Scanner) : Scanner :=
  if s.location.byteOffset < source.length then
    if (s.skipTrivia source).location.byteOffset < source.length then
      scan ((s.skipTrivia source).scanNext source)
    else s.skipTrivia source
  else s
termination_by source.length - s.location.byteOffset
decreasing_by
  have skipped := s.skipTrivia_le source
  have moved := (s.skipTrivia source).scanNext_lt source (by assumption)
  have inside : s.location.byteOffset < source.length := by assumption
  exact Nat.sub_lt_sub_left inside (skipped.trans_lt moved)

def origin : SourceLocation := ⟨0, 1, 1⟩

def lex : LexResult :=
  let s := scan source ⟨origin, [], []⟩
  { s.result with tokens := s.result.tokens ++
      [⟨.endOfFile, [], [], ⟨s.location, s.location⟩⟩] }

end Baas.Lexer
