import Baas.Script.LexerPieces
import Baas.Script.Text

/-! What the lexer makes of a string literal. -/
namespace Baas.Lexer

open Baas.Script (Bytes SourceLocation SourceSpan)
open Scalars

/-- What a string literal consists of. -/
inductive Part
  | scalar (text : Bytes)
  | invalid (byte : UInt8)
  | escape (escaped character : UInt8)
  | unknown (text : Bytes)
  | dangling
deriving DecidableEq

/-- How many bytes the first character takes; CR LF is one. -/
def characterLength (rest : Bytes) : Nat :=
  if (bytes ['\r', '\n']).isPrefixOf rest then 2 else unitLength rest

/-- The parts of a literal after its opening quote, to its closing quote or the end of its
line. -/
def literalParts (quote : UInt8) : Bytes → List Part
  | [] => []
  | byte :: rest =>
    if byte = quote then []
    else if byte = 10 ∨ byte = 13 then []
    else if byte = 92 then
      match rest with
      | [] => [.dangling]
      | escaped :: more =>
        match Scanner.escapes.lookup escaped with
        | some character => .escape escaped character :: literalParts quote more
        | none =>
          let length := characterLength (escaped :: more)
          .unknown ((escaped :: more).take length) ::
            literalParts quote (more.drop (length - 1))
    else if (decodeUtf8 (byte :: rest)).valid then
      let length := (decodeUtf8 (byte :: rest)).length
      .scalar ((byte :: rest).take length) :: literalParts quote (rest.drop (length - 1))
    else .invalid byte :: literalParts quote rest
termination_by text => text.length
decreasing_by
  all_goals simp only [List.length_cons, List.length_drop]; omega

namespace Part

def spelling : Part → Bytes
  | scalar text => text
  | invalid byte => [byte]
  | escape escaped _ => [92, escaped]
  | unknown text => 92 :: text
  | dangling => [92]

/-- What a part stands for. -/
def meaning : Part → Bytes
  | scalar text => text
  | invalid _ => Scanner.replacement
  | escape _ character => [character]
  | unknown text => if (decodeUtf8 text).valid then text else Scanner.replacement
  | dangling => []

/-- What the lexer puts for a part. -/
def stored : Part → Bytes
  | unknown text => text.take 1
  | part => part.meaning

/-- What is unknown is one ASCII character. -/
def Plain : Part → Prop
  | unknown text => ∃ byte : UInt8, byte.toNat < 128 ∧ text = [byte]
  | _ => True

/-- The diagnostics that a part at some offset asks for. -/
def Diagnosed (diagnostics : List Diagnostic) (offset : Nat) : Part → Prop
  | invalid _ => ∃ d ∈ diagnostics, d.code = "LEX001" ∧ d.span.start.byteOffset = offset ∧
      d.span.stop.byteOffset = offset + 1
  | unknown text => (∃ d ∈ diagnostics, d.code = "LEX005" ∧ d.span.start.byteOffset = offset ∧
      d.span.stop.byteOffset = offset + 1 + text.length) ∧
      ((decodeUtf8 text).valid = false → ∃ d ∈ diagnostics, d.code = "LEX001" ∧
        d.span.start.byteOffset = offset + 1 ∧ d.span.stop.byteOffset = offset + 2)
  | _ => True

end Part

def AllDiagnosed (diagnostics : List Diagnostic) : Nat → List Part → Prop
  | _, [] => True
  | offset, part :: parts => part.Diagnosed diagnostics offset ∧
      AllDiagnosed diagnostics (offset + part.spelling.length) parts

/-- What a string token owes to its literal. -/
structure Faithful (source : Bytes) (result : LexResult) (token : Token) (parts : List Part) :
    Prop where
  valid : ∃ scalars, token.value = encode scalars
  value : token.value = parts.flatMap Part.meaning
  diagnosed : AllDiagnosed result.diagnostics (token.span.start.byteOffset + 1) parts

variable {source : Bytes}

theorem advance_offset (here : SourceLocation) {byte : UInt8} {rest : Bytes}
    (shape : source.drop here.byteOffset = byte :: rest) :
    (advance source here).byteOffset = here.byteOffset + characterLength (byte :: rest) := by
  have ascii (b : UInt8) (small : b ≤ 0x7F) : unitLength (b :: rest) = 1 := by
    rw [unitLength, decodeUtf8, if_pos small]
    rfl
  rw [advance, shape, characterLength]
  dsimp only
  by_cases carriage : byte = 13
  · subst carriage
    rw [if_pos rfl, ascii 13 (by decide)]
    cases rest with
    | nil => rfl
    | cons next rest =>
      by_cases line : next = 10
      · subst line
        rfl
      · have apart : (bytes ['\r', '\n']).isPrefixOf (13 :: next :: rest) = false := by
          rw [Bool.eq_false_iff, ne_eq, List.isPrefixOf_iff_prefix]
          rintro ⟨later, same⟩
          exact line (List.cons.inj (List.cons.inj same).2).1.symm
        rw [apart, List.head?_cons, if_neg (fun same => line (Option.some_inj.mp same))]
        rfl
  · have apart : (bytes ['\r', '\n']).isPrefixOf (byte :: rest) = false := by
      rw [Bool.eq_false_iff, ne_eq, List.isPrefixOf_iff_prefix]
      rintro ⟨later, same⟩
      exact carriage (List.cons.inj same).1.symm
    rw [if_neg carriage, apart]
    by_cases line : byte = 10
    · subst line
      rw [if_pos rfl, ascii 10 (by decide)]
      rfl
    · rw [if_neg line]
      rfl

theorem characterLength_pos (rest : Bytes) : 0 < characterLength rest := by
  unfold characterLength
  split
  · exact Nat.two_pos
  · exact unitLength_pos rest

theorem characterLength_le (byte : UInt8) (rest : Bytes) :
    characterLength (byte :: rest) ≤ (byte :: rest).length := by
  unfold characterLength
  split
  · next pair =>
    exact (List.isPrefixOf_iff_prefix.mp pair).length_le
  · obtain ⟨unit, after, cut, -, size⟩ := isUnit_take byte rest
    rw [size, cut, List.length_append]
    exact Nat.le_add_right _ _

theorem advance_rest {s : Scanner} {byte : UInt8} {rest : Bytes}
    (shape : s.rest source = byte :: rest) :
    (s.advance source).rest source = rest.drop (characterLength (byte :: rest) - 1) := by
  have positive := characterLength_pos (byte :: rest)
  rw [Scanner.rest, Scanner.advance_location, advance_offset s.location shape, ← List.drop_drop,
    show source.drop s.location.byteOffset = byte :: rest from shape]
  obtain ⟨n, size⟩ := Nat.exists_eq_succ_of_ne_zero positive.ne'
  rw [size, Nat.succ_sub_one, List.drop_succ_cons]

theorem advance_substr {s : Scanner} {byte : UInt8} {rest : Bytes}
    (shape : s.rest source = byte :: rest) :
    substr source s.location (s.advance source).location =
      (byte :: rest).take (characterLength (byte :: rest)) := by
  rw [substr, Scanner.advance_location, advance_offset s.location shape, Nat.add_sub_cancel_left,
    show source.drop s.location.byteOffset = byte :: rest from shape]

theorem characterLength_ascii {byte : UInt8} (rest : Bytes) (small : byte.toNat < 128)
    (other : byte ≠ 13) : characterLength (byte :: rest) = 1 := by
  have apart : (bytes ['\r', '\n']).isPrefixOf (byte :: rest) = false := by
    rw [Bool.eq_false_iff, ne_eq, List.isPrefixOf_iff_prefix]
    rintro ⟨later, same⟩
    exact other (List.cons.inj same).1.symm
  rw [characterLength, apart, if_neg Bool.false_ne_true, unitLength, decodeUtf8,
    if_pos (UInt8.le_iff_toNat_le.mpr (Nat.le_of_lt_succ small))]
  rfl

/-- A character other than CR is a scalar or a byte. -/
theorem characterLength_other {byte : UInt8} {rest : Bytes} (other : byte ≠ 13) :
    characterLength (byte :: rest) = unitLength (byte :: rest) := by
  have apart : (bytes ['\r', '\n']).isPrefixOf (byte :: rest) = false := by
    rw [Bool.eq_false_iff, ne_eq, List.isPrefixOf_iff_prefix]
    rintro ⟨later, same⟩
    exact other (List.cons.inj same).1.symm
  rw [characterLength, apart, if_neg Bool.false_ne_true]

theorem escape_ascii {escaped character : UInt8}
    (known : Scanner.escapes.lookup escaped = some character) :
    escaped.toNat < 128 ∧ escaped ≠ 13 ∧ character.toNat < 128 := by
  obtain ⟨before, after, shape, -⟩ := List.lookup_eq_some_iff.mp known
  have among : (escaped, character) ∈ Scanner.escapes := by
    rw [shape]
    exact List.mem_append_right before List.mem_cons_self
  have all : Scanner.escapes.all (fun pair =>
      decide (pair.1.toNat < 128 ∧ pair.1 ≠ 13 ∧ pair.2.toNat < 128)) = true := rfl
  exact of_decide_eq_true (List.all_eq_true.mp all _ among)

theorem Part.Diagnosed.mono {some all : List Diagnostic} {offset : Nat} {part : Part}
    (diagnosed : part.Diagnosed some offset) (known : ∀ d ∈ some, d ∈ all) :
    part.Diagnosed all offset := by
  cases part with
  | invalid byte =>
    obtain ⟨d, i, facts⟩ := diagnosed
    exact ⟨d, known d i, facts⟩
  | unknown =>
    obtain ⟨⟨d, i, facts⟩, invalid⟩ := diagnosed
    refine ⟨⟨d, known d i, facts⟩, fun bad => ?_⟩
    obtain ⟨e, j, others⟩ := invalid bad
    exact ⟨e, known e j, others⟩
  | scalar => trivial
  | escape => trivial
  | dangling => trivial

theorem AllDiagnosed.mono {some all : List Diagnostic} {offset : Nat} {parts : List Part}
    (diagnosed : AllDiagnosed some offset parts) (known : ∀ d ∈ some, d ∈ all) :
    AllDiagnosed all offset parts := by
  induction parts generalizing offset with
  | nil => trivial
  | cons part parts ih => exact ⟨diagnosed.1.mono known, ih diagnosed.2⟩

/-- What the scan of a literal's parts comes to. -/
structure Scanned (source : Bytes) (quote : UInt8) (start : SourceLocation) (s : Scanner)
    (value : Bytes) (t : Scanner) : Prop where
  tokens : t.result.tokens = s.result.tokens ++ [⟨.string, substr source start t.location,
    value ++ (literalParts quote (s.rest source)).flatMap Part.stored, ⟨start, t.location⟩⟩]
  text : ∃ closing, (closing = [] ∨ closing = [quote]) ∧ substr source s.location t.location =
    (literalParts quote (s.rest source)).flatMap Part.spelling ++ closing
  keeps : ∀ d ∈ s.result.diagnostics, d ∈ t.result.diagnostics
  diagnosed : (∀ part ∈ literalParts quote (s.rest source), part.Plain) →
    AllDiagnosed t.result.diagnostics s.location.byteOffset (literalParts quote (s.rest source))

/-- One part, and then the others. -/
theorem Scanned.cons {quote : UInt8} {start : SourceLocation} {s next t : Scanner}
    {value : Bytes} (part : Part)
    (parts : literalParts quote (s.rest source) = part :: literalParts quote (next.rest source))
    (rest : Scanned source quote start next (value ++ part.stored) t)
    (tokens : next.result.tokens = s.result.tokens)
    (keeps : ∀ d ∈ s.result.diagnostics, d ∈ next.result.diagnostics)
    (place : next.location.byteOffset = s.location.byteOffset + part.spelling.length)
    (later : next.location.byteOffset ≤ t.location.byteOffset)
    (passed : substr source s.location next.location = part.spelling)
    (diagnosed : part.Plain → part.Diagnosed next.result.diagnostics s.location.byteOffset) :
    Scanned source quote start s value t where
  tokens := by
    rw [rest.tokens, tokens, parts, List.flatMap_cons, List.append_assoc]
  text := by
    obtain ⟨closing, kind, text⟩ := rest.text
    refine ⟨closing, kind, ?_⟩
    rw [substr_append source (place ▸ Nat.le_add_right _ _) later, passed, text, parts,
      List.flatMap_cons, List.append_assoc]
  keeps := fun d known => rest.keeps d (keeps d known)
  diagnosed := by
    rw [parts]
    intro plain
    refine ⟨(diagnosed (plain part List.mem_cons_self)).mono rest.keeps, ?_⟩
    rw [← place]
    exact rest.diagnosed fun other i => plain other (List.mem_cons_of_mem part i)

theorem literalParts_stop {quote : UInt8} {byte : UInt8} {rest : Bytes}
    (stop : byte = quote ∨ byte = 10 ∨ byte = 13) : literalParts quote (byte :: rest) = [] := by
  rw [literalParts.eq_def]
  dsimp only
  by_cases same : byte = quote
  · rw [if_pos same]
  · rw [if_neg same, if_pos (stop.resolve_left same)]

theorem literalParts_scalar {quote byte : UInt8} {rest : Bytes} (quoted : byte ≠ quote)
    (line : ¬ (byte = 10 ∨ byte = 13)) (plain : byte ≠ 92)
    (valid : (decodeUtf8 (byte :: rest)).valid = true) :
    literalParts quote (byte :: rest) =
      .scalar ((byte :: rest).take (decodeUtf8 (byte :: rest)).length) ::
        literalParts quote (rest.drop ((decodeUtf8 (byte :: rest)).length - 1)) := by
  rw [literalParts.eq_def]
  dsimp only
  rw [if_neg quoted, if_neg line, if_neg plain, if_pos valid]

theorem literalParts_invalid {quote byte : UInt8} {rest : Bytes} (quoted : byte ≠ quote)
    (line : ¬ (byte = 10 ∨ byte = 13)) (plain : byte ≠ 92)
    (invalid : ¬ (decodeUtf8 (byte :: rest)).valid = true) :
    literalParts quote (byte :: rest) = .invalid byte :: literalParts quote rest := by
  rw [literalParts.eq_def]
  dsimp only
  rw [if_neg quoted, if_neg line, if_neg plain, if_neg invalid]

theorem literalParts_escape {quote escaped character : UInt8} {rest : Bytes}
    (quoted : (92 : UInt8) ≠ quote)
    (known : Scanner.escapes.lookup escaped = some character) :
    literalParts quote (92 :: escaped :: rest) =
      .escape escaped character :: literalParts quote rest := by
  rw [literalParts.eq_def]
  dsimp only
  rw [if_neg quoted, if_neg (by decide), if_pos rfl, known]

theorem literalParts_unknown {quote escaped : UInt8} {rest : Bytes}
    (quoted : (92 : UInt8) ≠ quote) (unknown : Scanner.escapes.lookup escaped = none) :
    literalParts quote (92 :: escaped :: rest) =
      .unknown ((escaped :: rest).take (characterLength (escaped :: rest))) ::
        literalParts quote (rest.drop (characterLength (escaped :: rest) - 1)) := by
  rw [literalParts.eq_def]
  dsimp only
  rw [if_neg quoted, if_neg (by decide), if_pos rfl, unknown]

variable {quote : UInt8} {start : SourceLocation} {s t : Scanner} {value : Bytes}
  {byte : UInt8} {rest : Bytes}

theorem scanned_scalar (shape : s.rest source = byte :: rest) (quoted : byte ≠ quote)
    (line : ¬ (byte = 10 ∨ byte = 13)) (plain : byte ≠ 92)
    (valid : (decodeUtf8 (byte :: rest)).valid = true)
    (later : (s.advance source).location.byteOffset ≤ t.location.byteOffset)
    (scanned : Scanned source quote start (s.advance source)
      (value ++ (byte :: rest).take (decodeUtf8 (byte :: rest)).length) t) :
    Scanned source quote start s value t := by
  have size : characterLength (byte :: rest) = (decodeUtf8 (byte :: rest)).length := by
    rw [characterLength_other fun carriage => line (.inr carriage), unitLength, if_pos valid]
  have parts := literalParts_scalar quoted line plain valid
  rw [← size, ← advance_rest shape] at parts
  rw [← size] at scanned
  refine Scanned.cons (.scalar _) ?_ scanned rfl (fun d => id) ?_ later (advance_substr shape)
    (fun _ => trivial)
  · rw [shape]
    exact parts
  rw [Part.spelling, List.length_take_of_le (characterLength_le byte rest)]
  exact advance_offset s.location shape

theorem scanned_invalid (shape : s.rest source = byte :: rest) (quoted : byte ≠ quote)
    (line : ¬ (byte = 10 ∨ byte = 13)) (plain : byte ≠ 92)
    (invalid : ¬ (decodeUtf8 (byte :: rest)).valid = true)
    (later : (s.advance source).location.byteOffset ≤ t.location.byteOffset)
    (scanned : Scanned source quote start (s.diagnoseInvalidUtf8 source)
      (value ++ Scanner.replacement) t) : Scanned source quote start s value t := by
  have size : characterLength (byte :: rest) = 1 := by
    rw [characterLength_other fun carriage => line (.inr carriage), unitLength, if_neg invalid]
  have next : (s.diagnoseInvalidUtf8 source).rest source = rest := by
    rw [show (s.diagnoseInvalidUtf8 source).rest source = (s.advance source).rest source from rfl,
      advance_rest shape, size]
    rfl
  have place : (Lexer.advance source s.location).byteOffset = s.location.byteOffset + 1 := by
    rw [advance_offset s.location shape, size]
  have passed := advance_substr shape
  rw [size] at passed
  refine Scanned.cons (.invalid byte) ?_ scanned rfl (fun d => List.mem_append_left _)
    place later passed (fun _ => ?_)
  · rw [next, shape]
    exact literalParts_invalid quoted line plain invalid
  · exact ⟨_, List.mem_append_right _ (List.mem_singleton_self _), rfl, rfl, place⟩

/-- A backslash and the character that it escapes. -/
theorem scanned_backslash {escaped : UInt8} (shape : s.rest source = 92 :: escaped :: rest)
    (quoted : (92 : UInt8) ≠ quote)
    (later : ((s.advance source).advance source).location.byteOffset ≤ t.location.byteOffset)
    (scanned : Scanned source quote start
      ((s.advance source).scanEscape source s.location escaped value).1
      ((s.advance source).scanEscape source s.location escaped value).2 t) :
    Scanned source quote start s value t := by
  have one : characterLength (92 :: escaped :: rest) = 1 :=
    characterLength_ascii _ (by decide) (by decide)
  have place := advance_offset s.location shape
  have passed := advance_substr shape
  have inner := advance_rest shape
  rw [one] at place passed inner
  have place' := advance_offset (s.advance source).location inner
  have passed' := advance_substr inner
  have next := advance_rest inner
  rw [Nat.sub_self, List.drop_zero] at inner
  have whole := substr_append source (advance_le source s.location)
    (advance_le source (s.advance source).location)
  rw [← Scanner.advance_location, ← Scanner.advance_location, passed, passed'] at whole
  unfold Scanner.scanEscape at scanned
  cases known : Scanner.escapes.lookup escaped with
  | some character =>
    rw [known] at scanned
    have ⟨small, other, _⟩ := escape_ascii known
    rw [characterLength_ascii rest small other] at place' passed' next whole
    refine Scanned.cons (.escape escaped character) ?_ scanned rfl (fun d => id) ?_ later
      whole (fun _ => trivial)
    · rw [shape, next]
      exact literalParts_escape quoted known
    · rw [Scanner.advance_location, place', Scanner.advance_location, place]
      rfl
  | none =>
    rw [known] at scanned
    have taken : ((escaped :: rest).take (characterLength (escaped :: rest))).length =
        characterLength (escaped :: rest) := List.length_take_of_le (characterLength_le _ _)
    obtain ⟨n, size⟩ := Nat.exists_eq_succ_of_ne_zero (characterLength_pos (escaped :: rest)).ne'
    have tail : Scanned source quote start (((s.advance source).advance source).addError "LEX005"
        "unknown escape sequence" s.location)
        (value ++ (Part.unknown
          ((escaped :: rest).take (characterLength (escaped :: rest)))).stored) t := by
      rw [Part.stored, size, List.take_succ_cons, List.take_succ_cons, List.take_zero]
      exact scanned
    have stop : (Lexer.advance source (s.advance source).location).byteOffset =
        s.location.byteOffset + 1 + characterLength (escaped :: rest) := by
      rw [place', Scanner.advance_location, place]
    refine Scanned.cons (.unknown ((escaped :: rest).take (characterLength (escaped :: rest)))) ?_
      tail rfl (fun d => List.mem_append_left _) ?_ later whole (fun plain => ?_)
    · rw [shape]
      exact (literalParts_unknown quoted known).trans (by rw [← next]; rfl)
    · rw [Part.spelling, List.length_cons, taken]
      exact stop.trans (by omega)
    · refine ⟨⟨_, List.mem_append_right _ (List.mem_singleton_self _), rfl, rfl, ?_⟩, ?_⟩
      · rw [taken]
        exact stop
      · intro invalid
        obtain ⟨byte, small, same⟩ := plain
        rw [same, decodeUtf8,
          if_pos (UInt8.le_iff_toNat_le.mpr (Nat.le_of_lt_succ small))] at invalid
        exact absurd invalid Bool.true_eq_false.mp

/-- A backslash at the end of the source. -/
theorem scanned_dangling (shape : s.rest source = 92 :: rest) (quoted : (92 : UInt8) ≠ quote)
    (none : (s.advance source).rest source = []) :
    Scanned source quote start s value ((s.advance source).unterminated source start value) := by
  have one : characterLength (92 :: rest) = 1 := characterLength_ascii _ (by decide) (by decide)
  have alone := advance_rest shape
  have taken := advance_substr shape
  rw [one, none, Nat.sub_self, List.drop_zero] at alone
  subst alone
  rw [one] at taken
  have parts : literalParts quote (s.rest source) = [.dangling] := by
    rw [shape, literalParts.eq_def]
    dsimp only
    rw [if_neg quoted, if_neg (by decide), if_pos rfl]
  refine ⟨?_, ⟨[], .inl rfl, ?_⟩, fun d => List.mem_append_left _, ?_⟩
  · rw [parts, List.flatMap_singleton, Part.stored, Part.meaning, List.append_nil]
    · rfl
    · exact nofun
  · rw [parts]
    exact taken
  · rw [parts]
    exact fun _ => ⟨trivial, trivial⟩

theorem scanned (source : Bytes) (quote : UInt8) (start : SourceLocation) (s : Scanner)
    (value : Bytes) (ascii : quote.toNat < 128) (noBreak : quote ≠ 13) :
    Scanned source quote start s value (s.scanStringBody source quote start value) := by
  fun_induction Scanner.scanStringBody source quote start s value with
  | case1 s value shape =>
    have parts : literalParts quote (s.rest source) = [] := by rw [shape, literalParts]
    refine ⟨?_, ⟨[], .inl rfl, ?_⟩, fun d => List.mem_append_left _, ?_⟩
    · rw [parts, List.flatMap_nil, List.append_nil]
      rfl
    · rw [parts]
      exact substr_self _
    · rw [parts]
      exact fun _ => trivial
  | case2 s value rest shape =>
    have parts : literalParts quote (s.rest source) = [] := by
      rw [shape, literalParts_stop (.inl rfl)]
    refine ⟨?_, ⟨[quote], .inr rfl, ?_⟩, fun d => id, ?_⟩
    · rw [parts, List.flatMap_nil, List.append_nil]
      rfl
    · rw [parts]
      have closed := advance_substr shape
      rw [characterLength_ascii rest ascii noBreak] at closed
      exact closed
    · rw [parts]
      exact fun _ => trivial
  | case3 s value byte rest shape quoted line =>
    have parts : literalParts quote (s.rest source) = [] := by
      rw [shape, literalParts_stop (.inr line)]
    refine ⟨?_, ⟨[], .inl rfl, ?_⟩, fun d => List.mem_append_left _, ?_⟩
    · rw [parts, List.flatMap_nil, List.append_nil]
      rfl
    · rw [parts]
      exact substr_self _
    · rw [parts]
      exact fun _ => trivial
  | case4 s value rest none shape quoted line => exact scanned_dangling shape quoted none
  | case5 s value rest escaped more inner next shape quoted line ih =>
    have one : characterLength (92 :: rest) = 1 := characterLength_ascii _ (by decide) (by decide)
    have same := advance_rest shape
    rw [one, Nat.sub_self, List.drop_zero, inner] at same
    rw [← same] at shape
    have place : next.1.location = Lexer.advance source (Lexer.advance source s.location) :=
      Scanner.scanEscape_location source (s.advance source) _ _ _
    have later := Scanner.scanStringBody_le source next.1 quote start next.2
    rw [place] at later
    exact scanned_backslash shape quoted later ih
  | case6 s value byte rest shape quoted line plain valid ih =>
    rw [shape] at valid ih ⊢
    exact scanned_scalar shape quoted line plain valid
      (Scanner.scanStringBody_le source (s.advance source) _ _ _) ih
  | case7 s value byte rest shape quoted line plain invalid ih =>
    rw [shape] at invalid
    exact scanned_invalid shape quoted line plain invalid
      (Scanner.scanStringBody_le source (s.diagnoseInvalidUtf8 source) _ _ _) ih

/-- What the parts of a literal are made of. -/
def Part.Formed : Part → Prop
  | .scalar text => ∃ c, text = String.utf8EncodeChar c
  | .escape _ character => character.toNat < 128
  | .unknown text => text ≠ []
  | _ => True

theorem literalParts_formed (quote : UInt8) (text : Bytes) :
    ∀ part ∈ literalParts quote text, part.Formed := by
  fun_induction literalParts quote text with
  | case1 => exact fun _ i => nomatch i
  | case2 => exact fun _ i => nomatch i
  | case3 => exact fun _ i => nomatch i
  | case4 =>
    intro part i
    rw [List.mem_singleton.mp i]
    trivial
  | case5 escaped more character known _ _ ih =>
    rintro part (_ | ⟨_, i⟩)
    · exact (escape_ascii known).2.2
    · exact ih part i
  | case6 escaped more unknown length _ _ ih =>
    rintro part (_ | ⟨_, i⟩)
    · have positive := characterLength_pos (escaped :: more)
      intro none
      have size := congrArg List.length none
      rw [List.length_take_of_le (characterLength_le escaped more), List.length_nil] at size
      omega
    · exact ih part i
  | case7 byte rest _ _ _ valid length ih =>
    rintro part (_ | ⟨_, i⟩)
    · obtain ⟨c, later, same⟩ := decode_sound valid
      exact ⟨c, by simp only [length, same, decode_encode, List.take_left]⟩
    · exact ih part i
  | case8 byte rest _ _ _ _ ih =>
    rintro part (_ | ⟨_, i⟩)
    · trivial
    · exact ih part i

theorem encode_ascii (byte : UInt8) (small : byte.toNat < 128) :
    ∃ c, [byte] = String.utf8EncodeChar c := by
  have shape : Shape byte.toNat [byte] := .one (Nat.le_of_lt_succ small)
  obtain ⟨c, -, encoded⟩ := shape.encodes (by omega) (by omega)
  exact ⟨c, encoded.symm⟩

theorem replacement_encodes : Scanner.replacement = String.utf8EncodeChar '\uFFFD' := by
  decide +kernel

/-- What is stored for a part that is not an unknown escape of more than ASCII is valid. -/
theorem Part.stored_valid {part : Part} (formed : part.Formed) (plain : part.Plain) :
    part.stored = part.meaning ∧ ∃ scalars, part.stored = encode scalars := by
  have single (c : Char) : String.utf8EncodeChar c = encode [c] := by
    rw [encode_cons, encode_nil, List.append_nil]
  cases part with
  | scalar text =>
    obtain ⟨c, rfl⟩ := formed
    exact ⟨rfl, [c], single c⟩
  | invalid byte => exact ⟨rfl, ['\uFFFD'], replacement_encodes.trans (single _)⟩
  | escape escaped character =>
    obtain ⟨c, same⟩ := encode_ascii character formed
    exact ⟨rfl, [c], same.trans (single c)⟩
  | unknown text =>
    obtain ⟨byte, small, rfl⟩ := plain
    obtain ⟨c, same⟩ := encode_ascii byte small
    have valid : (decodeUtf8 [byte]).valid = true := by
      rw [decodeUtf8, if_pos (UInt8.le_iff_toNat_le.mpr (Nat.le_of_lt_succ small))]
    refine ⟨?_, [c], same.trans (single c)⟩
    rw [Part.stored, Part.meaning, if_pos valid]
    rfl
  | dangling => exact ⟨rfl, [], rfl⟩

/-- An unknown escape of more than ASCII loses bytes. -/
theorem Part.stored_length {part : Part} (formed : part.Formed) :
    part.stored.length ≤ part.meaning.length ∧
      (part.stored.length = part.meaning.length → part.Plain) := by
  cases part with
  | unknown text =>
    cases text with
    | nil => exact absurd rfl formed
    | cons byte rest =>
      rw [Part.stored, Part.meaning, List.take_succ_cons, List.take_zero, List.length_singleton]
      split
      next valid =>
        refine ⟨Nat.succ_le_succ (Nat.zero_le _), fun one => ?_⟩
        obtain rfl : rest = [] := List.length_eq_zero_iff.mp (Nat.succ.inj one).symm
        obtain ⟨c, later, same⟩ := decode_sound valid
        have shape := shape_encode c
        generalize String.utf8EncodeChar c = l at shape same
        generalize c.toNat = v at shape
        cases shape with
        | @one a low =>
          refine ⟨byte, ?_, rfl⟩
          rw [(List.cons.inj same).1]
          exact Nat.lt_succ_of_le low
        | two => exact absurd (List.cons.inj same).2 nofun
        | three => exact absurd (List.cons.inj same).2 nofun
        | four => exact absurd (List.cons.inj same).2 nofun
      next => exact ⟨by decide, fun three => absurd three (by decide)⟩
  | scalar => exact ⟨Nat.le_refl _, fun _ => trivial⟩
  | invalid => exact ⟨Nat.le_refl _, fun _ => trivial⟩
  | escape => exact ⟨Nat.le_refl _, fun _ => trivial⟩
  | dangling => exact ⟨Nat.le_refl _, fun _ => trivial⟩

theorem stored_flatMap_length {parts : List Part} (formed : ∀ part ∈ parts, part.Formed) :
    (parts.flatMap Part.stored).length ≤ (parts.flatMap Part.meaning).length ∧
      ((parts.flatMap Part.stored).length = (parts.flatMap Part.meaning).length →
        ∀ part ∈ parts, part.Plain) := by
  induction parts with
  | nil => exact ⟨Nat.le_refl _, fun _ _ i => nomatch i⟩
  | cons part parts ih =>
    have ⟨rest, plain⟩ := ih fun other i => formed other (List.mem_cons_of_mem part i)
    have ⟨first, alone⟩ := Part.stored_length (formed part List.mem_cons_self)
    simp only [List.flatMap_cons, List.length_append]
    refine ⟨Nat.add_le_add first rest, fun same => ?_⟩
    rintro other (_ | ⟨_, i⟩)
    · exact alone (by omega)
    · exact plain (by omega) other i

theorem stored_flatMap_valid {parts : List Part} (formed : ∀ part ∈ parts, part.Formed)
    (plain : ∀ part ∈ parts, part.Plain) :
    parts.flatMap Part.stored = parts.flatMap Part.meaning ∧
      ∃ scalars, parts.flatMap Part.stored = encode scalars := by
  induction parts with
  | nil => exact ⟨rfl, [], rfl⟩
  | cons part parts ih =>
    have ⟨same, scalars, encoded⟩ :=
      Part.stored_valid (formed part List.mem_cons_self) (plain part List.mem_cons_self)
    have ⟨rest, others, more⟩ := ih
      (fun other i => formed other (List.mem_cons_of_mem part i))
      (fun other i => plain other (List.mem_cons_of_mem part i))
    refine ⟨?_, scalars ++ others, ?_⟩
    · rw [List.flatMap_cons, List.flatMap_cons, same, rest]
    · rw [List.flatMap_cons, encode_append, encoded, more]

/-- A small scalar is a byte. -/
theorem decode_ascii {rest : Bytes} (valid : (decodeUtf8 rest).valid = true)
    (small : (decodeUtf8 rest).value < 128) :
    ∃ byte later, rest = byte :: later ∧ byte.toNat = (decodeUtf8 rest).value := by
  obtain ⟨c, later, rfl⟩ := decode_sound valid
  rw [decode_encode] at small ⊢
  dsimp only at small ⊢
  have shape := shape_encode c
  generalize String.utf8EncodeChar c = l at shape
  generalize c.toNat = v at shape small
  cases shape with
  | @one a low => exact ⟨a, later, rfl, rfl⟩
  | two low => omega
  | three low high tail tail' least => omega
  | four low high tail tail' tail'' least => omega

theorem skipTrivia_tokens (s : Scanner) :
    (s.skipTrivia source).result.tokens = s.result.tokens := by
  have comment (t : Scanner) :
      ((t.advanceAscii source 2).skipBlockComment source 1).1.result.tokens = t.result.tokens := by
    obtain ⟨more, moved⟩ := Moved.skipBlockComment source (t.advanceAscii source 2) 1
    have first := Moved.advanceAscii source t 2
    rw [moved.tokens, first.tokens, List.append_nil, List.append_nil]
  fun_induction Scanner.skipTrivia source s with
  | case1 s t inside starts ih =>
    obtain ⟨more, moved⟩ := Moved.skipLineComment source (t.advance source)
    rw [ih, moved.tokens, List.append_nil]
    rfl
  | case2 s t inside _ starts commented ends => exact comment t
  | case3 s t inside _ starts commented ends ih => exact ih.trans (comment t)
  | case4 s t => rfl
  | case5 s t => rfl

/-- Where a token comes from. -/
theorem token_origin (s : Scanner) {token : Token}
    (known : token ∈ (scan source s).result.tokens) : token ∈ s.result.tokens ∨
      ∃ u : Scanner, u.location.byteOffset < source.length ∧
        (u.scanNext source).result.tokens = u.result.tokens ++ [token] ∧
        ∀ d ∈ (u.scanNext source).result.diagnostics, d ∈ (scan source s).result.diagnostics := by
  fun_induction scan source s with
  | case1 s _ inside ih =>
    obtain earlier | later := ih known
    · obtain ⟨piece, found, next⟩ := ran_next source _ inside
      rw [next.moved.tokens, skipTrivia_tokens] at earlier
      obtain old | new := List.mem_append.mp earlier
      · exact .inl old
      · refine .inr ⟨_, inside, ?_, ?_⟩
        · obtain ⟨other, among, same⟩ := List.mem_filterMap.mp new
          rw [List.mem_singleton.mp among] at same
          rw [next.moved.tokens, List.filterMap_cons, same]
          rfl
        · obtain ⟨pieces, more, rest, -⟩ :=
            ran_scan source ((s.skipTrivia source).scanNext source)
          intro d i
          rw [rest.moved.diagnostics]
          exact List.mem_append_left more i
    · exact .inr later
  | case2 s _ outside =>
    rw [skipTrivia_tokens] at known
    exact .inl known
  | case3 s outside => exact .inl known

/-- Only a quote starts a string. -/
theorem string_start {u : Scanner} {token : Token}
    (tokens : (u.scanNext source).result.tokens = u.result.tokens ++ [token])
    (kind : token.kind = .string) : ∃ quote rest, (quote = 34 ∨ quote = 39) ∧
      u.rest source = quote :: rest ∧ u.scanNext source = u.scanString source quote := by
  have nothing {l : List Token} (same : l = l ++ [token]) : False := by
    have size := congrArg List.length same
    rw [List.length_append, List.length_singleton] at size
    omega
  have other {l : List Token} {found : Token} (same : l ++ [found] = l ++ [token])
      (plain : found.kind ≠ .string) : False := by
    rw [List.append_cancel_left_eq, List.cons.injEq] at same
    rw [← same.1] at kind
    exact plain kind
  unfold Scanner.scanNext at tokens ⊢
  dsimp only at tokens ⊢
  split at tokens
  next => exact (nothing tokens).elim
  next valid =>
  rw [if_neg valid]
  split at tokens
  next => exact (nothing tokens).elim
  next mark =>
  rw [if_neg mark]
  split at tokens
  next => exact (other tokens (keywordKind_plain _).2.1).elim
  next identifier =>
  rw [if_neg identifier]
  split at tokens
  next =>
    refine (other tokens ?_).elim
    dsimp only
    split <;> decide
  next digit =>
  rw [if_neg digit]
  split at tokens
  next quote =>
    rw [if_pos quote]
    rw [Bool.not_eq_true, Bool.not_eq_false'] at valid
    obtain ⟨byte, rest, shape, same⟩ := decode_ascii valid (by omega)
    rw [← same] at quote ⊢
    refine ⟨byte, rest, ?_, shape, by rw [UInt8.ofNat_toNat]⟩
    exact quote.imp UInt8.toNat_inj.mp UInt8.toNat_inj.mp
  next =>
    unfold Scanner.scanOperatorOrError at tokens
    split at tokens
    next operator found =>
      have known := List.mem_of_find?_eq_some found
      have passed := Moved.advanceAscii source u operator.1.length
      have added := passed.addToken operator.2 []
      exact (other (added.tokens.symm.trans tokens) (operators_ascii known).2.2).elim
    next => exact (nothing tokens).elim

/-- The parts of the literal that starts at some offset of a source. -/
def literalAt (source : Bytes) (offset : Nat) : List Part :=
  match source.drop offset with
  | [] => []
  | quote :: rest => literalParts quote rest

/-- A string token has what its literal says when no unknown escape escapes more than an ASCII
character. -/
theorem string_token_faithful (source : Bytes) {token : Token}
    (known : token ∈ (lex source).tokens) (kind : token.kind = .string) :
    (∃ quote closing, (quote = 34 ∨ quote = 39) ∧ (closing = [] ∨ closing = [quote]) ∧
      token.lexeme = quote :: ((literalAt source token.span.start.byteOffset).flatMap
        Part.spelling ++ closing)) ∧
    (Faithful source (lex source) token (literalAt source token.span.start.byteOffset) ↔
      ∀ part ∈ literalAt source token.span.start.byteOffset, part.Plain) := by
  have scan : token ∈ (scan source ⟨origin, [], []⟩).result.tokens := by
    obtain inner | final := List.mem_append.mp known
    · exact inner
    · rw [List.mem_singleton.mp final] at kind
      exact absurd kind nofun
  obtain nothing | ⟨u, inside, tokens, diagnostics⟩ := token_origin _ scan
  · exact nomatch nothing
  obtain ⟨quote, rest, quotes, shape, next⟩ := string_start tokens kind
  have ⟨small, noBreak⟩ : quote.toNat < 128 ∧ quote ≠ 13 := by
    obtain rfl | rfl := quotes <;> decide
  have one : characterLength (quote :: rest) = 1 := characterLength_ascii rest small noBreak
  have after : (u.advance source).rest source = rest := by
    rw [advance_rest shape, one, Nat.sub_self, List.drop_zero]
  have scanned := scanned source quote u.location (u.advance source) [] small noBreak
  have opening := advance_substr shape
  rw [one] at opening
  have later := Scanner.scanStringBody_le source (u.advance source) quote u.location []
  rw [next] at tokens diagnostics
  obtain ⟨closing, closes, text⟩ := scanned.text
  have same := scanned.tokens
  have diagnosed := scanned.diagnosed
  rw [after] at same text diagnosed
  have found := List.append_cancel_left (same.symm.trans tokens)
  rw [List.cons.injEq, List.nil_append] at found
  have place : literalAt source token.span.start.byteOffset = literalParts quote rest := by
    rw [← found.1, literalAt, show source.drop u.location.byteOffset = quote :: rest from shape]
  rw [place]
  have formed := literalParts_formed quote rest
  refine ⟨⟨quote, closing, quotes, closes, ?_⟩, fun faithful => ?_, fun plain => ?_⟩
  · rw [← found.1, ← text]
    exact (substr_append source (advance_le source u.location) later).trans (by
      rw [← Scanner.advance_location, opening]
      rfl)
  · have value := faithful.value
    rw [← found.1] at value
    exact (stored_flatMap_length formed).2 (congrArg List.length value)
  · have ⟨value, scalars, encoded⟩ := stored_flatMap_valid formed plain
    rw [← found.1]
    refine ⟨⟨scalars, encoded⟩, value, ?_⟩
    have offset : (u.advance source).location.byteOffset = u.location.byteOffset + 1 := by
      rw [Scanner.advance_location, advance_offset u.location shape, one]
    rw [← offset]
    exact (diagnosed plain).mono diagnostics

theorem string_token_faithful_sample :
    Faithful (bytes ['"', '\\', 'n', '\\', 'q', '"']) (lex (bytes ['"', '\\', 'n', '\\', 'q', '"']))
      ⟨.string, bytes ['"', '\\', 'n', '\\', 'q', '"'], bytes ['\n', 'q'], ⟨⟨0, 1, 1⟩, ⟨6, 1, 7⟩⟩⟩
      [.escape 110 10, .unknown [113]] := by
  have plain : ∀ part ∈ [Part.escape 110 10, Part.unknown [113]], part.Plain := by
    rintro part (_ | ⟨_, _ | ⟨_, i⟩⟩)
    · trivial
    · exact ⟨113, by decide, rfl⟩
    · exact nomatch i
  have parts : literalAt (bytes ['"', '\\', 'n', '\\', 'q', '"']) 0 =
      [.escape 110 10, .unknown [113]] := by decide +kernel
  have known : Token.mk .string (bytes ['"', '\\', 'n', '\\', 'q', '"']) (bytes ['\n', 'q'])
      ⟨⟨0, 1, 1⟩, ⟨6, 1, 7⟩⟩ ∈ (lex (bytes ['"', '\\', 'n', '\\', 'q', '"'])).tokens := by
    decide +kernel
  have both := string_token_faithful _ known rfl
  rw [parts] at both
  exact both.2.mpr plain

/-- Of an escaped character of two bytes the first is kept. -/
theorem escaped_scalar_is_cut : ∃ token ∈ (lex [34, 92, 0xC3, 0xA9, 34]).tokens,
    token.kind = .string ∧ token.value = [0xC3] ∧
      (literalAt [34, 92, 0xC3, 0xA9, 34] token.span.start.byteOffset).flatMap Part.meaning =
        [0xC3, 0xA9] ∧
      ¬ Faithful [34, 92, 0xC3, 0xA9, 34] (lex [34, 92, 0xC3, 0xA9, 34]) token
        (literalAt [34, 92, 0xC3, 0xA9, 34] token.span.start.byteOffset) := by
  have meaning : (literalAt [34, 92, 0xC3, 0xA9, 34] 0).flatMap Part.meaning = [0xC3, 0xA9] := by
    decide +kernel
  refine ⟨⟨.string, [34, 92, 0xC3, 0xA9, 34], [0xC3], ⟨⟨0, 1, 1⟩, ⟨5, 1, 5⟩⟩⟩,
    by decide +kernel, rfl, rfl, meaning, fun faithful => ?_⟩
  have value := faithful.value.trans meaning
  exact absurd value (by decide)

end Baas.Lexer
