import Baas.Script.LexerPlaces

/-! What the lexer makes of every byte of a source. -/
namespace Baas.Lexer

open Baas.Script (Bytes SourceLocation SourceSpan)

/-- The rest of block comments of some depth. -/
inductive Comment : Nat → Bytes → Prop
  | done : Comment 0 []
  | nested {depth : Nat} {text : Bytes} : Comment (depth + 2) text →
      Comment (depth + 1) (bytes ['/', '*'] ++ text)
  | close {depth : Nat} {text : Bytes} : Comment depth text →
      Comment (depth + 1) (bytes ['*', '/'] ++ text)
  | other {depth : Nat} {byte : UInt8} {text : Bytes} :
      ¬ bytes ['/', '*'] <+: byte :: text → ¬ bytes ['*', '/'] <+: byte :: text →
      Comment (depth + 1) text → Comment (depth + 1) (byte :: text)

/-- Whitespace, a line end or a comment. -/
inductive Trivia : Bytes → Prop
  | space {byte : UInt8} : Scanner.isSpace byte = true → Trivia [byte]
  | lineEnd : Trivia [13, 10]
  | lineComment {text : Bytes} : (∀ b ∈ text, isBreak b = false) → Trivia (bytes ['#'] ++ text)
  | blockComment {text : Bytes} : Comment 1 text → Trivia (bytes ['/', '*'] ++ text)

inductive Piece
  | token (t : Token)
  | trivia (span : SourceSpan)
  | refused (diagnostic : Diagnostic)

namespace Piece

def span : Piece → SourceSpan
  | .token t => t.span
  | .trivia span => span
  | .refused diagnostic => diagnostic.span

def token? : Piece → Option Token
  | .token t => some t
  | _ => none

def text (source : Bytes) (piece : Piece) : Bytes :=
  substr source piece.span.start piece.span.stop

/-- What a piece of a source is, under the diagnostics of the source. -/
def Sound (source : Bytes) (diagnostics : List Diagnostic) (piece : Piece) : Prop :=
  match piece with
  | .token t => t.lexeme = piece.text source ∧ t.kind ≠ .endOfFile ∧
      (t.kind ∈ operators.map Prod.snd → (t.lexeme, t.kind) ∈ operators)
  | .trivia _ => Trivia (piece.text source)
  | .refused diagnostic => diagnostic ∈ diagnostics

/-- Where an operator starts, and no comment does, the piece is the longest one. -/
def Greedy (source : Bytes) (piece : Piece) : Prop :=
  ∀ operator ∈ operators, operator.1 <+: source.drop piece.span.start.byteOffset →
    ¬ bytes ['/', '*'] <+: source.drop piece.span.start.byteOffset →
    ∃ t, piece = .token t ∧ (t.lexeme, t.kind) ∈ operators ∧
      operator.1.length ≤ t.lexeme.length

theorem Sound.mono {source : Bytes} {some all : List Diagnostic} {piece : Piece}
    (known : ∀ d ∈ some, d ∈ all) (sound : piece.Sound source some) : piece.Sound source all := by
  cases piece with
  | token => exact sound
  | trivia => exact sound
  | refused diagnostic => exact known diagnostic sound

end Piece

/-- Pieces that follow each other without a gap. -/
def Tiled : SourceLocation → List Piece → SourceLocation → Prop
  | here, [], there => here = there
  | here, piece :: pieces, there => piece.span.start = here ∧
      here.byteOffset < piece.span.stop.byteOffset ∧ Tiled piece.span.stop pieces there

theorem Tiled.append {a b c : SourceLocation} {p q : List Piece} (first : Tiled a p b)
    (second : Tiled b q c) : Tiled a (p ++ q) c := by
  induction p generalizing a with
  | nil => rw [show a = b from first]; exact second
  | cons piece p ih => exact ⟨first.1, first.2.1, ih first.2.2⟩

variable {source : Bytes}

/-- How the scanner goes on. -/
structure Moved (source : Bytes) (s : Scanner) (tokens : List Token) (more : List Diagnostic)
    (t : Scanner) : Prop where
  onward : Onward source s.location t.location
  tokens : t.result.tokens = s.result.tokens ++ tokens
  diagnostics : t.result.diagnostics = s.result.diagnostics ++ more
  spans : ∀ d ∈ more, Onward source s.location d.span.start ∧ Onward source d.span.start d.span.stop

namespace Moved

variable {s t u : Scanner} {a b : List Token} {p q : List Diagnostic}

theorem refl : Moved source s [] [] s :=
  ⟨.refl, (List.append_nil _).symm, (List.append_nil _).symm, fun _ i => nomatch i⟩

theorem trans (first : Moved source s a p t) (second : Moved source t b q u) :
    Moved source s (a ++ b) (p ++ q) u where
  onward := first.onward.trans second.onward
  tokens := by rw [second.tokens, first.tokens, List.append_assoc]
  diagnostics := by rw [second.diagnostics, first.diagnostics, List.append_assoc]
  spans := by
    intro d i
    obtain i | i := List.mem_append.mp i
    · exact first.spans d i
    · exact ⟨first.onward.trans (second.spans d i).1, (second.spans d i).2⟩

theorem goes {there : SourceLocation} (onward : Onward source s.location there) :
    Moved source s [] [] { s with location := there } :=
  ⟨onward, (List.append_nil _).symm, (List.append_nil _).symm, fun _ i => nomatch i⟩

theorem advance : Moved source s [] [] (s.advance source) := goes (onward_advance source _)

theorem addError (moved : Moved source s a p t) (code message : String) :
    Moved source s a (p ++ [⟨.error, code, message, ⟨s.location, t.location⟩⟩])
      (t.addError code message s.location) where
  onward := moved.onward
  tokens := moved.tokens
  diagnostics := by rw [← List.append_assoc, ← moved.diagnostics]; rfl
  spans := by
    intro d i
    obtain i | i := List.mem_append.mp i
    · exact moved.spans d i
    · rw [List.mem_singleton.mp i]
      exact ⟨.refl, moved.onward⟩

theorem addToken (moved : Moved source s a p t) (kind : TokenKind) (value : Bytes) :
    Moved source s (a ++ [⟨kind, substr source s.location t.location, value,
      ⟨s.location, t.location⟩⟩]) p (t.addToken source kind s.location value) where
  onward := moved.onward
  tokens := by rw [← List.append_assoc, ← moved.tokens]; rfl
  diagnostics := moved.diagnostics
  spans := moved.spans

theorem diagnoseInvalidUtf8 :
    Moved source s [] [⟨.error, "LEX001", "invalid UTF-8 byte sequence",
      ⟨s.location, Lexer.advance source s.location⟩⟩] (s.diagnoseInvalidUtf8 source) :=
  advance.addError "LEX001" "invalid UTF-8 byte sequence"

theorem skipScalar (source : Bytes) (s : Scanner) :
    ∃ more, Moved source s [] more (s.skipScalar source) := by
  unfold Scanner.skipScalar
  split
  · exact ⟨[], advance⟩
  · exact ⟨_, diagnoseInvalidUtf8⟩

theorem advanceAscii (source : Bytes) (s : Scanner) (count : Nat) :
    Moved source s [] [] (s.advanceAscii source count) := by
  induction count generalizing s with
  | zero => exact refl
  | succ count ih => exact advance.trans (ih (s.advance source))

theorem skipLineComment (source : Bytes) (s : Scanner) :
    ∃ more, Moved source s [] more (s.skipLineComment source) := by
  fun_induction Scanner.skipLineComment source s with
  | case1 => exact ⟨[], refl⟩
  | case2 s _ _ ih =>
    obtain ⟨first, step⟩ := skipScalar source s
    obtain ⟨more, rest⟩ := ih
    exact ⟨first ++ more, step.trans rest⟩
  | case3 => exact ⟨[], refl⟩

theorem skipBlockComment (source : Bytes) (s : Scanner) (depth : Nat) :
    ∃ more, Moved source s [] more (s.skipBlockComment source depth).1 := by
  fun_induction Scanner.skipBlockComment source s depth with
  | case1 s depth _ _ ih =>
    obtain ⟨more, rest⟩ := ih
    exact ⟨more, (advanceAscii source s 2).trans rest⟩
  | case2 s depth _ _ _ ih =>
    obtain ⟨more, rest⟩ := ih
    exact ⟨more, (advanceAscii source s 2).trans rest⟩
  | case3 s depth _ _ _ ih =>
    obtain ⟨first, step⟩ := skipScalar source s
    obtain ⟨more, rest⟩ := ih
    exact ⟨first ++ more, step.trans rest⟩
  | case4 => exact ⟨[], refl⟩

theorem scanEscape (source : Bytes) (s : Scanner) (escaped : UInt8) (value : Bytes) :
    ∃ more, Moved source s [] more
    ((s.advance source).scanEscape source s.location escaped value).1 := by
  have passed : Moved source s [] [] ((s.advance source).advance source) := advance.trans advance
  unfold Scanner.scanEscape
  split
  · exact ⟨_, passed⟩
  · exact ⟨_, passed.addError "LEX005" "unknown escape sequence"⟩

end Moved

/-- How the scanner goes through some pieces. -/
structure Ran (source : Bytes) (s : Scanner) (pieces : List Piece) (more : List Diagnostic)
    (t : Scanner) : Prop where
  moved : Moved source s (pieces.filterMap Piece.token?) more t
  tiled : Tiled s.location pieces t.location
  places : ∀ piece ∈ pieces, Onward source s.location piece.span.start ∧
    Onward source piece.span.start piece.span.stop
  sound : ∀ piece ∈ pieces, piece.Sound source more ∧ piece.Greedy source

namespace Ran

variable {s t u : Scanner} {a b : List Piece} {p q : List Diagnostic}

theorem refl : Ran source s [] [] s :=
  ⟨Moved.refl, rfl, fun _ i => (nomatch i), fun _ i => (nomatch i)⟩

theorem trans (first : Ran source s a p t) (second : Ran source t b q u) :
    Ran source s (a ++ b) (p ++ q) u where
  moved := by
    rw [List.filterMap_append]
    exact first.moved.trans second.moved
  tiled := first.tiled.append second.tiled
  places := by
    intro piece i
    obtain i | i := List.mem_append.mp i
    · exact first.places piece i
    · exact ⟨first.moved.onward.trans (second.places piece i).1, (second.places piece i).2⟩
  sound := by
    intro piece i
    obtain i | i := List.mem_append.mp i
    · exact ⟨(first.sound piece i).1.mono fun d => List.mem_append_left q,
        (first.sound piece i).2⟩
    · exact ⟨(second.sound piece i).1.mono fun d => List.mem_append_right p,
        (second.sound piece i).2⟩

theorem one {piece : Piece} (moved : Moved source s piece.token?.toList p t)
    (span : piece.span = ⟨s.location, t.location⟩)
    (some : s.location.byteOffset < t.location.byteOffset) (sound : piece.Sound source p)
    (greedy : piece.Greedy source) : Ran source s [piece] p t where
  moved := by
    rw [List.filterMap_cons]
    cases kind : piece.token? with
    | none => rw [kind] at moved; exact moved
    | some t => rw [kind] at moved; exact moved
  tiled := by
    rw [Tiled, span]
    exact ⟨rfl, some, rfl⟩
  places := by
    intro other i
    rw [List.mem_singleton.mp i, span]
    exact ⟨.refl, moved.onward⟩
  sound := by
    intro other i
    rw [List.mem_singleton.mp i]
    exact ⟨sound, greedy⟩

end Ran

theorem substr_append (source : Bytes) {a b c : SourceLocation}
    (first : a.byteOffset ≤ b.byteOffset)
    (second : b.byteOffset ≤ c.byteOffset) :
    substr source a c = substr source a b ++ substr source b c := by
  have skip : source.drop b.byteOffset =
      (source.drop a.byteOffset).drop (b.byteOffset - a.byteOffset) := by
    rw [List.drop_drop, Nat.add_sub_cancel' first]
  rw [substr, substr, substr, skip,
    show c.byteOffset - a.byteOffset =
      (b.byteOffset - a.byteOffset) + (c.byteOffset - b.byteOffset) by omega, List.take_add]

theorem substr_prefix (a b : SourceLocation) : substr source a b <+: source.drop a.byteOffset :=
  List.take_prefix _ _

theorem substr_self (a : SourceLocation) : substr source a a = [] := by
  rw [substr, Nat.sub_self, List.take_zero]

/-- The text of one step. -/
theorem Step.substr {here : SourceLocation} {unit after : Bytes}
    (shape : source.drop here.byteOffset = unit ++ after) (step : Step source here unit after) :
    Lexer.substr source here (advance source here) = unit := by
  have offset : (advance source here).byteOffset = here.byteOffset + unit.length := by
    cases step with
    | line _ moved => rw [moved]
    | column _ _ moved => rw [moved]
  rw [Lexer.substr, shape, offset, Nat.add_sub_cancel_left, List.take_left]

/-- A step over whitespace is trivia. -/
theorem Step.trivia {here : SourceLocation} {unit after : Bytes}
    (step : Step source here unit after)
    (space : (unit ++ after).head?.any Scanner.isSpace = true) : Trivia unit := by
  cases step with
  | line kind _ =>
    obtain rfl | rfl | ⟨rfl, -⟩ := kind
    · exact .space rfl
    · exact .lineEnd
    · exact .space rfl
  | column it _ _ =>
    cases unit with
    | nil => exact absurd rfl it.some
    | cons byte tail =>
      rw [List.cons_append, List.head?_cons, Option.any_some] at space
      obtain one | high := it.bytes
      · obtain rfl : tail = [] := List.length_eq_zero_iff.mp (Nat.succ.inj one)
        exact .space space
      · have large := high byte List.mem_cons_self
        have small : ∀ b : UInt8, 0x80 ≤ b.toNat → Scanner.isSpace b = false := by
          intro b large
          rw [Scanner.isSpace]
          simp only [Bool.or_eq_false_iff, beq_eq_false_iff_ne]
          refine ⟨⟨⟨⟨⟨?_, ?_⟩, ?_⟩, ?_⟩, ?_⟩, ?_⟩ <;> rintro rfl <;> exact absurd large (by decide)
        rw [small byte large] at space
        exact absurd space Bool.false_ne_true

/-- Of the operators only the comments' start is not a piece. -/
theorem greedy_of_comment {piece : Piece}
    (comment : bytes ['/', '*'] <+: source.drop piece.span.start.byteOffset) :
    piece.Greedy source := fun _ _ _ other => absurd comment other

/-- What an operator starts with is ASCII, and starts no other token. -/
theorem operator_start {operator : Bytes × TokenKind} (known : operator ∈ operators)
    {rest : Bytes} (starts : operator.1 <+: rest) :
    ∃ byte later, rest = byte :: later ∧ decodeUtf8 rest = ⟨byte.toNat, 1, true⟩ ∧
      isIdentifierStart byte.toNat = false ∧ byte.toNat < 128 ∧
      ¬ (48 ≤ byte.toNat ∧ byte.toNat ≤ 57) ∧ ¬ (byte.toNat = 34 ∨ byte.toNat = 39) ∧
      Scanner.isSpace byte = false ∧ byte ≠ 35 := by
  have all : ∀ operator ∈ operators, ∃ byte ∈ operator.1.head?,
      isIdentifierStart byte.toNat = false ∧ byte.toNat < 128 ∧
      ¬ (48 ≤ byte.toNat ∧ byte.toNat ≤ 57) ∧ ¬ (byte.toNat = 34 ∨ byte.toNat = 39) ∧
      Scanner.isSpace byte = false ∧ byte ≠ 35 := by decide
  obtain ⟨byte, first, plain, small, others⟩ := all operator known
  obtain ⟨tail, shape⟩ := List.head?_eq_some_iff.mp first
  obtain ⟨later, rfl⟩ := starts
  refine ⟨byte, tail ++ later, by rw [shape]; rfl, ?_, plain, small, others⟩
  have ascii : byte ≤ 0x7F := UInt8.le_iff_toNat_le.mpr (Nat.le_of_lt_succ small)
  rw [shape, List.cons_append, decodeUtf8, if_pos ascii]

theorem greedy_of_start {piece : Piece} {byte : UInt8}
    (first : (source.drop piece.span.start.byteOffset).head? = some byte)
    (other : Scanner.isSpace byte = true ∨ byte = 35) : piece.Greedy source := by
  intro operator known starts _
  obtain ⟨b, later, shape, -, -, -, -, -, space, hash⟩ := operator_start known starts
  rw [shape, List.head?_cons, Option.some_inj] at first
  obtain rfl := first
  obtain spaced | hashed := other
  · rw [space] at spaced
    exact absurd spaced Bool.false_ne_true
  · exact absurd hashed hash

theorem ran_spaces (source : Bytes) (result : LexResult) (here : SourceLocation) :
    ∃ pieces, Ran source ⟨here, result⟩ pieces []
      ⟨advanceWhile source (fun rest => rest.head?.any Scanner.isSpace) here, result⟩ := by
  fun_induction advanceWhile source (fun rest => rest.head?.any Scanner.isSpace) here with
  | case1 here inside space ih =>
    obtain ⟨pieces, rest⟩ := ih
    obtain ⟨unit, after, shape, step⟩ := step_exists inside
    have trivia : Trivia (substr source here (advance source here)) := by
      rw [step.substr shape]
      exact step.trivia (by rwa [← shape])
    obtain ⟨byte, first, spaced⟩ := (Option.any_eq_true _ _).mp space
    have stepped : Ran source ⟨here, result⟩ [.trivia ⟨here, advance source here⟩] []
        ⟨advance source here, result⟩ :=
      .one (.goes (onward_advance source here)) rfl (advance_lt source inside) trivia
        (greedy_of_start first (.inl spaced))
    exact ⟨_, stepped.trans rest⟩
  | case2 => exact ⟨[], .refl⟩
  | case3 => exact ⟨[], .refl⟩

/-- A line comment has no line end. -/
theorem skipLineComment_text (s : Scanner) :
    ∀ b ∈ substr source s.location (s.skipLineComment source).location, isBreak b = false := by
  fun_induction Scanner.skipLineComment source s with
  | case1 => rw [substr_self]; exact List.forall_mem_nil _
  | case2 s inside more ih =>
    have place := s.skipScalar_location source
    have moved := advance_le source s.location
    have rest := (s.skipScalar source).skipLineComment_le source
    rw [place] at ih rest
    rw [substr_append source moved rest]
    intro b i
    obtain i | i := List.mem_append.mp i
    · obtain ⟨unit, after, shape, step⟩ := step_exists inside
      rw [step.substr shape] at i
      cases step with
      | column _ plain _ => exact plain b i
      | line kind _ =>
        rw [Scanner.rest, shape] at more
        obtain rfl | rfl | ⟨rfl, -⟩ := kind <;> exact absurd rfl more
    · exact ih b i
  | case3 => rw [substr_self]; exact List.forall_mem_nil _

/-- ASCII, and no line end. -/
def isPlain (byte : UInt8) : Bool := decide (byte.toNat < 128) && !isBreak byte

/-- ASCII text is passed byte by byte. -/
theorem advanceAscii_text (text : Bytes) (s : Scanner)
    (ascii : text.all isPlain = true) (starts : text <+: s.rest source) :
    (s.advanceAscii source text.length).location.byteOffset =
      s.location.byteOffset + text.length := by
  induction text generalizing s with
  | nil => rfl
  | cons byte text ih =>
    obtain ⟨later, shape⟩ := starts
    rw [List.all_cons, Bool.and_eq_true, isPlain, Bool.and_eq_true, decide_eq_true_eq,
      Bool.not_eq_true'] at ascii
    obtain ⟨⟨small, plain⟩, others⟩ := ascii
    rw [isBreak, Bool.or_eq_false_iff, beq_eq_false_iff_ne, beq_eq_false_iff_ne] at plain
    have decoded : decodeUtf8 (byte :: (text ++ later)) = ⟨byte.toNat, 1, true⟩ := by
      rw [decodeUtf8, if_pos (UInt8.le_iff_toNat_le.mpr (Nat.le_of_lt_succ small))]
    have moved : (Lexer.advance source s.location).byteOffset = s.location.byteOffset + 1 := by
      rw [Lexer.advance, show source.drop s.location.byteOffset = byte :: (text ++ later) from
        shape.symm]
      dsimp only
      rw [if_neg plain.2, if_neg plain.1, unitLength, decoded]
      rfl
    have next : text <+: (s.advance source).rest source := by
      refine ⟨later, ?_⟩
      rw [Scanner.rest, Scanner.advance_location, moved, ← List.drop_drop,
        show source.drop s.location.byteOffset = byte :: (text ++ later) from shape.symm]
      rfl
    rw [List.length_cons, Scanner.advanceAscii,
      ih (s.advance source) others next,
      Scanner.advance_location, moved]
    omega

theorem advanceAscii_substr (text : Bytes) (s : Scanner)
    (ascii : text.all isPlain = true) (starts : text <+: s.rest source) :
    substr source s.location (s.advanceAscii source text.length).location = text := by
  obtain ⟨later, shape⟩ := starts
  rw [substr, advanceAscii_text text s ascii ⟨later, shape⟩, Nat.add_sub_cancel_left,
    show source.drop s.location.byteOffset = text ++ later from shape.symm, List.take_left]

theorem Comment.others {depth : Nat} {unit text : Bytes}
    (high : ∀ b ∈ unit, b ≠ 47 ∧ b ≠ 42) (comment : Comment (depth + 1) text) :
    Comment (depth + 1) (unit ++ text) := by
  induction unit with
  | nil => exact comment
  | cons byte unit ih =>
    have ⟨slash, star⟩ := high byte List.mem_cons_self
    refine .other ?_ ?_ (ih fun b i => high b (List.mem_cons_of_mem byte i))
    · rintro ⟨later, shape⟩
      exact slash (List.cons.inj shape).1.symm
    · rintro ⟨later, shape⟩
      exact star (List.cons.inj shape).1.symm

/-- A step inside a block comment that is neither a start nor an end. -/
theorem Step.comment {here : SourceLocation} {unit after text : Bytes} {depth : Nat}
    (step : Step source here unit after) (opens : ¬ bytes ['/', '*'] <+: unit ++ after)
    (closes : ¬ bytes ['*', '/'] <+: unit ++ after) (starts : text <+: after)
    (comment : Comment (depth + 1) text) : Comment (depth + 1) (unit ++ text) := by
  have longer : unit ++ text <+: unit ++ after := (List.prefix_append_right_inj unit).mpr starts
  cases step with
  | line kind _ =>
    refine comment.others ?_
    obtain rfl | rfl | ⟨rfl, -⟩ := kind <;> simp
  | column it _ _ =>
    obtain one | high := it.bytes
    · obtain ⟨byte, rfl⟩ := List.length_eq_one_iff.mp one
      exact .other (fun short => opens (short.trans longer))
        (fun short => closes (short.trans longer)) comment
    · refine comment.others fun b i => ?_
      have large := high b i
      constructor <;> rintro rfl <;> exact absurd large (by decide)

/-- The text of a block comment that ends. -/
theorem skipBlockComment_text (s : Scanner) (depth : Nat)
    (ends : (s.skipBlockComment source depth).2 = 0) :
    Comment depth (substr source s.location (s.skipBlockComment source depth).1.location) := by
  fun_induction Scanner.skipBlockComment source s depth with
  | case1 s depth inside starts ih =>
    rw [Scanner.startsWith, List.isPrefixOf_iff_prefix] at starts
    obtain ⟨depth, rfl⟩ := Nat.exists_eq_succ_of_ne_zero inside.2
    have opened : substr source s.location (s.advanceAscii source 2).location = bytes ['/', '*'] :=
      advanceAscii_substr (bytes ['/', '*']) s rfl starts
    rw [substr_append source (s.advanceAscii_le source 2)
      ((s.advanceAscii source 2).skipBlockComment_le source _), opened]
    exact .nested (ih ends)
  | case2 s depth inside _ starts ih =>
    rw [Scanner.startsWith, List.isPrefixOf_iff_prefix] at starts
    obtain ⟨depth, rfl⟩ := Nat.exists_eq_succ_of_ne_zero inside.2
    have closed : substr source s.location (s.advanceAscii source 2).location = bytes ['*', '/'] :=
      advanceAscii_substr (bytes ['*', '/']) s rfl starts
    rw [substr_append source (s.advanceAscii_le source 2)
      ((s.advanceAscii source 2).skipBlockComment_le source _), closed]
    exact .close (ih ends)
  | case3 s depth inside opens closes ih =>
    rw [Scanner.startsWith, List.isPrefixOf_iff_prefix] at opens closes
    obtain ⟨depth, rfl⟩ := Nat.exists_eq_succ_of_ne_zero inside.2
    obtain ⟨unit, after, shape, step⟩ := step_exists inside.1
    have place := s.skipScalar_location source
    have rest := (s.skipScalar source).skipBlockComment_le source (depth + 1)
    have later := ih ends
    rw [place] at rest later
    rw [substr_append source (advance_le source s.location) rest, step.substr shape]
    rw [Scanner.rest, shape] at opens closes
    refine step.comment opens closes ?_ later
    have next : source.drop (Lexer.advance source s.location).byteOffset = after := by
      have offset : (Lexer.advance source s.location).byteOffset =
          s.location.byteOffset + unit.length := by
        cases step with
        | line _ moved => rw [moved]
        | column _ _ moved => rw [moved]
      rw [offset, ← List.drop_drop, shape, List.drop_left]
    rw [← next]
    exact substr_prefix _ _
  | case4 s depth =>
    rw [substr_self, show depth = 0 from ends]
    exact .done

theorem inside_of_starts {s : Scanner} {text : Bytes} (some : text ≠ [])
    (starts : text <+: s.rest source) : s.location.byteOffset < source.length := by
  by_contra outside
  rw [Scanner.rest, List.drop_eq_nil_iff.mpr (Nat.le_of_not_lt outside)] at starts
  exact some (List.prefix_nil.mp starts)

/-- A line comment. -/
theorem ran_lineComment {s : Scanner} (starts : bytes ['#'] <+: s.rest source) :
    ∃ pieces more, Ran source s pieces more ((s.advance source).skipLineComment source) := by
  obtain ⟨more, moved⟩ := Moved.skipLineComment source (s.advance source)
  have inside : s.location.byteOffset < source.length := inside_of_starts (by decide) starts
  have onward := advance_lt source inside
  have rest := (s.advance source).skipLineComment_le source
  have opened : substr source s.location (s.advance source).location = bytes ['#'] :=
    advanceAscii_substr (bytes ['#']) s rfl starts
  have text : Trivia (substr source s.location
      ((s.advance source).skipLineComment source).location) := by
    rw [substr_append source (advance_le source s.location) rest]
    rw [Scanner.advance_location] at opened
    rw [opened]
    exact .lineComment (skipLineComment_text (s.advance source))
  have first : (s.rest source).head? = some 35 := by
    obtain ⟨later, shape⟩ := starts
    rw [← shape]
    rfl
  exact ⟨[.trivia ⟨s.location, ((s.advance source).skipLineComment source).location⟩], more,
    .one (Moved.advance.trans moved) rfl (onward.trans_le rest) text
      (greedy_of_start first (.inr rfl))⟩

/-- A block comment, or what stands for one that does not end. -/
theorem ran_blockComment {s : Scanner} (starts : bytes ['/', '*'] <+: s.rest source) :
    ∃ pieces more, Ran source s pieces more
      (if ((s.advanceAscii source 2).skipBlockComment source 1).2 ≠ 0 then
        ((s.advanceAscii source 2).skipBlockComment source 1).1.addError "LEX003"
          "unterminated block comment" s.location
      else ((s.advanceAscii source 2).skipBlockComment source 1).1) := by
  obtain ⟨more, moved⟩ := Moved.skipBlockComment source (s.advanceAscii source 2) 1
  have inside : s.location.byteOffset < source.length := inside_of_starts (by decide) starts
  have onward := s.advanceAscii_lt source Nat.two_pos inside
  have rest := (s.advanceAscii source 2).skipBlockComment_le source 1
  have opened : substr source s.location (s.advanceAscii source 2).location = bytes ['/', '*'] :=
    advanceAscii_substr (bytes ['/', '*']) s rfl starts
  have whole := (Moved.advanceAscii source s 2).trans moved
  split
  · exact ⟨[.refused ⟨.error, "LEX003", "unterminated block comment", ⟨s.location,
        ((s.advanceAscii source 2).skipBlockComment source 1).1.location⟩⟩], _,
      .one (whole.addError "LEX003" "unterminated block comment") rfl (onward.trans_le rest)
        (List.mem_append_right _ (List.mem_singleton_self _)) (greedy_of_comment starts)⟩
  next ends =>
    have text : Trivia (substr source s.location
        ((s.advanceAscii source 2).skipBlockComment source 1).1.location) := by
      rw [substr_append source onward.le rest, opened]
      exact .blockComment (skipBlockComment_text _ 1 (not_not.mp ends))
    exact ⟨[.trivia ⟨s.location,
        ((s.advanceAscii source 2).skipBlockComment source 1).1.location⟩], _,
      .one whole rfl (onward.trans_le rest) text (greedy_of_comment starts)⟩

theorem ran_trivia (source : Bytes) (s : Scanner) :
    ∃ pieces more, Ran source s pieces more (s.skipTrivia source) := by
  fun_induction Scanner.skipTrivia source s with
  | case1 s t inside starts ih =>
    rw [Scanner.startsWith, List.isPrefixOf_iff_prefix] at starts
    obtain ⟨spaces, ranSpaces⟩ := ran_spaces source s.result s.location
    obtain ⟨pieces, more, ran⟩ := ran_lineComment starts
    obtain ⟨later, diagnosed, rest⟩ := ih
    exact ⟨_, _, (ranSpaces.trans ran).trans rest⟩
  | case2 s t inside _ starts commented ends =>
    rw [Scanner.startsWith, List.isPrefixOf_iff_prefix] at starts
    obtain ⟨spaces, ranSpaces⟩ := ran_spaces source s.result s.location
    obtain ⟨pieces, more, ran⟩ := ran_blockComment starts
    rw [if_pos ends] at ran
    exact ⟨_, _, ranSpaces.trans ran⟩
  | case3 s t inside _ starts commented ends ih =>
    rw [Scanner.startsWith, List.isPrefixOf_iff_prefix] at starts
    obtain ⟨spaces, ranSpaces⟩ := ran_spaces source s.result s.location
    obtain ⟨pieces, more, ran⟩ := ran_blockComment starts
    rw [if_neg ends] at ran
    obtain ⟨later, diagnosed, rest⟩ := ih
    exact ⟨_, _, (ranSpaces.trans ran).trans rest⟩
  | case4 s t =>
    obtain ⟨spaces, ranSpaces⟩ := ran_spaces source s.result s.location
    exact ⟨_, _, ranSpaces⟩
  | case5 s t =>
    obtain ⟨spaces, ranSpaces⟩ := ran_spaces source s.result s.location
    exact ⟨_, _, ranSpaces⟩

/-- The end of a string, wherever its start was. -/
theorem moved_string (source : Bytes) (quote : UInt8) (first s : Scanner) (value : Bytes)
    {more : List Diagnostic} (moved : Moved source first [] more s) :
    ∃ token more, token.kind = .string ∧
      token.lexeme = substr source token.span.start token.span.stop ∧
      token.span = ⟨first.location,
        (s.scanStringBody source quote first.location value).location⟩ ∧
      Moved source first [token] more (s.scanStringBody source quote first.location value) := by
  generalize start : first.location = place
  fun_induction Scanner.scanStringBody source quote place s value generalizing more with
  | case1 s value _ =>
    subst start
    exact ⟨_, _, rfl, rfl, rfl,
      (moved.addError "LEX002" "unterminated string literal").addToken .string value⟩
  | case2 s value _ _ =>
    subst start
    exact ⟨_, _, rfl, rfl, rfl, (moved.trans Moved.advance).addToken .string value⟩
  | case3 s value _ _ _ =>
    subst start
    exact ⟨_, _, rfl, rfl, rfl,
      (moved.addError "LEX002" "unterminated string literal").addToken .string value⟩
  | case4 s value _ _ =>
    subst start
    exact ⟨_, _, rfl, rfl, rfl,
      ((moved.trans Moved.advance).addError "LEX002" "unterminated string literal").addToken
        .string value⟩
  | case5 =>
    rename_i ih
    obtain ⟨diagnosed, step⟩ := Moved.scanEscape source _ _ _
    exact ih (moved.trans step)
  | case6 s value _ _ _ _ _ _ _ ih => exact ih (moved.trans Moved.advance)
  | case7 s value _ _ _ _ _ _ _ ih => exact ih (moved.trans Moved.diagnoseInvalidUtf8)

theorem onward_while (wanted : Bytes → Bool) (here : SourceLocation) :
    Onward source here (advanceWhile source wanted here) := by
  fun_induction advanceWhile source wanted here with
  | case1 here _ _ ih => exact (onward_advance source here).trans ih
  | case2 => exact .refl
  | case3 => exact .refl

theorem onward_fraction (here : SourceLocation) :
    Onward source here (Scanner.skipFraction source here) := by
  unfold Scanner.skipFraction
  split
  · exact (onward_advance source here).trans (onward_while _ _)
  · exact .refl

theorem onward_exponent (here : SourceLocation) :
    Onward source here (Scanner.skipExponent source here) := by
  unfold Scanner.skipExponent
  dsimp only
  generalize here.byteOffset + 1 + _ = ahead
  split
  · split
    · refine (onward_advance source here).trans (.trans ?_ (onward_while _ _))
      split
      · exact onward_advance source _
      · exact .refl
    · exact .refl
  · exact .refl

theorem keywordKind_plain (text : Bytes) :
    keywordKind text ≠ .endOfFile ∧ keywordKind text ≠ .string ∧
      keywordKind text ∉ operators.map Prod.snd := by
  unfold keywordKind
  cases found : keywords.lookup text with
  | none => decide
  | some kind =>
    obtain ⟨before, after, shape, -⟩ := List.lookup_eq_some_iff.mp found
    have known : (text, kind) ∈ keywords := by
      rw [shape]
      exact List.mem_append_right before List.mem_cons_self
    have all : ∀ keyword ∈ keywords, keyword.2 ≠ .endOfFile ∧ keyword.2 ≠ .string ∧
        keyword.2 ∉ operators.map Prod.snd := by decide
    exact all _ known

/-- The first operator that fits is the longest one. -/
theorem longest {s : Scanner} {found operator : Bytes × TokenKind}
    (first : operators.find? (fun operator => s.startsWith source operator.1) = some found)
    (known : operator ∈ operators) (starts : operator.1 <+: s.rest source) :
    operator.1.length ≤ found.1.length := by
  have sorted : operators.Pairwise fun a b => b.1.length ≤ a.1.length := by decide
  obtain ⟨fits, before, after, shape, none⟩ := List.find?_eq_some_iff_append.mp first
  rw [shape] at known sorted
  obtain earlier | later := List.mem_append.mp known
  · have refused := none operator earlier
    rw [Scanner.startsWith, List.isPrefixOf_iff_prefix.mpr starts] at refused
    exact absurd refused Bool.false_ne_true
  · obtain rfl | later := List.mem_cons.mp later
    · exact Nat.le_refl _
    · exact List.rel_of_pairwise_cons (List.pairwise_append.mp sorted).2.1 later

theorem operators_ascii {operator : Bytes × TokenKind} (known : operator ∈ operators) :
    operator.1.all isPlain = true ∧ operator.2 ≠ .endOfFile ∧ operator.2 ≠ .string := by
  have all : ∀ operator ∈ operators, operator.1.all isPlain = true ∧
      operator.2 ≠ .endOfFile ∧ operator.2 ≠ .string := by decide
  exact all operator known

theorem ran_operator (s : Scanner) (inside : s.location.byteOffset < source.length) :
    ∃ piece more, Ran source s [piece] more (s.scanOperatorOrError source) := by
  unfold Scanner.scanOperatorOrError
  split
  next operator found =>
    have known := List.mem_of_find?_eq_some found
    have starts := List.find?_some found
    rw [Scanner.startsWith, List.isPrefixOf_iff_prefix] at starts
    have spelling := advanceAscii_substr operator.1 s (operators_ascii known).1 starts
    have moved := (Moved.advanceAscii source s operator.1.length).addToken
      operator.2 []
    refine ⟨.token _, _, .one moved rfl (s.advanceAscii_lt source (operators_pos known) inside)
      ⟨rfl, (operators_ascii known).2.1, fun _ => ?_⟩ ?_⟩
    · rw [spelling]
      exact known
    · intro other among fits _
      refine ⟨_, rfl, ?_, ?_⟩
      · rw [spelling]
        exact known
      · rw [spelling]
        exact longest found among fits
  next none =>
    refine ⟨.refused _, _, .one (Moved.advance.addError "LEX004" "unexpected character") rfl
      (advance_lt source inside) (List.mem_singleton_self _) ?_⟩
    intro operator known fits _
    have refused := List.find?_eq_none.mp none operator known
    rw [Scanner.startsWith, List.isPrefixOf_iff_prefix] at refused
    exact absurd fits refused

/-- Where an operator starts, the decoded scalar starts no other token. -/
theorem greedy_of_decoded {piece : Piece}
    (other : let decoded := decodeUtf8 (source.drop piece.span.start.byteOffset)
      decoded.valid = false ∨ decoded.value = 0xFEFF ∨ isIdentifierStart decoded.value = true ∨
        (48 ≤ decoded.value ∧ decoded.value ≤ 57) ∨ decoded.value = 34 ∨ decoded.value = 39) :
    piece.Greedy source := by
  intro operator known starts _
  obtain ⟨byte, later, -, decoded, identifier, small, digit, quote, -, -⟩ :=
    operator_start known starts
  rw [decoded] at other
  dsimp only at other
  obtain valid | mark | start | number | string := other
  · exact absurd valid Bool.true_eq_false.mp
  · omega
  · rw [identifier] at start
    exact absurd start Bool.false_ne_true
  · exact absurd number digit
  · exact absurd string quote

theorem ran_next (source : Bytes) (s : Scanner) (inside : s.location.byteOffset < source.length) :
    ∃ piece more, Ran source s [piece] more (s.scanNext source) := by
  have later := s.scanNext_lt source inside
  revert later
  unfold Scanner.scanNext
  dsimp only
  intro later
  split at later
  next invalid =>
    rw [if_pos invalid]
    rw [Bool.not_eq_true'] at invalid
    exact ⟨.refused _, _, .one Moved.diagnoseInvalidUtf8 rfl (advance_lt source inside)
      (List.mem_singleton_self _) (greedy_of_decoded (.inl invalid))⟩
  next valid =>
  rw [if_neg valid]
  split at later
  next mark =>
    rw [if_pos mark]
    exact ⟨.refused _, _, .one (Moved.advance.addError "LEX006"
      "UTF-8 byte-order mark is not permitted") rfl (advance_lt source inside)
      (List.mem_singleton_self _) (greedy_of_decoded (.inr (.inl mark.2)))⟩
  next unmarked =>
  rw [if_neg unmarked]
  split at later
  next identifier =>
    rw [if_pos identifier]
    have plain := keywordKind_plain (substr source s.location (advanceWhile source (fun rest =>
      (decodeUtf8 rest).valid && isIdentifierContinue (decodeUtf8 rest).value) s.location))
    exact ⟨.token _, _, .one ((Moved.goes (onward_while _ _)).addToken _ []) rfl later
      ⟨rfl, plain.1, fun known => absurd known plain.2.2⟩
      (greedy_of_decoded (.inr (.inr (.inl identifier))))⟩
  next other =>
  rw [if_neg other]
  split at later
  next digit =>
    rw [if_pos digit]
    have number : Onward source s.location (Scanner.skipExponent source
        (Scanner.skipFraction source (Scanner.skipDigits source s.location))) :=
      (onward_while _ _).trans ((onward_fraction _).trans (onward_exponent _))
    refine ⟨.token _, _, .one ((Moved.goes number).addToken _ []) rfl later
      ⟨rfl, ?_, ?_⟩ (greedy_of_decoded (.inr (.inr (.inr (.inl digit.2)))))⟩
    · dsimp only
      split <;> decide
    · intro known
      refine absurd known ?_
      dsimp only
      split <;> decide
  next other' =>
  rw [if_neg other']
  split at later
  next quote =>
    rw [if_pos quote]
    obtain ⟨token, more, kind, lexeme, span, moved⟩ := moved_string source
      (UInt8.ofNat (decodeUtf8 (s.rest source)).value) s (s.advance source) [] Moved.advance
    refine ⟨.token token, more, .one moved span later ⟨lexeme, ?_, ?_⟩ (greedy_of_decoded ?_)⟩
    · rw [kind]
      decide
    · rw [kind]
      exact fun known => absurd known (by decide)
    · rw [Piece.span, span]
      exact .inr (.inr (.inr (.inr quote)))
  next other'' =>
    rw [if_neg other'']
    exact ran_operator s inside

theorem ran_scan (source : Bytes) (s : Scanner) :
    ∃ pieces more, Ran source s pieces more (scan source s) ∧
      source.length ≤ (scan source s).location.byteOffset := by
  fun_induction scan source s with
  | case1 s _ inside ih =>
    obtain ⟨trivia, skipped, first⟩ := ran_trivia source s
    obtain ⟨piece, found, second⟩ := ran_next source _ inside
    obtain ⟨pieces, more, rest, ends⟩ := ih
    exact ⟨_, _, (first.trans second).trans rest, ends⟩
  | case2 s _ outside =>
    obtain ⟨trivia, skipped, first⟩ := ran_trivia source s
    exact ⟨_, _, first, Nat.le_of_not_lt outside⟩
  | case3 s outside => exact ⟨[], [], .refl, Nat.le_of_not_lt outside⟩

/-- What the pieces have to do with what the lexer gives. -/
structure Covers (source : Bytes) (result : LexResult) (pieces : List Piece)
    (eof : SourceLocation) : Prop where
  tokens : result.tokens = pieces.filterMap Piece.token? ++ [⟨.endOfFile, [], [], ⟨eof, eof⟩⟩]
  tiled : Tiled origin pieces eof
  total : pieces.flatMap (Piece.text source) = source
  ends : eof.byteOffset = source.length
  sound : ∀ piece ∈ pieces, piece.Sound source result.diagnostics ∧ piece.Greedy source
  ordered : result.tokens.Pairwise fun a b =>
    a.span.start.byteOffset < a.span.stop.byteOffset ∧
      a.span.stop.byteOffset ≤ b.span.start.byteOffset
  placed : ∀ span ∈ result.tokens.map Token.span ++ result.diagnostics.map Diagnostic.span ++
    pieces.map Piece.span, Placed source span.start ∧ Placed source span.stop

theorem Tiled.le {here there : SourceLocation} {pieces : List Piece}
    (tiled : Tiled here pieces there) : here.byteOffset ≤ there.byteOffset := by
  induction pieces generalizing here with
  | nil => rw [show here = there from tiled]
  | cons piece pieces ih => exact tiled.2.1.le.trans (ih tiled.2.2)

theorem Tiled.text {here there : SourceLocation} {pieces : List Piece}
    (tiled : Tiled here pieces there) :
    pieces.flatMap (Piece.text source) = substr source here there := by
  induction pieces generalizing here with
  | nil =>
    rw [show here = there from tiled, substr_self]
    rfl
  | cons piece pieces ih =>
    obtain ⟨rfl, some, rest⟩ := tiled
    rw [List.flatMap_cons, ih rest, Piece.text, ← substr_append source some.le rest.le]

theorem Tiled.ordered {here there : SourceLocation} {pieces : List Piece}
    (tiled : Tiled here pieces there) :
    (∀ piece ∈ pieces, here.byteOffset ≤ piece.span.start.byteOffset ∧
      piece.span.start.byteOffset < piece.span.stop.byteOffset ∧
      piece.span.stop.byteOffset ≤ there.byteOffset) ∧
    pieces.Pairwise fun a b => a.span.stop.byteOffset ≤ b.span.start.byteOffset := by
  induction pieces generalizing here with
  | nil => exact ⟨fun _ i => (nomatch i), .nil⟩
  | cons piece pieces ih =>
    obtain ⟨rfl, some, rest⟩ := tiled
    have ⟨inner, pairs⟩ := ih rest
    refine ⟨?_, .cons (fun other i => (inner other i).1) pairs⟩
    rintro other (_ | ⟨_, i⟩)
    · exact ⟨Nat.le_refl _, some, rest.le⟩
    · exact ⟨some.le.trans (inner other i).1, (inner other i).2⟩

/-- Tokens, trivia and refused bytes are the whole source, each where it says. -/
theorem lex_covers (source : Bytes) : ∃ pieces eof, Covers source (lex source) pieces eof := by
  obtain ⟨pieces, more, ran, ends⟩ := ran_scan source ⟨origin, [], []⟩
  generalize stop : (scan source ⟨origin, [], []⟩).location = eof at ends
  have tokens : (lex source).tokens = pieces.filterMap Piece.token? ++
      [⟨.endOfFile, [], [], ⟨eof, eof⟩⟩] := by
    subst stop
    rw [← List.nil_append (pieces.filterMap Piece.token?), ← ran.moved.tokens]
    rfl
  have diagnostics : (lex source).diagnostics = more := ran.moved.diagnostics
  have located := ran.moved.onward.located (located_origin source)
  have tiled : Tiled origin pieces eof := by
    subst stop
    exact ran.tiled
  rw [stop] at located
  have ordered := tiled.ordered
  have length : eof.byteOffset = source.length := le_antisymm located.placed.inside ends
  have among : ∀ token ∈ pieces.filterMap Piece.token?, ∃ piece ∈ pieces,
      piece.span = token.span := by
    intro token i
    obtain ⟨piece, known, same⟩ := List.mem_filterMap.mp i
    cases piece with
    | token t => exact ⟨_, known, by rw [← Option.some_inj.mp same]; rfl⟩
    | trivia => exact absurd same nofun
    | refused => exact absurd same nofun
  have placed : ∀ piece ∈ pieces, Placed source piece.span.start ∧
      Placed source piece.span.stop := by
    intro piece i
    have ⟨start, stop⟩ := ran.places piece i
    have begins := start.located (located_origin source)
    exact ⟨begins.placed, (stop.located begins).placed⟩
  refine ⟨pieces, eof, tokens, tiled, ?_, length, ?_, ?_, ?_⟩
  · rw [tiled.text, substr, length]
    exact List.take_length
  · rw [diagnostics]
    exact ran.sound
  · rw [tokens, List.pairwise_append]
    refine ⟨?_, List.pairwise_singleton _ _, ?_⟩
    · rw [List.pairwise_filterMap]
      refine (List.Pairwise.and_mem.mp ordered.2).imp ?_
      rintro a b ⟨known, -, apart⟩ t ta u ub
      cases a with
      | trivia => exact absurd ta nofun
      | refused => exact absurd ta nofun
      | token a =>
      cases b with
      | trivia => exact absurd ub nofun
      | refused => exact absurd ub nofun
      | token b =>
        obtain rfl := Option.some_inj.mp ta
        obtain rfl := Option.some_inj.mp ub
        exact ⟨(ordered.1 _ known).2.1, apart⟩
    · intro a known b final
      obtain ⟨piece, inside, same⟩ := among a known
      have ⟨_, bounds, stop⟩ := ordered.1 piece inside
      rw [List.mem_singleton.mp final, ← same]
      exact ⟨bounds, stop⟩
  · intro span known
    obtain known | known := List.mem_append.mp known
    · obtain known | known := List.mem_append.mp known
      · obtain ⟨token, i, rfl⟩ := List.mem_map.mp known
        rw [tokens] at i
        obtain i | i := List.mem_append.mp i
        · obtain ⟨piece, inside, same⟩ := among token i
          rw [← same]
          exact placed piece inside
        · rw [List.mem_singleton.mp i]
          exact ⟨located.placed, located.placed⟩
      · obtain ⟨diagnostic, i, rfl⟩ := List.mem_map.mp known
        rw [diagnostics] at i
        have ⟨start, stop⟩ := ran.moved.spans diagnostic i
        have begins := start.located (located_origin source)
        exact ⟨begins.placed, (stop.located begins).placed⟩
    · obtain ⟨piece, i, rfl⟩ := List.mem_map.mp known
      exact placed piece i

example : (lex (bytes ['a', '\r', '\n', ' ', '*', '*', '='])).tokens.map
    (fun t => (t.kind, t.span.start.line, t.span.start.column, t.span.stop.byteOffset)) =
    [(.identifier, 1, 1, 1), (.powerEqual, 2, 2, 7), (.endOfFile, 2, 5, 7)] := by decide +kernel

end Baas.Lexer
