import Baas.Script.Lexer
import Mathlib.Data.List.DropRight
import Mathlib.Logic.Relation

/-! Where the lexer says that it is. -/
namespace Baas.Lexer

open Baas.Script (Bytes SourceLocation SourceSpan)
open Scalars

def isBreak (byte : UInt8) : Bool := byte == 10 || byte == 13

/-- How many lines a text ends: at LF, at CR LF and at CR. -/
def lineEnds : Bytes → Nat
  | [] => 0
  | byte :: rest =>
    lineEnds rest + if byte = 10 ∨ (byte = 13 ∧ rest.head? ≠ some 10) then 1 else 0

/-- What a text has after its last line end. -/
def lastLine (text : Bytes) : Bytes := text.rtakeWhile fun byte => !isBreak byte

/-- How many scalars a text has. A byte that starts none counts for one. -/
def columns : Bytes → Nat
  | [] => 0
  | byte :: rest => columns (rest.drop (unitLength (byte :: rest) - 1)) + 1
termination_by text => text.length
decreasing_by
  rw [List.length_drop]
  exact Nat.lt_succ_of_le (Nat.sub_le _ _)

/-- A location that says how many lines and scalars are before it. -/
structure Placed (source : Bytes) (here : SourceLocation) : Prop where
  inside : here.byteOffset ≤ source.length
  line : here.line = lineEnds (source.take here.byteOffset) + 1
  column : here.column = columns (lastLine (source.take here.byteOffset)) + 1

theorem columns_unit {unit rest : Bytes} (some : unit ≠ [])
    (size : unitLength (unit ++ rest) = unit.length) :
    columns (unit ++ rest) = columns rest + 1 := by
  cases unit with
  | nil => exact absurd rfl some
  | cons byte tail =>
    rw [List.cons_append] at size ⊢
    rw [columns, size, List.length_cons, Nat.add_sub_cancel, List.drop_left]

/-- CR and LF that a cut would part. -/
def Cut (a b : Bytes) : Prop := a.getLast? = some 13 ∧ b.head? = some 10

theorem lineEnds_append {a b : Bytes} (whole : ¬ Cut a b) :
    lineEnds (a ++ b) = lineEnds a + lineEnds b := by
  induction a with
  | nil => rw [List.nil_append, lineEnds, Nat.zero_add]
  | cons byte a ih =>
    cases a with
    | nil =>
      have apart : byte = 13 → b.head? ≠ some 10 := by
        rintro rfl head
        exact whole ⟨rfl, head⟩
      rw [List.singleton_append, lineEnds, lineEnds, lineEnds, Nat.zero_add, Nat.add_comm]
      congr 1
      by_cases carriage : byte = 13
      · rw [if_pos (Or.inr ⟨carriage, apart carriage⟩), if_pos (Or.inr ⟨carriage, nofun⟩)]
      · simp only [carriage, false_and, or_false]
    | cons next a =>
      have rest : ¬ Cut (next :: a) b := fun ⟨last, head⟩ =>
        whole ⟨by rw [List.getLast?_cons_cons, last], head⟩
      rw [List.cons_append, lineEnds, ih rest, lineEnds.eq_2 byte (next :: a)]
      exact Nat.add_right_comm _ _ _

theorem lineEnds_plain {text : Bytes} (plain : ∀ b ∈ text, isBreak b = false) :
    lineEnds text = 0 := by
  induction text with
  | nil => rfl
  | cons byte text ih =>
    have first := plain byte List.mem_cons_self
    rw [isBreak, Bool.or_eq_false_iff, beq_eq_false_iff_ne, beq_eq_false_iff_ne] at first
    rw [lineEnds, ih fun b i => plain b (List.mem_cons_of_mem byte i), if_neg]
    rintro (line | ⟨carriage, -⟩)
    · exact first.1 line
    · exact first.2 carriage

theorem lastLine_append {before last : Bytes}
    (break' : ∀ b, before.getLast? = some b → isBreak b = true)
    (plain : ∀ b ∈ last, isBreak b = false) : lastLine (before ++ last) = last := by
  unfold lastLine
  induction last using List.reverseRecOn with
  | nil =>
    rw [List.append_nil, List.rtakeWhile_eq_nil_iff]
    intro some
    rw [break' _ (List.getLast?_eq_getLast_of_ne_nil some)]
    exact Bool.false_ne_true
  | append_singleton last byte ih =>
    have stays := plain byte (List.mem_append_right last (List.mem_singleton_self byte))
    rw [← List.append_assoc, List.rtakeWhile_concat_pos _ _ _ (by rw [stays]; rfl),
      ih fun b i => plain b (List.mem_append_left _ i)]

/-- A scalar, or a byte that starts none, before what follows it. -/
structure IsUnit (unit after : Bytes) : Prop where
  some : unit ≠ []
  size : unitLength (unit ++ after) = unit.length

/-- What a unit is does not depend on all that follows. -/
theorem IsUnit.shorter {unit text after : Bytes} (it : IsUnit unit (text ++ after)) :
    IsUnit unit text := by
  refine ⟨it.some, ?_⟩
  have size := it.size
  by_cases valid : (decodeUtf8 (unit ++ (text ++ after))).valid = true
  · obtain ⟨c, later, same⟩ := decode_sound valid
    rw [same, unitLength_encode] at size
    rw [(List.append_inj same size.symm).1, unitLength_encode]
  · rw [unitLength, if_neg valid] at size
    have invalid : ¬ (decodeUtf8 (unit ++ text)).valid = true := by
      intro shorter
      obtain ⟨c, later, same⟩ := decode_sound shorter
      rw [← List.append_assoc, same, List.append_assoc, decode_encode] at valid
      exact valid rfl
    rw [unitLength, if_neg invalid, size]

/-- A text as units before what follows it, with their number. -/
inductive Walked : Bytes → Bytes → Nat → Prop
  | nil {after : Bytes} : Walked [] after 0
  | cons {unit text after : Bytes} {count : Nat} : IsUnit unit (text ++ after) →
      Walked text after count → Walked (unit ++ text) after (count + 1)

theorem Walked.columns_eq {text after : Bytes} {count : Nat} (walked : Walked text after count) :
    columns text = count := by
  induction walked with
  | nil => rw [columns]
  | cons it _ ih => rw [columns_unit it.some it.shorter.size, ih]

theorem Walked.snoc {text unit after : Bytes} {count : Nat} (it : IsUnit unit after)
    (walked : Walked text (unit ++ after) count) : Walked (text ++ unit) after (count + 1) := by
  generalize shape : unit ++ after = next at walked
  induction walked with
  | nil =>
    rw [List.nil_append, ← List.append_nil unit]
    exact .cons (by rwa [List.nil_append]) .nil
  | cons first _ ih =>
    rw [List.append_assoc]
    refine .cons ?_ (ih shape)
    rw [List.append_assoc, shape]
    exact first

/-- What the scanner keeps: where the last line starts, and the scalars since then. -/
structure Located (source : Bytes) (here : SourceLocation) : Prop where
  split : ∃ before last after count, source = before ++ (last ++ after) ∧
    (∀ b, before.getLast? = some b → isBreak b = true) ∧ (∀ b ∈ last, isBreak b = false) ∧
    ¬ Cut before (last ++ after) ∧ Walked last after count ∧
    here = ⟨before.length + last.length, lineEnds before + 1, count + 1⟩

theorem located_origin (source : Bytes) : Located source origin :=
  ⟨[], [], source, 0, rfl, nofun, (fun _ i => nomatch i), (fun cut => nomatch cut.1), .nil, rfl⟩

theorem Located.placed {source : Bytes} {here : SourceLocation} (located : Located source here) :
    Placed source here := by
  obtain ⟨before, last, after, count, shape, breaks, plain, whole, walked, rfl⟩ := located.split
  have taken : source.take (before.length + last.length) = before ++ last := by
    rw [shape, ← List.append_assoc, ← List.length_append, List.take_left]
  have apart : ¬ Cut before last := by
    rintro ⟨carriage, line⟩
    cases last with
    | nil => exact absurd line nofun
    | cons byte last => exact whole ⟨carriage, line⟩
  constructor
  · rw [shape, List.length_append, List.length_append]
    exact Nat.add_le_add_left (Nat.le_add_right _ _) _
  · rw [taken, lineEnds_append apart, lineEnds_plain plain, Nat.add_zero]
  · rw [taken, lastLine_append breaks plain, walked.columns_eq]

/-- A break at the place of the scanner ends its line. -/
theorem located_line_end {before last after unit : Bytes}
    (plain : ∀ b ∈ last, isBreak b = false) (whole : ¬ Cut before (last ++ (unit ++ after)))
    (kind : unit = [10] ∨ unit = [13, 10] ∨ (unit = [13] ∧ after.head? ≠ some 10)) :
    Located (before ++ (last ++ (unit ++ after)))
      ⟨before.length + last.length + unit.length, lineEnds before + 1 + 1, 1⟩ := by
  have one : lineEnds unit = 1 := by
    obtain rfl | rfl | ⟨rfl, -⟩ := kind <;> rfl
  have apart : ¬ Cut (before ++ last) unit := by
    rintro ⟨carriage, line⟩
    cases last using List.reverseRecOn with
    | nil =>
      rw [List.append_nil] at carriage
      exact whole ⟨carriage, by rw [List.nil_append, List.head?_append, line]; rfl⟩
    | append_singleton last byte =>
      rw [← List.append_assoc, List.getLast?_concat, Option.some_inj] at carriage
      have stays := plain byte (List.mem_append_right last (List.mem_singleton_self byte))
      rw [carriage] at stays
      exact absurd stays nofun
  have inner : ¬ Cut before last := by
    rintro ⟨carriage, line⟩
    exact whole ⟨carriage, by rw [List.head?_append, line]; rfl⟩
  have total : lineEnds (before ++ last ++ unit) = lineEnds before + 1 := by
    rw [lineEnds_append apart, lineEnds_append inner, lineEnds_plain plain, one, Nat.add_zero]
  refine ⟨before ++ last ++ unit, [], after, 0, by simp only [List.append_assoc, List.nil_append],
    ?_, (fun _ i => nomatch i), ?_, .nil, ?_⟩
  · intro b last?
    obtain rfl | rfl | ⟨rfl, -⟩ := kind
    · rw [List.getLast?_concat, Option.some_inj] at last?
      rw [← last?]
      rfl
    · rw [List.getLast?_append_cons, List.getLast?_cons_cons, List.getLast?_singleton,
        Option.some_inj] at last?
      rw [← last?]
      rfl
    · rw [List.getLast?_concat, Option.some_inj] at last?
      rw [← last?]
      rfl
  · rintro ⟨carriage, line⟩
    rw [List.nil_append] at line
    obtain rfl | rfl | ⟨rfl, lone⟩ := kind
    · rw [List.getLast?_concat] at carriage
      exact absurd carriage (by decide)
    · rw [List.getLast?_append_cons] at carriage
      exact absurd carriage (by decide)
    · exact lone line
  · rw [total, List.length_append, List.length_append]
    rfl

/-- The bytes of a unit of several bytes are not ASCII. -/
theorem IsUnit.bytes {unit after : Bytes} (it : IsUnit unit after) :
    unit.length = 1 ∨ ∀ b ∈ unit, 0x80 ≤ b.toNat := by
  have size := it.size
  by_cases valid : (decodeUtf8 (unit ++ after)).valid = true
  · obtain ⟨c, later, same⟩ := decode_sound valid
    rw [same, unitLength_encode] at size
    have shape := shape_encode c
    rw [(List.append_inj same size.symm).1]
    generalize String.utf8EncodeChar c = l at shape
    generalize c.toNat = v at shape
    cases shape with
    | one => exact .inl rfl
    | two low high tail =>
      refine .inr ?_
      rw [List.forall_mem_cons, List.forall_mem_cons]
      exact ⟨by omega, tail.1, fun _ i => nomatch i⟩
    | three low high tail tail' =>
      refine .inr ?_
      rw [List.forall_mem_cons, List.forall_mem_cons, List.forall_mem_cons]
      exact ⟨by omega, tail.1, tail'.1, fun _ i => nomatch i⟩
    | four low high tail tail' tail'' =>
      refine .inr ?_
      rw [List.forall_mem_cons, List.forall_mem_cons, List.forall_mem_cons, List.forall_mem_cons]
      exact ⟨by omega, tail.1, tail'.1, tail''.1, fun _ i => nomatch i⟩
  · rw [unitLength, if_neg valid] at size
    exact .inl size.symm

theorem isUnit_take (byte : UInt8) (rest : Bytes) :
    ∃ unit after, byte :: rest = unit ++ after ∧ IsUnit unit after ∧
      unitLength (byte :: rest) = unit.length := by
  have positive := unitLength_pos (byte :: rest)
  have room : unitLength (byte :: rest) ≤ (byte :: rest).length := by
    by_cases valid : (decodeUtf8 (byte :: rest)).valid = true
    · obtain ⟨c, later, same⟩ := decode_sound valid
      rw [same, unitLength_encode, List.length_append]
      exact Nat.le_add_right _ _
    · rw [unitLength, if_neg valid]
      exact Nat.succ_le_succ (Nat.zero_le _)
  have size : ((byte :: rest).take (unitLength (byte :: rest))).length =
      unitLength (byte :: rest) := List.length_take_of_le room
  refine ⟨(byte :: rest).take (unitLength (byte :: rest)),
    (byte :: rest).drop (unitLength (byte :: rest)), (List.take_append_drop _ _).symm,
    ⟨?_, ?_⟩, size.symm⟩
  · intro none
    rw [none, List.length_nil] at size
    omega
  · rw [List.take_append_drop, size]

/-- What one step of the scanner takes. -/
inductive Step (source : Bytes) (here : SourceLocation) : Bytes → Bytes → Prop
  | line {unit after : Bytes} :
      unit = [10] ∨ unit = [13, 10] ∨ (unit = [13] ∧ after.head? ≠ some 10) →
      advance source here = ⟨here.byteOffset + unit.length, here.line + 1, 1⟩ →
      Step source here unit after
  | column {unit after : Bytes} : IsUnit unit after → (∀ b ∈ unit, isBreak b = false) →
      advance source here = ⟨here.byteOffset + unit.length, here.line, here.column + 1⟩ →
      Step source here unit after

theorem step_exists {source : Bytes} {here : SourceLocation}
    (inside : here.byteOffset < source.length) :
    ∃ unit after, source.drop here.byteOffset = unit ++ after ∧ Step source here unit after := by
  cases shape : source.drop here.byteOffset with
  | nil =>
    rw [List.drop_eq_nil_iff] at shape
    omega
  | cons byte rest =>
    by_cases carriage : byte = 13
    · subst carriage
      by_cases line : rest.head? = some 10
      · obtain ⟨after, rfl⟩ : ∃ after, rest = 10 :: after :=
          List.head?_eq_some_iff.mp line
        refine ⟨[13, 10], after, rfl, .line (.inr (.inl rfl)) ?_⟩
        rw [advance, shape]
        rfl
      · refine ⟨[13], rest, rfl, .line (.inr (.inr ⟨rfl, line⟩)) ?_⟩
        rw [advance, shape]
        dsimp only
        rw [if_pos rfl, if_neg line]
        rfl
    by_cases line : byte = 10
    · subst line
      refine ⟨[10], rest, rfl, .line (.inl rfl) ?_⟩
      rw [advance, shape]
      rfl
    · obtain ⟨unit, after, cut, it, size⟩ := isUnit_take byte rest
      refine ⟨unit, after, cut, .column it ?_ ?_⟩
      · obtain one | high := it.bytes
        · obtain ⟨b, rfl⟩ := List.length_eq_one_iff.mp one
          obtain ⟨rfl, -⟩ := List.cons.inj cut
          intro c i
          rw [List.mem_singleton.mp i, isBreak, Bool.or_eq_false_iff, beq_eq_false_iff_ne,
            beq_eq_false_iff_ne]
          exact ⟨line, carriage⟩
        · intro c i
          have large := high c i
          rw [isBreak, Bool.or_eq_false_iff, beq_eq_false_iff_ne, beq_eq_false_iff_ne]
          constructor <;> rintro rfl <;> exact absurd large (by decide)
      · rw [advance, shape]
        dsimp only
        rw [if_neg carriage, if_neg line, size]

theorem advance_outside {source : Bytes} {here : SourceLocation}
    (outside : source.length ≤ here.byteOffset) : advance source here = here := by
  rw [advance, List.drop_eq_nil_iff.mpr outside]

/-- The position stays right at every step. -/
theorem Located.advance {source : Bytes} {here : SourceLocation} (located : Located source here) :
    Located source (advance source here) := by
  obtain inside | outside := Nat.lt_or_ge here.byteOffset source.length
  · obtain ⟨before, last, next, count, rfl, breaks, plain, whole, walked, rfl⟩ := located.split
    obtain ⟨unit, after, cut, step⟩ := step_exists inside
    dsimp only at cut
    rw [← List.append_assoc, ← List.length_append, List.drop_left] at cut
    subst cut
    cases step with
    | line kind moved =>
      rw [moved]
      exact located_line_end plain whole kind
    | column it stays moved =>
      rw [moved]
      refine ⟨before, last ++ unit, after, count + 1, by rw [List.append_assoc], breaks, ?_, ?_,
        walked.snoc it, ?_⟩
      · intro b i
        exact (List.mem_append.mp i).elim (plain b) (stays b)
      · rwa [List.append_assoc]
      · rw [List.length_append, Nat.add_assoc]
  · rwa [advance_outside outside]

/-- From a place to a later one by steps of the scanner. -/
def Onward (source : Bytes) : SourceLocation → SourceLocation → Prop :=
  Relation.ReflTransGen fun here there => there = advance source here

theorem Onward.located {source : Bytes} {here there : SourceLocation}
    (onward : Onward source here there) (located : Located source here) :
    Located source there := by
  induction onward with
  | refl => exact located
  | tail _ next ih => rw [next]; exact ih.advance

theorem Onward.le {source : Bytes} {here there : SourceLocation}
    (onward : Onward source here there) : here.byteOffset ≤ there.byteOffset := by
  induction onward with
  | refl => exact Nat.le_refl _
  | tail _ next ih => rw [next]; exact ih.trans (advance_le source _)

theorem onward_advance (source : Bytes) (here : SourceLocation) :
    Onward source here (Lexer.advance source here) := .single rfl

end Baas.Lexer
