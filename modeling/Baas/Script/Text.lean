import Baas.Lib.Scalars
import Baas.Script.HeapData

/-! The texts of the script heap are the encodings of lists of scalars. -/
namespace Baas.Script

open Scalars String

theorem isContinuation_iff (b : UInt8) : isContinuation b = true ↔ Tail b := tail_iff b

theorem isScalar_iff {minimum value : Nat} : isScalar minimum value = true ↔
    minimum ≤ value ∧ value ≤ 0x10FFFF ∧ (value < 0xD800 ∨ 0xDFFF < value) := by
  unfold isScalar
  simp only [Bool.and_eq_true, decide_eq_true_eq, Bool.not_eq_true', Bool.and_eq_false_iff,
    decide_eq_false_iff_not]
  omega

theorem isValidUtf8_cons (first : UInt8) (rest : Bytes) : isValidUtf8 (first :: rest) =
    if first.toNat ≤ 0x7F then isValidUtf8 rest
    else if 0xC2 ≤ first.toNat ∧ first.toNat ≤ 0xDF then
      match rest with
      | second :: rest => isEncoded 0x80 (first &&& 0x1F).toNat [second] && isValidUtf8 rest
      | [] => false
    else if 0xE0 ≤ first.toNat ∧ first.toNat ≤ 0xEF then
      match rest with
      | second :: third :: rest =>
        isEncoded 0x800 (first &&& 0x0F).toNat [second, third] && isValidUtf8 rest
      | _ => false
    else if 0xF0 ≤ first.toNat ∧ first.toNat ≤ 0xF4 then
      match rest with
      | second :: third :: fourth :: rest =>
        isEncoded 0x10000 (first &&& 0x07).toNat [second, third, fourth] && isValidUtf8 rest
      | _ => false
    else false := by
  rw [isValidUtf8.eq_def]
  simp only [UInt8.le_iff_toNat_le, Bool.and_eq_true, decide_eq_true_eq]
  rfl

/-- A valid text starts with a scalar. -/
theorem split_valid {first : UInt8} {rest : Bytes} (valid : isValidUtf8 (first :: rest) = true) :
    ∃ c later, first :: rest = utf8EncodeChar c ++ later ∧ isValidUtf8 later = true := by
  rw [isValidUtf8_cons] at valid
  split at valid
  · next low =>
    have shape : Shape first.toNat [first] := .one low
    obtain ⟨c, -, encoded⟩ := shape.encodes (by omega) (by omega)
    exact ⟨c, rest, by rw [encoded]; rfl, valid⟩
  split at valid
  · next range =>
    split at valid
    · next second later =>
      obtain ⟨sound, valid⟩ := Bool.and_eq_true_iff.mp valid
      simp only [isEncoded, List.all_cons, List.all_nil, Bool.and_true, Bool.and_eq_true,
        isContinuation_iff, isScalar_iff, scalarValue, List.foldl_cons, List.foldl_nil] at sound
      obtain ⟨tail, -, top, plain⟩ := sound
      rw [and_lead_two range.1 range.2, tail_low tail] at top plain
      have shape := Shape.two range.1 range.2 tail
      obtain ⟨c, -, encoded⟩ := shape.encodes (by omega) plain
      exact ⟨c, later, by rw [encoded]; rfl, valid⟩
    · exact absurd valid Bool.false_ne_true
  split at valid
  · next range =>
    split at valid
    · next second third later =>
      obtain ⟨sound, valid⟩ := Bool.and_eq_true_iff.mp valid
      simp only [isEncoded, List.all_cons, List.all_nil, Bool.and_true, Bool.and_eq_true,
        isContinuation_iff, isScalar_iff, scalarValue, List.foldl_cons, List.foldl_nil] at sound
      obtain ⟨⟨tail, tail'⟩, least, top, plain⟩ := sound
      rw [and_lead_three range.1 range.2, tail_low tail, tail_low tail'] at least top plain
      have shape := Shape.three range.1 range.2 tail tail' least
      obtain ⟨c, -, encoded⟩ := shape.encodes (by omega) plain
      exact ⟨c, later, by rw [encoded]; rfl, valid⟩
    · exact absurd valid Bool.false_ne_true
  split at valid
  · next range =>
    split at valid
    · next second third fourth later =>
      obtain ⟨sound, valid⟩ := Bool.and_eq_true_iff.mp valid
      simp only [isEncoded, List.all_cons, List.all_nil, Bool.and_true, Bool.and_eq_true,
        isContinuation_iff, isScalar_iff, scalarValue, List.foldl_cons, List.foldl_nil] at sound
      obtain ⟨⟨tail, tail', tail''⟩, least, top, plain⟩ := sound
      rw [and_lead_four range.1 range.2, tail_low tail, tail_low tail', tail_low tail'']
        at least top plain
      have shape := Shape.four range.1 range.2 tail tail' tail'' least
      obtain ⟨c, -, encoded⟩ := shape.encodes (by omega) plain
      exact ⟨c, later, by rw [encoded]; rfl, valid⟩
    · exact absurd valid Bool.false_ne_true
  · exact absurd valid Bool.false_ne_true

/-- A scalar before a valid text. -/
theorem valid_scalar (c : Char) {later : Bytes} (valid : isValidUtf8 later = true) :
    isValidUtf8 (utf8EncodeChar c ++ later) = true := by
  have range := scalar_range c
  have shape := shape_encode c
  generalize utf8EncodeChar c = l at shape
  generalize c.toNat = v at shape range
  cases shape with
  | @one a low =>
    rw [List.singleton_append, isValidUtf8_cons, if_pos low]
    exact valid
  | @two a b low high tail =>
    have tail' : 0x80 ≤ b.toNat ∧ b.toNat ≤ 0xBF := tail
    rw [List.cons_append, isValidUtf8_cons, if_neg (by omega), if_pos ⟨low, high⟩]
    simp only [List.cons_append, List.nil_append, valid, Bool.and_true, isEncoded, List.all_cons,
      List.all_nil, Bool.and_eq_true, isContinuation_iff, isScalar_iff, scalarValue,
      List.foldl_cons, List.foldl_nil, and_lead_two low high, tail_low tail]
    exact ⟨tail, by omega, by omega, by omega⟩
  | @three a b c low high tail tail' least =>
    rw [List.cons_append, isValidUtf8_cons, if_neg (by omega), if_neg (by omega),
      if_pos ⟨low, high⟩]
    simp only [List.cons_append, List.nil_append, valid, Bool.and_true, isEncoded, List.all_cons,
      List.all_nil, Bool.and_eq_true, isContinuation_iff, isScalar_iff, scalarValue,
      List.foldl_cons, List.foldl_nil, and_lead_three low high, tail_low tail, tail_low tail']
    exact ⟨⟨tail, tail'⟩, by omega, by omega, by omega⟩
  | @four a b c d low high tail tail' tail'' least =>
    rw [List.cons_append, isValidUtf8_cons, if_neg (by omega), if_neg (by omega),
      if_neg (by omega), if_pos ⟨low, high⟩]
    simp only [List.cons_append, List.nil_append, valid, Bool.and_true, isEncoded, List.all_cons,
      List.all_nil, Bool.and_eq_true, isContinuation_iff, isScalar_iff, scalarValue,
      List.foldl_cons, List.foldl_nil, and_lead_four low high, tail_low tail, tail_low tail',
      tail_low tail'']
    exact ⟨⟨tail, tail', tail''⟩, by omega, by omega, by omega⟩

/-- The valid texts are the encodings of lists of scalars. -/
theorem isValidUtf8_iff (text : Bytes) :
    isValidUtf8 text = true ↔ ∃ scalars : List Char, text = encode scalars := by
  constructor
  · intro valid
    induction size : text.length using Nat.strong_induction_on generalizing text with
    | _ n ih =>
      cases text with
      | nil => exact ⟨[], rfl⟩
      | cons first rest =>
        obtain ⟨c, later, parts, valid⟩ := split_valid valid
        have shorter : later.length < n := by
          have positive := c.utf8Size_pos
          rw [← size, parts, List.length_append, length_utf8EncodeChar]
          omega
        obtain ⟨scalars, rfl⟩ := ih _ shorter later valid rfl
        exact ⟨c :: scalars, by rw [parts, encode_cons]⟩
  · rintro ⟨scalars, rfl⟩
    induction scalars with
    | nil => rfl
    | cons c scalars ih =>
      rw [encode_cons]
      exact valid_scalar c ih

end Baas.Script
