import Mathlib.Data.List.Basic
import Mathlib.Tactic.IntervalCases

/-! The octets of Unicode scalars. -/
namespace Scalars

open String

/-- The octets of a text. -/
def encode (text : List Char) : List UInt8 := text.flatMap utf8EncodeChar

@[simp] theorem encode_nil : encode [] = [] := rfl

@[simp] theorem encode_cons (c : Char) (text : List Char) :
    encode (c :: text) = utf8EncodeChar c ++ encode text := List.flatMap_cons

@[simp] theorem encode_append (a b : List Char) : encode (a ++ b) = encode a ++ encode b :=
  List.flatMap_append

def Tail (b : UInt8) : Prop := 0x80 ≤ b.toNat ∧ b.toNat ≤ 0xBF

/-- The octets of one scalar, by how many there are, with the number they stand for. -/
inductive Shape : Nat → List UInt8 → Prop
  | one {a : UInt8} : a.toNat ≤ 0x7F → Shape a.toNat [a]
  | two {a b : UInt8} : 0xC2 ≤ a.toNat → a.toNat ≤ 0xDF → Tail b →
      Shape ((a.toNat - 0xC0) * 64 + (b.toNat - 0x80)) [a, b]
  | three {a b c : UInt8} : 0xE0 ≤ a.toNat → a.toNat ≤ 0xEF → Tail b → Tail c →
      0x800 ≤ ((a.toNat - 0xE0) * 64 + (b.toNat - 0x80)) * 64 + (c.toNat - 0x80) →
      Shape (((a.toNat - 0xE0) * 64 + (b.toNat - 0x80)) * 64 + (c.toNat - 0x80)) [a, b, c]
  | four {a b c d : UInt8} : 0xF0 ≤ a.toNat → a.toNat ≤ 0xF4 → Tail b → Tail c → Tail d →
      0x10000 ≤ (((a.toNat - 0xF0) * 64 + (b.toNat - 0x80)) * 64 + (c.toNat - 0x80)) * 64 +
        (d.toNat - 0x80) →
      Shape ((((a.toNat - 0xF0) * 64 + (b.toNat - 0x80)) * 64 + (c.toNat - 0x80)) * 64 +
        (d.toNat - 0x80)) [a, b, c, d]

theorem toNat_ofNat {n : Nat} (small : n < 256) : (UInt8.ofNat n).toNat = n :=
  UInt8.toNat_ofNat_of_lt' small

theorem scalar_range (c : Char) :
    c.toNat < 0x110000 ∧ (c.toNat < 0xD800 ∨ 0xDFFF < c.toNat) := by
  rcases c.valid with low | ⟨above, below⟩
  · have small : c.toNat < 0xD800 := low
    omega
  · have high : 0xDFFF < c.toNat := above
    have top : c.toNat < 0x110000 := below
    omega

theorem encode_one {v : Nat} {a : UInt8} (range : v ≤ 0x7F) (first : a.toNat = v) :
    Shape v [a] := by
  have shape : Shape a.toNat [a] := .one (by omega)
  rwa [first] at shape

theorem encode_two {v : Nat} {a b : UInt8} (low : 0x7F < v) (high : v ≤ 0x7FF)
    (first : a.toNat = v / 64 + 0xC0) (second : b.toNat = v % 64 + 0x80) : Shape v [a, b] := by
  have shape : Shape ((a.toNat - 0xC0) * 64 + (b.toNat - 0x80)) [a, b] :=
    .two (by omega) (by omega) ⟨by omega, by omega⟩
  have whole : (a.toNat - 0xC0) * 64 + (b.toNat - 0x80) = v := by omega
  rwa [whole] at shape

theorem encode_three {v : Nat} {a b c : UInt8} (low : 0x7FF < v) (high : v ≤ 0xFFFF)
    (first : a.toNat = v / 4096 + 0xE0) (second : b.toNat = v / 64 % 64 + 0x80)
    (third : c.toNat = v % 64 + 0x80) : Shape v [a, b, c] := by
  have whole : ((a.toNat - 0xE0) * 64 + (b.toNat - 0x80)) * 64 + (c.toNat - 0x80) = v := by omega
  have shape : Shape (((a.toNat - 0xE0) * 64 + (b.toNat - 0x80)) * 64 + (c.toNat - 0x80))
      [a, b, c] :=
    .three (by omega) (by omega) ⟨by omega, by omega⟩ ⟨by omega, by omega⟩ (by omega)
  rwa [whole] at shape

theorem encode_four {v : Nat} {a b c d : UInt8} (low : 0xFFFF < v) (high : v ≤ 0x10FFFF)
    (first : a.toNat = v / 262144 + 0xF0) (second : b.toNat = v / 4096 % 64 + 0x80)
    (third : c.toNat = v / 64 % 64 + 0x80) (fourth : d.toNat = v % 64 + 0x80) :
    Shape v [a, b, c, d] := by
  have whole : (((a.toNat - 0xF0) * 64 + (b.toNat - 0x80)) * 64 + (c.toNat - 0x80)) * 64 +
      (d.toNat - 0x80) = v := by omega
  have shape : Shape ((((a.toNat - 0xF0) * 64 + (b.toNat - 0x80)) * 64 +
      (c.toNat - 0x80)) * 64 + (d.toNat - 0x80)) [a, b, c, d] :=
    .four (by omega) (by omega) ⟨by omega, by omega⟩ ⟨by omega, by omega⟩ ⟨by omega, by omega⟩
      (by omega)
  rwa [whole] at shape

/-- Every scalar is encoded in one of the shapes. -/
theorem shape_encode (c : Char) : Shape c.toNat (utf8EncodeChar c) := by
  obtain ⟨top, -⟩ := scalar_range c
  have value : c.val.toNat = c.toNat := rfl
  unfold utf8EncodeChar
  rw [value]
  generalize c.toNat = v at top
  dsimp only
  split
  · exact encode_one (by omega) (toNat_ofNat (by omega))
  split
  · exact encode_two (by omega) (by omega) ((toNat_ofNat (by omega)).trans (by omega))
      (toNat_ofNat (by omega))
  split
  · exact encode_three (by omega) (by omega) ((toNat_ofNat (by omega)).trans (by omega))
      (toNat_ofNat (by omega)) (toNat_ofNat (by omega))
  · exact encode_four (by omega) (by omega) ((toNat_ofNat (by omega)).trans (by omega))
      (toNat_ofNat (by omega)) (toNat_ofNat (by omega)) (toNat_ofNat (by omega))

/-- The octets of a number. -/
def octets (v : Nat) : List Nat :=
  if v ≤ 0x7F then [v]
  else if v ≤ 0x7FF then [v / 64 + 0xC0, v % 64 + 0x80]
  else if v ≤ 0xFFFF then [v / 4096 + 0xE0, v / 64 % 64 + 0x80, v % 64 + 0x80]
  else [v / 262144 + 0xF0, v / 4096 % 64 + 0x80, v / 64 % 64 + 0x80, v % 64 + 0x80]

theorem Shape.octets {v : Nat} {l : List UInt8} (shape : Shape v l) :
    l.map UInt8.toNat = octets v := by
  unfold Scalars.octets
  cases shape with
  | one low => rw [if_pos low]; rfl
  | two low high b =>
    obtain ⟨lowB, highB⟩ := b
    rw [if_neg (by omega), if_pos (by omega)]
    simp only [List.map_cons, List.map_nil, List.cons.injEq, and_true]
    omega
  | three low high b c more =>
    obtain ⟨lowB, highB⟩ := b
    obtain ⟨lowC, highC⟩ := c
    rw [if_neg (by omega), if_neg (by omega), if_pos (by omega)]
    simp only [List.map_cons, List.map_nil, List.cons.injEq, and_true]
    omega
  | four low high b c d more =>
    obtain ⟨lowB, highB⟩ := b
    obtain ⟨lowC, highC⟩ := c
    obtain ⟨lowD, highD⟩ := d
    rw [if_neg (by omega), if_neg (by omega), if_neg (by omega)]
    simp only [List.map_cons, List.map_nil, List.cons.injEq, and_true]
    omega

/-- A shape whose number is a scalar encodes it. -/
theorem Shape.encodes {v : Nat} {l : List UInt8} (shape : Shape v l) (top : v < 0x110000)
    (noSurrogate : v < 0xD800 ∨ 0xDFFF < v) : ∃ c : Char, c.toNat = v ∧ utf8EncodeChar c = l := by
  have valid : v.isValidChar := by
    rcases noSurrogate with low | high
    · exact .inl low
    · exact .inr ⟨high, top⟩
  have number : (Char.ofNat v).toNat = v := by rw [Char.ofNat, dif_pos valid]; rfl
  refine ⟨Char.ofNat v, number, ?_⟩
  have same := (shape_encode (Char.ofNat v)).octets
  rw [number, ← shape.octets] at same
  exact List.map_injective_iff.mpr (fun a b eq => UInt8.toNat_inj.mp eq) same

/-- The width of a scalar by its first octet. -/
def width (first : UInt8) : Nat :=
  if first ≤ 0x7F then 1 else if first ≤ 0xDF then 2 else if first ≤ 0xEF then 3 else 4

theorem width_pos (first : UInt8) : 0 < width first := by
  unfold width
  split
  · decide
  split
  · decide
  split <;> decide

/-- A scalar starts with the octet that tells its width, and goes on with tails. -/
theorem encode_parts (c : Char) : ∃ first tail, utf8EncodeChar c = first :: tail ∧
    width first = tail.length + 1 ∧ ¬ Tail first ∧ (∀ b ∈ tail, Tail b) ∧
    (first.toNat ≤ 0x7F ↔ tail = []) := by
  have shape := shape_encode c
  unfold width
  simp only [UInt8.le_iff_toNat_le, UInt8.reduceToNat]
  generalize utf8EncodeChar c = l at shape
  generalize c.toNat = v at shape
  cases shape with
  | @one a low =>
    refine ⟨a, [], rfl, if_pos low, fun tail => ?_, fun b mem => absurd mem List.not_mem_nil,
      iff_of_true low rfl⟩
    have above := tail.1
    omega
  | @two a b low high tb =>
    refine ⟨a, [b], rfl, ?_, fun tail => ?_, by simpa using tb, iff_of_false (by omega) (by simp)⟩
    · rw [if_neg (by omega), if_pos high]
      rfl
    · have below := tail.2
      omega
  | @three a b c low high tb tc =>
    refine ⟨a, [b, c], rfl, ?_, fun tail => ?_, by simp [tb, tc],
      iff_of_false (by omega) (by simp)⟩
    · rw [if_neg (by omega), if_neg (by omega), if_pos high]
      rfl
    · have below := tail.2
      omega
  | @four a b c d low high tb tc td =>
    refine ⟨a, [b, c, d], rfl, ?_, fun tail => ?_, by simp [tb, tc, td],
      iff_of_false (by omega) (by simp)⟩
    · rw [if_neg (by omega), if_neg (by omega), if_neg (by omega)]
      rfl
    · have below := tail.2
      omega

theorem and_low (b : UInt8) (bits : Nat) (small : bits < 8) :
    (b &&& UInt8.ofNat (2 ^ bits - 1)).toNat = b.toNat % 2 ^ bits := by
  have mask : (UInt8.ofNat (2 ^ bits - 1)).toNat = 2 ^ bits - 1 :=
    toNat_ofNat (by
      have bound : 2 ^ bits ≤ 2 ^ 7 := Nat.pow_le_pow_right (by decide) (by omega)
      omega)
  rw [UInt8.toNat_and, mask, Nat.and_two_pow_sub_one_eq_mod]

/-- A tail by its high bits. -/
theorem tail_iff (b : UInt8) : (b &&& 0xC0 == 0x80) = true ↔ Tail b := by
  have all : ∀ n : Fin 256, (n.val &&& 192) = 128 ↔ 128 ≤ n.val ∧ n.val ≤ 191 := by
    decide +kernel
  have here := all ⟨b.toNat, b.toNat_lt⟩
  rw [beq_iff_eq, ← UInt8.toNat_inj, UInt8.toNat_and]
  exact here

/-- Tails take the number six bits further. -/
theorem tail_low {b : UInt8} (tail : Tail b) : (b &&& 0x3F).toNat = b.toNat - 0x80 := by
  obtain ⟨low, high⟩ := tail
  have mod := and_low b 6 (by decide)
  have mask : UInt8.ofNat (2 ^ 6 - 1) = 0x3F := rfl
  rw [mask] at mod
  omega

theorem and_lead_two {a : UInt8} (low : 0xC2 ≤ a.toNat) (high : a.toNat ≤ 0xDF) :
    (a &&& 0x1F).toNat = a.toNat - 0xC0 := by
  have mod := and_low a 5 (by decide)
  have mask : UInt8.ofNat (2 ^ 5 - 1) = 0x1F := rfl
  rw [mask] at mod
  omega

theorem and_lead_three {a : UInt8} (low : 0xE0 ≤ a.toNat) (high : a.toNat ≤ 0xEF) :
    (a &&& 0x0F).toNat = a.toNat - 0xE0 := by
  have mod := and_low a 4 (by decide)
  have mask : UInt8.ofNat (2 ^ 4 - 1) = 0x0F := rfl
  rw [mask] at mod
  omega

theorem and_lead_four {a : UInt8} (low : 0xF0 ≤ a.toNat) (high : a.toNat ≤ 0xF4) :
    (a &&& 0x07).toNat = a.toNat - 0xF0 := by
  have mod := and_low a 3 (by decide)
  have mask : UInt8.ofNat (2 ^ 3 - 1) = 0x07 := rfl
  rw [mask] at mod
  omega

end Scalars
