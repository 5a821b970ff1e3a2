import Mathlib.Tactic.Linarith

/-! Padded base64 with the alphabet for URLs. -/
namespace Base64Url

/-- The character of a six-bit number. -/
def symbol (n : Nat) : UInt8 :=
  UInt8.ofNat (if n < 26 then 65 + n else if n < 52 then 71 + n else if n < 62 then n - 4
    else if n = 62 then 45 else 95)

def digit (c : UInt8) : Option Nat :=
  if 65 ≤ c ∧ c ≤ 90 then some (c.toNat - 65)
  else if 97 ≤ c ∧ c ≤ 122 then some (c.toNat - 71)
  else if 48 ≤ c ∧ c ≤ 57 then some (c.toNat + 4)
  else if c = 45 then some 62
  else if c = 95 then some 63
  else none

def padding : UInt8 := 61

def encode : List UInt8 → List UInt8
  | [] => []
  | [a] => [symbol (a.toNat / 4), symbol (a.toNat % 4 * 16), padding, padding]
  | [a, b] =>
    [symbol (a.toNat / 4), symbol (a.toNat % 4 * 16 + b.toNat / 16),
      symbol (b.toNat % 16 * 4), padding]
  | a :: b :: c :: rest =>
    symbol (a.toNat / 4) :: symbol (a.toNat % 4 * 16 + b.toNat / 16) ::
      symbol (b.toNat % 16 * 4 + c.toNat / 64) :: symbol (c.toNat % 64) :: encode rest

/-- The bytes of four characters. The bits that are left over must be zero. -/
def quad (a b c d : UInt8) (last : Bool) : Option (List UInt8) :=
  match digit a, digit b with
  | some a, some b =>
    if last ∧ c = padding ∧ d = padding then
      if b % 16 = 0 then some [UInt8.ofNat (a * 4 + b / 16)] else none
    else
      match digit c with
      | none => none
      | some c =>
        if last ∧ d = padding then
          if c % 4 = 0 then some [UInt8.ofNat (a * 4 + b / 16), UInt8.ofNat (b % 16 * 16 + c / 4)]
          else none
        else
          (digit d).map (fun d => [UInt8.ofNat (a * 4 + b / 16), UInt8.ofNat (b % 16 * 16 + c / 4),
            UInt8.ofNat (c % 4 * 64 + d)])
  | _, _ => none

def decode : List UInt8 → Option (List UInt8)
  | [] => some []
  | a :: b :: c :: d :: rest =>
    match quad a b c d rest.isEmpty, decode rest with
    | some bytes, some later => some (bytes ++ later)
    | _, _ => none
  | _ => none

theorem symbol_facts : ∀ n : Fin 64, digit (symbol n) = some n.val ∧ symbol n ≠ padding ∧
    symbol n ≤ 0x7F ∧ symbol n ≠ 34 ∧ symbol n ≠ 92 ∧ 0x20 ≤ symbol n := by
  decide

theorem digit_symbol {n : Nat} (small : n < 64) : digit (symbol n) = some n :=
  (symbol_facts ⟨n, small⟩).1

theorem symbol_ne_padding {n : Nat} (small : n < 64) : symbol n ≠ padding :=
  (symbol_facts ⟨n, small⟩).2.1

theorem three (a b c : UInt8) :
    a.toNat / 4 < 64 ∧ a.toNat % 4 * 16 + b.toNat / 16 < 64 ∧
      b.toNat % 16 * 4 + c.toNat / 64 < 64 ∧ c.toNat % 64 < 64 := by
  have ha := a.toNat_lt
  have hb := b.toNat_lt
  have hc := c.toNat_lt
  omega

theorem ofNat_eq {n : Nat} {a : UInt8} (same : n = a.toNat) : UInt8.ofNat n = a := by
  rw [same, UInt8.ofNat_toNat]

theorem decode_encode (bytes : List UInt8) : decode (encode bytes) = some bytes := by
  fun_induction encode bytes with
  | case1 => rfl
  | case2 a =>
    obtain ⟨h₁, h₂, -, -⟩ := three a 0 0
    simp only [UInt8.toNat_zero, Nat.zero_div, Nat.add_zero] at h₂
    have first : a.toNat / 4 * 4 + a.toNat % 4 * 16 / 16 = a.toNat := by omega
    simp only [decode, quad, digit_symbol h₁, digit_symbol h₂, ofNat_eq first]
    simp
  | case3 a b =>
    obtain ⟨h₁, h₂, h₃, -⟩ := three a b 0
    simp only [UInt8.toNat_zero, Nat.zero_div, Nat.add_zero] at h₃
    have size := b.toNat_lt
    have first : a.toNat / 4 * 4 + (a.toNat % 4 * 16 + b.toNat / 16) / 16 = a.toNat := by omega
    have second : (a.toNat % 4 * 16 + b.toNat / 16) % 16 * 16 + b.toNat % 16 * 4 / 4 =
        b.toNat := by omega
    simp only [decode, quad, digit_symbol h₁, digit_symbol h₂, digit_symbol h₃,
      symbol_ne_padding h₃, ofNat_eq first, ofNat_eq second]
    simp
  | case4 a b c rest ih =>
    obtain ⟨h₁, h₂, h₃, h₄⟩ := three a b c
    have sizes := b.toNat_lt
    have sizes' := c.toNat_lt
    have first : a.toNat / 4 * 4 + (a.toNat % 4 * 16 + b.toNat / 16) / 16 = a.toNat := by omega
    have second : (a.toNat % 4 * 16 + b.toNat / 16) % 16 * 16 +
        (b.toNat % 16 * 4 + c.toNat / 64) / 4 = b.toNat := by omega
    have third : (b.toNat % 16 * 4 + c.toNat / 64) % 4 * 64 + c.toNat % 64 = c.toNat := by omega
    simp only [decode, quad, digit_symbol h₁, digit_symbol h₂, digit_symbol h₃, digit_symbol h₄,
      symbol_ne_padding h₃, symbol_ne_padding h₄, and_false, if_false, Option.map_some,
      ofNat_eq first, ofNat_eq second, ofNat_eq third, ih]
    simp

theorem length_encode (bytes : List UInt8) :
    (encode bytes).length = 4 * ((bytes.length + 2) / 3) := by
  fun_induction encode bytes with
  | case1 => rfl
  | case2 a => simp
  | case3 a b => simp
  | case4 a b c rest ih =>
    simp only [List.length_cons, ih]
    omega

/-- What an encoded text consists of. -/
theorem mem_encode {bytes : List UInt8} {c : UInt8} (member : c ∈ encode bytes) :
    c ≤ 0x7F ∧ c ≠ 34 ∧ c ≠ 92 ∧ 0x20 ≤ c := by
  have of_symbol {n : Nat} (small : n < 64) :
      symbol n ≤ 0x7F ∧ symbol n ≠ 34 ∧ symbol n ≠ 92 ∧ 0x20 ≤ symbol n :=
    (symbol_facts ⟨n, small⟩).2.2
  have of_padding : padding ≤ 0x7F ∧ padding ≠ 34 ∧ padding ≠ 92 ∧ 0x20 ≤ padding := by decide
  fun_induction encode bytes with
  | case1 => cases member
  | case2 a =>
    obtain ⟨h₁, h₂, -, -⟩ := three a 0 0
    simp only [UInt8.toNat_zero, Nat.zero_div, Nat.add_zero] at h₂
    simp only [List.mem_cons, List.not_mem_nil, or_false] at member
    obtain rfl | rfl | rfl | rfl := member
    · exact of_symbol h₁
    · exact of_symbol h₂
    · exact of_padding
    · exact of_padding
  | case3 a b =>
    obtain ⟨h₁, h₂, h₃, -⟩ := three a b 0
    simp only [UInt8.toNat_zero, Nat.zero_div, Nat.add_zero] at h₃
    simp only [List.mem_cons, List.not_mem_nil, or_false] at member
    obtain rfl | rfl | rfl | rfl := member
    · exact of_symbol h₁
    · exact of_symbol h₂
    · exact of_symbol h₃
    · exact of_padding
  | case4 a b d rest ih =>
    obtain ⟨h₁, h₂, h₃, h₄⟩ := three a b d
    simp only [List.mem_cons] at member
    obtain rfl | rfl | rfl | rfl | later := member
    · exact of_symbol h₁
    · exact of_symbol h₂
    · exact of_symbol h₃
    · exact of_symbol h₄
    · exact ih later

end Base64Url
