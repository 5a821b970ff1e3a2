import Mathlib.Algebra.Order.Field.Rat
import Mathlib.Tactic.Positivity

/-! Numbers of the format binary64 by their bits. -/

structure Binary64 where
  bits : UInt64
deriving DecidableEq

namespace Binary64

/-- The bits without the sign. -/
def magnitude (x : Binary64) : Nat := x.bits.toNat % 2 ^ 63

def negative (x : Binary64) : Bool := 2 ^ 63 ≤ x.bits.toNat

/-- Neither infinite nor a NaN. -/
def finite (x : Binary64) : Bool := x.magnitude < 0x7FF * 2 ^ 52

/-- How finite numbers compare. -/
def order (x : Binary64) : Int := if x.negative then -x.magnitude else x.magnitude

/-- A magnitude in units of the least positive number. -/
def units (magnitude : Nat) : Nat :=
  if magnitude / 2 ^ 52 = 0 then magnitude
  else (2 ^ 52 + magnitude % 2 ^ 52) * 2 ^ (magnitude / 2 ^ 52 - 1)

/-- The number that a finite bit string stands for. -/
def value (x : Binary64) : ℚ :=
  (if x.negative then -(units x.magnitude : ℚ) else units x.magnitude) / 2 ^ 1074

/-- The nearest number to a natural number, to even when there are two. -/
def ofNat (n : Nat) : Binary64 :=
  if n = 0 then ⟨0⟩
  else
    let e := n.log2
    let significand :=
      if e ≤ 52 then n <<< (52 - e)
      else
        let q := n >>> (e - 52)
        let r := n % 2 ^ (e - 52)
        if 2 * r > 2 ^ (e - 52) ∨ (2 * r = 2 ^ (e - 52) ∧ q % 2 = 1) then q + 1 else q
    ⟨UInt64.ofNat ((1022 + e) * 2 ^ 52 + significand)⟩

def ofInt (n : Int) : Binary64 :=
  if n < 0 then ⟨UInt64.ofNat (2 ^ 63) + (ofNat n.natAbs).bits⟩ else ofNat n.natAbs

theorem units_lt {m n : Nat} (less : m < n) : units m < units n := by
  unfold units
  have split (k : Nat) : k = 2 ^ 52 * (k / 2 ^ 52) + k % 2 ^ 52 := (Nat.div_add_mod k _).symm
  have low (k : Nat) : k % 2 ^ 52 < 2 ^ 52 := Nat.mod_lt k (by decide)
  obtain same | higher := Nat.eq_or_lt_of_le (Nat.div_le_div_right (c := 2 ^ 52) less.le)
  · rw [same]
    split
    · exact less
    · have fraction : m % 2 ^ 52 < n % 2 ^ 52 := by omega
      exact Nat.mul_lt_mul_of_pos_right (by omega) (by positivity)
  · rw [if_neg (show ¬ n / 2 ^ 52 = 0 by omega)]
    split
    · calc m < 2 ^ 52 + n % 2 ^ 52 := by omega
        _ ≤ (2 ^ 52 + n % 2 ^ 52) * 2 ^ (n / 2 ^ 52 - 1) := Nat.le_mul_of_pos_right _ (by positivity)
    · calc (2 ^ 52 + m % 2 ^ 52) * 2 ^ (m / 2 ^ 52 - 1)
          < 2 ^ 52 * 2 * 2 ^ (m / 2 ^ 52 - 1) :=
            Nat.mul_lt_mul_of_pos_right (by have := low m; omega) (by positivity)
        _ = 2 ^ 52 * 2 ^ (m / 2 ^ 52) := by
            rw [Nat.mul_assoc, ← pow_succ', Nat.sub_add_cancel (by omega)]
        _ ≤ 2 ^ 52 * 2 ^ (n / 2 ^ 52 - 1) :=
            Nat.mul_le_mul_left _ (Nat.pow_le_pow_right (by decide) (by omega))
        _ ≤ (2 ^ 52 + n % 2 ^ 52) * 2 ^ (n / 2 ^ 52 - 1) := Nat.mul_le_mul_right _ (by omega)

theorem units_injective {m n : Nat} (same : units m = units n) : m = n := by
  obtain less | equal | more := Nat.lt_trichotomy m n
  · exact absurd same (units_lt less).ne
  · exact equal
  · exact absurd same (units_lt more).ne'

/-- Numbers without a sign are their bits. -/
theorem value_injective {x y : Binary64} (positive : x.negative = false)
    (positive' : y.negative = false) (same : x.value = y.value) : x = y := by
  unfold value at same
  rw [positive, positive'] at same
  simp only [Bool.false_eq_true, if_false] at same
  have units := units_injective (Nat.cast_injective (R := ℚ)
    ((div_left_inj' (by positivity)).mp same))
  simp only [negative, decide_eq_false_iff_not, not_le] at positive positive'
  rw [magnitude, magnitude, Nat.mod_eq_of_lt positive, Nat.mod_eq_of_lt positive'] at units
  obtain ⟨bits⟩ := x
  obtain ⟨bits'⟩ := y
  exact congrArg Binary64.mk (UInt64.toNat_inj.mp units)

end Binary64
