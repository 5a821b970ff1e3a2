import Mathlib.Algebra.Order.Ring.Int
import Mathlib.Tactic.Ring
import Mathlib.Tactic.Linarith

/-! Powers by squaring: the products that are formed on the way never leave a range that
holds the result. -/
namespace SquareMultiply

/-- The range of the signed numbers of a width: from `-m` to `m - 1`. -/
def Fits (m z : ℤ) : Prop := -m ≤ z ∧ z < m

instance (m z : ℤ) : Decidable (Fits m z) := inferInstanceAs (Decidable (_ ∧ _))

/-- The power after a digit of the exponent. -/
def digit (power base : ℤ) (exponent : ℕ) : ℤ :=
  if exponent % 2 = 1 then power * base else power

/-- The products that are formed, in their order. -/
def products (power base : ℤ) (exponent : ℕ) : List ℤ :=
  if exponent = 0 then []
  else
    (if exponent % 2 = 1 then [power * base] else []) ++
      if exponent / 2 = 0 then []
      else base * base :: products (digit power base exponent) (base * base) (exponent / 2)
termination_by exponent

theorem pow_halves (power base : ℤ) (exponent : ℕ) :
    power * base ^ exponent = digit power base exponent * (base * base) ^ (exponent / 2) := by
  unfold digit
  have halves : exponent = 2 * (exponent / 2) + exponent % 2 := (Nat.div_add_mod exponent 2).symm
  have square : (base * base) ^ (exponent / 2) = base ^ (2 * (exponent / 2)) := by
    rw [← pow_two, ← pow_mul]
  rw [square]
  conv_lhs => rw [halves]
  split
  · next odd =>
    rw [odd, pow_succ]
    ring
  · next even =>
    rw [show exponent % 2 = 0 by omega, Nat.add_zero]

theorem fits_of_mul {m z k : ℤ} (positive : 0 < k) (fits : Fits m (z * k)) : Fits m z := by
  obtain ⟨low, high⟩ := fits
  obtain negative | other := lt_or_ge z 0
  · have less : z * k ≤ z := by nlinarith
    exact ⟨by omega, by omega⟩
  · have more : z ≤ z * k := by nlinarith
    exact ⟨by omega, by omega⟩

/-- A square fits when a multiple of it does, unless the bound itself is a square. -/
theorem square_fits {m power base k : ℤ} (large : 0 < m) (odd : ∀ r : ℤ, r * r ≠ m)
    (live : power = 0 → base = 0) (positive : base ≠ 0 → 0 < k)
    (fits : Fits m (power * (base * base * k))) : Fits m (base * base) := by
  by_cases zero : base = 0
  · subst zero
    exact ⟨by omega, by omega⟩
  have nonzero : power ≠ 0 := fun z => zero (live z)
  have square : 0 < base * base := mul_self_pos.mpr zero
  have scale : base * base ≤ base * base * k := by nlinarith [positive zero]
  obtain ⟨low, high⟩ := fits
  have bounded : base * base ≤ m := by
    obtain below | above := lt_or_gt_of_ne nonzero
    · nlinarith
    · nlinarith
  exact ⟨by omega, lt_of_le_of_ne bounded (odd base)⟩

theorem digit_zero {power base : ℤ} {exponent : ℕ} (live : power = 0 → base = 0)
    (zero : digit power base exponent = 0) : base = 0 := by
  unfold digit at zero
  split at zero
  · exact (mul_eq_zero.mp zero).elim live id
  · exact live zero

/-- The power after a digit fits when the result does. -/
theorem digit_fits {m power base : ℤ} {exponent : ℕ} (large : 0 < m)
    (isOdd : exponent % 2 = 1) (fits : Fits m (power * base ^ exponent)) :
    Fits m (power * base) := by
  rw [pow_halves, digit, if_pos isOdd] at fits
  by_cases zero : base = 0
  · rw [zero, mul_zero]
    exact ⟨by omega, large⟩
  · exact fits_of_mul (pow_pos (mul_self_pos.mpr zero) _) fits

/-- The square that the next digits are formed from fits when the result does. -/
theorem base_fits {m power base : ℤ} {exponent : ℕ} (large : 0 < m) (odd : ∀ r : ℤ, r * r ≠ m)
    (live : power = 0 → base = 0) (more : exponent / 2 ≠ 0)
    (fits : Fits m (power * base ^ exponent)) : Fits m (base * base) := by
  have split : (base * base) ^ (exponent / 2) =
      base * base * (base * base) ^ (exponent / 2 - 1) := by
    rw [← pow_succ']
    congr 1
    omega
  rw [pow_halves, split] at fits
  exact square_fits large odd (digit_zero live)
    (fun nonzero => pow_pos (mul_self_pos.mpr nonzero) _) fits

/-- Every product fits when the result does. -/
theorem products_fit {m : ℤ} (large : 0 < m) (odd : ∀ r : ℤ, r * r ≠ m) (power base : ℤ)
    (exponent : ℕ) (live : power = 0 → base = 0) (fits : Fits m (power * base ^ exponent)) :
    ∀ z ∈ products power base exponent, Fits m z := by
  fun_induction products power base exponent with
  | case1 => exact fun z mem => absurd mem List.not_mem_nil
  | case2 power base exponent nonzero ih =>
    intro z mem
    rcases List.mem_append.mp mem with first | later
    · split at first
      · next isOdd =>
        rw [List.mem_singleton.mp first]
        exact digit_fits large isOdd fits
      · exact absurd first List.not_mem_nil
    split at later
    · exact absurd later List.not_mem_nil
    next more =>
    rcases List.mem_cons.mp later with rfl | later
    · exact base_fits large odd live more fits
    · exact ih more (fun zero => by rw [digit_zero live zero, mul_zero])
        (pow_halves power base exponent ▸ fits) z later

/-- The result fits when every product does. -/
theorem fits_of_products {m power base : ℤ} {exponent : ℕ} (first : Fits m power)
    (all : ∀ z ∈ products power base exponent, Fits m z) : Fits m (power * base ^ exponent) := by
  fun_induction products power base exponent with
  | case1 => simpa using first
  | case2 power base exponent nonzero ih =>
    have digits : Fits m (digit power base exponent) := by
      unfold digit
      split
      · next isOdd =>
        exact all _ (List.mem_append_left _ (by rw [if_pos isOdd]; exact List.mem_singleton_self _))
      · exact first
    rw [pow_halves]
    by_cases ended : exponent / 2 = 0
    · rw [ended, pow_zero, mul_one]
      exact digits
    · refine ih ended digits fun z mem => all z (List.mem_append_right _ ?_)
      rw [if_neg ended]
      exact List.mem_cons_of_mem _ mem

end SquareMultiply
