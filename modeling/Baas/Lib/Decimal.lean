import Mathlib.Data.List.Infix
import Mathlib.Tactic.Linarith

/-! Decimal numerals as byte strings. -/
namespace Decimal

/-- `std::to_chars` and `std::to_string` of an unsigned number. -/
def decimal (n : Nat) : List UInt8 :=
  if n < 10 then [UInt8.ofNat (48 + n)] else decimal (n / 10) ++ [UInt8.ofNat (48 + n % 10)]

def isDigit (c : UInt8) : Bool := 48 ≤ c && c ≤ 57

/-- The number that digits stand for. -/
def valueOf (digits : List UInt8) : Nat := digits.foldl (fun n c => 10 * n + (c.toNat - 48)) 0

theorem digit_toNat {d : Nat} (small : d < 10) : (UInt8.ofNat (48 + d)).toNat = 48 + d := by
  simp only [UInt8.toNat_ofNat']
  omega

theorem isDigit_ofNat {d : Nat} (small : d < 10) : isDigit (UInt8.ofNat (48 + d)) = true := by
  have value := digit_toNat small
  simp only [isDigit, Bool.and_eq_true, decide_eq_true_eq, UInt8.le_iff_toNat_le, value]
  exact ⟨Nat.le_add_right 48 d, by change 48 + d ≤ 57; omega⟩

theorem decimal_digits (n : Nat) : ∀ c ∈ decimal n, isDigit c = true := by
  induction n using Nat.strongRecOn with
  | _ n ih =>
    intro c member
    unfold decimal at member
    split at member
    · next small =>
      cases List.mem_singleton.mp member
      exact isDigit_ofNat small
    · rcases List.mem_append.mp member with front | last
      · exact ih (n / 10) (by omega) c front
      · cases List.mem_singleton.mp last
        exact isDigit_ofNat (Nat.mod_lt n (by omega))

theorem decimal_ne_nil (n : Nat) : decimal n ≠ [] := by
  unfold decimal
  split <;> simp

/-- The first digit of a positive number is no zero. -/
theorem decimal_head (n : Nat) (positive : 0 < n) : (decimal n).head? ≠ some 48 := by
  induction n using Nat.strongRecOn with
  | _ n ih =>
    unfold decimal
    split
    · next small =>
      have value := digit_toNat small
      simp only [List.head?_cons, ne_eq, Option.some.injEq]
      intro zero
      rw [zero] at value
      change 48 = 48 + n at value
      omega
    · next large =>
      have front := decimal_ne_nil (n / 10)
      rw [List.head?_append_of_ne_nil _ front]
      exact ih (n / 10) (by omega) (by omega)

theorem decimal_length {n k : Nat} (bound : n < 10 ^ (k + 1)) : (decimal n).length ≤ k + 1 := by
  induction k generalizing n with
  | zero =>
    have small : n < 10 := by simpa using bound
    unfold decimal
    simp [small]
  | succ k ih =>
    unfold decimal
    split
    · simp
    · have shorter : n / 10 < 10 ^ (k + 1) := by
        rw [Nat.div_lt_iff_lt_mul (by omega)]
        rw [pow_succ] at bound
        exact bound
      have := ih shorter
      simp only [List.length_append, List.length_singleton]
      omega

theorem valueOf_decimal (n : Nat) : valueOf (decimal n) = n := by
  induction n using Nat.strongRecOn with
  | _ n ih =>
    unfold decimal
    split
    · next small =>
      simp only [valueOf, List.foldl_cons, List.foldl_nil, digit_toNat small]
      omega
    · next large =>
      have front := ih (n / 10) (by omega)
      unfold valueOf at front
      simp only [valueOf, List.foldl_append, front, List.foldl_cons, List.foldl_nil,
        digit_toNat (Nat.mod_lt n (by omega : 0 < 10))]
      omega

theorem decimal_injective : Function.Injective decimal := by
  intro n k same
  rw [← valueOf_decimal n, same, valueOf_decimal]

end Decimal
