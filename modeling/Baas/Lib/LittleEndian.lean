import Mathlib.Data.List.Basic
import Mathlib.Tactic.Ring

/-! Numbers of a fixed number of bytes, the least significant byte first, as fields of a byte
string. -/
namespace LittleEndian

def bytes : Nat → Nat → List UInt8
  | 0, _ => []
  | n + 1, x => UInt8.ofNat x :: bytes n (x / 256)

def value : List UInt8 → Nat
  | [] => 0
  | b :: rest => b.toNat + 256 * value rest

/-- The number in the `n` bytes at `offset`. -/
def field (text : List UInt8) (offset n : Nat) : Nat := value ((text.drop offset).take n)

variable {text rest : List UInt8} {offset n x : Nat}

@[simp] theorem bytes_length (n x : Nat) : (bytes n x).length = n := by
  induction n generalizing x with
  | zero => rfl
  | succ n ih => rw [bytes, List.length_cons, ih]

theorem value_bytes (small : x < 256 ^ n) : value (bytes n x) = x := by
  induction n generalizing x with
  | zero =>
    obtain rfl : x = 0 := by simpa using small
    rfl
  | succ n ih =>
    rw [pow_succ'] at small
    rw [bytes, value, ih (Nat.div_lt_of_lt_mul small), UInt8.toNat_ofNat']
    omega

theorem bytes_value (text : List UInt8) : bytes text.length (value text) = text := by
  induction text with
  | nil => rfl
  | cons b rest ih =>
    have small := b.toNat_lt
    have high : (b.toNat + 256 * value rest) / 256 = value rest := by omega
    have low : UInt8.ofNat (b.toNat + 256 * value rest) = b := by
      apply UInt8.toNat_inj.mp
      rw [UInt8.toNat_ofNat']
      omega
    rw [List.length_cons, bytes, value, high, low, ih]

theorem value_lt (text : List UInt8) : value text < 256 ^ text.length := by
  induction text with
  | nil => decide
  | cons b rest ih =>
    have small := b.toNat_lt
    rw [value, List.length_cons, pow_succ']
    omega

theorem bytes_injective {y : Nat} (small : x < 256 ^ n) (small' : y < 256 ^ n)
    (same : bytes n x = bytes n y) : x = y := by
  rw [← value_bytes small, same, value_bytes small']

/-- A byte string is its field at `offset` and what follows it. -/
theorem drop_field (inside : offset + n ≤ text.length) :
    text.drop offset = bytes n (field text offset n) ++ text.drop (offset + n) := by
  have size : ((text.drop offset).take n).length = n := by
    rw [List.length_take, List.length_drop]
    omega
  have whole := bytes_value ((text.drop offset).take n)
  rw [size] at whole
  rw [field, whole, ← List.drop_drop, List.take_append_drop]

theorem field_lt (inside : offset + n ≤ text.length) : field text offset n < 256 ^ n := by
  have below := value_lt ((text.drop offset).take n)
  rwa [List.length_take, List.length_drop, Nat.min_eq_left (by omega)] at below

end LittleEndian
