import Mathlib.Data.List.Basic

/-! What the JSON parsers have in common below the level of values. -/
namespace JsonText

def ascii (text : String) : List UInt8 := text.toUTF8.toList

theorem toList_loop (bytes : ByteArray) (i : Nat) (seen : List UInt8) :
    ByteArray.toList.loop bytes i seen = seen.reverse ++ bytes.data.toList.drop i := by
  induction rest : bytes.size - i generalizing i seen with
  | zero =>
    have past : ¬ i < bytes.size := by omega
    have none : bytes.data.toList.length ≤ i := by
      rw [Array.length_toList]
      exact Nat.not_lt.mp past
    rw [ByteArray.toList.loop, if_neg past, List.drop_of_length_le none, List.append_nil]
  | succ n ih =>
    have inside : i < bytes.size := by omega
    have here : i < bytes.data.toList.length := by rwa [Array.length_toList]
    have byte : bytes.get! i = bytes.data.toList[i] := getElem!_pos bytes.data i inside
    rw [ByteArray.toList.loop, if_pos inside, ih (i + 1) _ (by omega), List.reverse_cons,
      List.append_assoc, ← List.getElem_cons_drop here, byte]
    rfl

/-- In this form the bytes of a literal evaluate. -/
theorem ascii_eq (text : String) : ascii text = text.toUTF8.data.toList := toList_loop _ 0 []

def isWhitespace (c : UInt8) : Bool := c = 32 || c = 9 || c = 13 || c = 10

def skipWhitespace (input : List UInt8) : List UInt8 := input.dropWhile isWhitespace

theorem skipWhitespace_cons {c : UInt8} {tail : List UInt8} (dark : isWhitespace c = false) :
    skipWhitespace (c :: tail) = c :: tail := by
  simp [skipWhitespace, dark]

def hexDigit (c : UInt8) : Option Nat :=
  if 48 ≤ c ∧ c ≤ 57 then some (c.toNat - 48)
  else if 97 ≤ c ∧ c ≤ 102 then some (c.toNat - 87)
  else if 65 ≤ c ∧ c ≤ 70 then some (c.toNat - 55)
  else none

/-- The bytes of a code point. -/
def utf8Bytes (codePoint : Nat) : List UInt8 :=
  if codePoint ≤ 0x7F then [UInt8.ofNat codePoint]
  else if codePoint ≤ 0x7FF then
    [UInt8.ofNat (0xC0 ||| codePoint >>> 6), UInt8.ofNat (0x80 ||| codePoint &&& 0x3F)]
  else if codePoint ≤ 0xFFFF then
    [UInt8.ofNat (0xE0 ||| codePoint >>> 12), UInt8.ofNat (0x80 ||| codePoint >>> 6 &&& 0x3F),
      UInt8.ofNat (0x80 ||| codePoint &&& 0x3F)]
  else
    [UInt8.ofNat (0xF0 ||| codePoint >>> 18), UInt8.ofNat (0x80 ||| codePoint >>> 12 &&& 0x3F),
      UInt8.ofNat (0x80 ||| codePoint >>> 6 &&& 0x3F), UInt8.ofNat (0x80 ||| codePoint &&& 0x3F)]

/-- What holds of the numbers below 256 holds of every byte. -/
theorem byte_forall {p : UInt8 → Bool}
    (all : (List.range 256).all (fun n => p (UInt8.ofNat n)) = true) (c : UInt8) : p c = true := by
  have here := List.all_eq_true.mp all c.toNat (List.mem_range.mpr c.toNat_lt)
  simpa only [UInt8.ofNat_toNat] using here

end JsonText
