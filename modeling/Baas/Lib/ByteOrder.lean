import Mathlib.Data.List.Lex
import Mathlib.Order.Defs.LinearOrder

/-! Bytes ordered as unsigned numbers, so that byte strings compare lexicographically
the way `std::string` compares. -/

instance byteOrder : LinearOrder UInt8 where
  le_refl a := UInt8.le_refl a
  le_trans _ _ _ := UInt8.le_trans
  lt_iff_le_not_ge a b := by
    simp only [UInt8.lt_iff_toNat_lt, UInt8.le_iff_toNat_le]
    omega
  le_antisymm _ _ := UInt8.le_antisymm
  le_total a b := UInt8.le_total a b
  toDecidableLE := inferInstance
  toDecidableEq := inferInstance
  toDecidableLT := inferInstance
  min_def _ _ := rfl
  max_def _ _ := rfl
  compare_eq_compareOfLessAndEq a b := by
    unfold compareOfLessAndEq
    rfl

instance byteLawful : LawfulBEq UInt8 := inferInstance

instance byteStringsLawful : LawfulBEq (List UInt8) := inferInstance
