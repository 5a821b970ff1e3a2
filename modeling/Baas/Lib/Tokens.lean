import Mathlib.Data.List.Basic

/-! Tokens that lie in the entries of a list, and where they are after one entry is replaced. -/
namespace Tokens

variable {α τ : Type} [DecidableEq τ] (place : α → List τ) {l : List α}

theorem count_set {i : Nat} {old : α} (there : l[i]? = some old) (new : α) (t : τ) :
    ((l.set i new).flatMap place).count t + (place old).count t =
      (l.flatMap place).count t + (place new).count t := by
  induction l generalizing i with
  | nil => cases there
  | cons first rest ih =>
    cases i with
    | zero =>
      cases there
      rw [List.set_cons_zero, List.flatMap_cons, List.flatMap_cons, List.count_append,
        List.count_append]
      omega
    | succ i =>
      have later := ih there
      rw [List.set_cons_succ, List.flatMap_cons, List.flatMap_cons, List.count_append,
        List.count_append]
      omega

theorem count_concat (l : List α) (a : α) (t : τ) :
    ((l ++ [a]).flatMap place).count t = (l.flatMap place).count t + (place a).count t := by
  rw [List.flatMap_append, List.count_append, List.flatMap_singleton]

theorem count_le {a : α} (there : a ∈ l) (t : τ) :
    (place a).count t ≤ (l.flatMap place).count t := by
  induction l with
  | nil => cases there
  | cons first rest ih =>
    rw [List.flatMap_cons, List.count_append]
    obtain rfl | later := List.mem_cons.mp there
    · exact Nat.le_add_right _ _
    · exact Nat.le_trans (ih later) (Nat.le_add_left _ _)

end Tokens
