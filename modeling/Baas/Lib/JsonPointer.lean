import Baas.Lib.Decimal
import Mathlib.Data.List.Forall2

/-! The grammar of JSON pointers: a sequence of reference tokens, each behind a slash, in
which `~0` stands for a tilde and `~1` for a slash. -/
namespace JsonPointer

/-- How a reference token is written, and the name it stands for. -/
inductive TokenText : List UInt8 → List UInt8 → Prop
  | nil : TokenText [] []
  | plain {c : UInt8} {spelled name : List UInt8} : c ≠ 47 → c ≠ 126 →
      TokenText spelled name → TokenText (c :: spelled) (c :: name)
  | tilde {spelled name : List UInt8} :
      TokenText spelled name → TokenText (126 :: 48 :: spelled) (126 :: name)
  | slash {spelled name : List UInt8} :
      TokenText spelled name → TokenText (126 :: 49 :: spelled) (47 :: name)

inductive Pointer : List UInt8 → List (List UInt8) → Prop
  | whole : Pointer [] []
  | step {spelled name rest : List UInt8} {names : List (List UInt8)} :
      TokenText spelled name → Pointer rest names →
      Pointer (47 :: (spelled ++ rest)) (name :: names)

/-- An array index of the grammar is the decimal numeral, with no leading zero. -/
def Index (text : List UInt8) (n : Nat) : Prop := text = Decimal.decimal n

variable {spelled name rest path : List UInt8} {names : List (List UInt8)}

theorem TokenText.no_slash (token : TokenText spelled name) : (47 : UInt8) ∉ spelled := by
  induction token with
  | nil => exact List.not_mem_nil
  | plain other _ _ ih =>
    intro there
    obtain same | later := List.mem_cons.mp there
    · exact other same.symm
    · exact ih later
  | tilde _ ih =>
    simp only [List.mem_cons, not_or]
    exact ⟨by decide, by decide, ih⟩
  | slash _ ih =>
    simp only [List.mem_cons, not_or]
    exact ⟨by decide, by decide, ih⟩

theorem Pointer.head (pointer : Pointer path names) : path = [] ∨ ∃ rest, path = 47 :: rest := by
  cases pointer with
  | whole => exact .inl rfl
  | step token later => exact .inr ⟨_, rfl⟩

theorem pointer_of_tokens {parts : List (List UInt8)}
    (tokens : List.Forall₂ TokenText parts names) (inner : parts ≠ []) :
    Pointer (47 :: [(47 : UInt8)].intercalate parts) names := by
  induction tokens with
  | nil => exact absurd rfl inner
  | @cons spelled name parts names token tokens ih =>
    cases tokens with
    | nil =>
      have single := Pointer.step token .whole
      rw [List.append_nil] at single
      rwa [List.intercalate_singleton]
    | cons second tokens =>
      rw [List.intercalate_cons_of_ne_nil (List.cons_ne_nil _ _), List.append_assoc]
      exact .step token (ih (List.cons_ne_nil _ _))

/-- The tokens of a pointer are what lies between its slashes. -/
theorem pointer_iff : Pointer (47 :: rest) names ↔
    List.Forall₂ TokenText (rest.splitOn 47) names := by
  constructor
  · intro pointer
    generalize whole : (47 : UInt8) :: rest = path at pointer
    induction pointer generalizing rest with
    | whole => cases whole
    | @step spelled name later names token pointer ih =>
      cases whole
      obtain rfl | ⟨after, rfl⟩ := pointer.head
      · rw [List.append_nil, List.splitOn_eq_singleton token.no_slash]
        cases pointer
        exact .cons token .nil
      · rw [List.splitOn_append_cons_self_of_not_mem token.no_slash]
        exact .cons token (ih rfl)
  · intro tokens
    have pointer := pointer_of_tokens tokens (List.splitOn_ne_nil 47 rest)
    rwa [List.intercalate_splitOn] at pointer

end JsonPointer
