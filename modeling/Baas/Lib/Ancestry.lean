import Mathlib.Data.List.Basic

/-! Forests given by the parent of every node, in which a parent has a smaller number. -/
namespace Ancestry

/-- `u` is `f` or lies below it. -/
inductive Below (parents : List (Option Nat)) : Nat → Nat → Prop
  | self (f : Nat) : Below parents f f
  | up {u p f : Nat} : parents[u]? = some (some p) → Below parents p f → Below parents u f

def Ordered (parents : List (Option Nat)) : Prop :=
  ∀ u p : Nat, parents[u]? = some (some p) → p < u

variable {parents : List (Option Nat)} {u f o p : Nat}

theorem Below.le (ordered : Ordered parents) (below : Below parents u f) : f ≤ u := by
  induction below with
  | self f => exact Nat.le_refl f
  | up parent _ ih => exact Nat.le_trans ih (Nat.le_of_lt (ordered _ _ parent))

theorem Below.trans (first : Below parents u f) (second : Below parents f o) :
    Below parents u o := by
  induction first with
  | self f => exact second
  | up parent _ ih => exact .up parent (ih second)

theorem Below.antisymm (ordered : Ordered parents) (first : Below parents u f)
    (second : Below parents f u) : u = f :=
  Nat.le_antisymm (second.le ordered) (first.le ordered)

/-- Below something else than itself: the parent is below it too. -/
theorem Below.parent (below : Below parents u f) (other : u ≠ f) :
    ∃ p, parents[u]? = some (some p) ∧ Below parents p f := by
  cases below with
  | self => exact absurd rfl other
  | up parent rest => exact ⟨_, parent, rest⟩

/-- What is below `u` or above it is the same behind its parent. -/
theorem below_parent (ordered : Ordered parents) (parent : parents[u]? = some (some p)) :
    Below parents u f ∧ u ≠ f ↔ Below parents p f := by
  constructor
  · rintro ⟨below, other⟩
    obtain ⟨q, same, rest⟩ := below.parent other
    rw [parent] at same
    cases same
    exact rest
  · intro below
    refine ⟨.up parent below, ?_⟩
    rintro rfl
    exact absurd (below.le ordered) (Nat.not_le.mpr (ordered _ _ parent))

/-- New nodes change nothing for the old ones. -/
theorem below_append (ordered : Ordered parents) (known : u < parents.length)
    (more : List (Option Nat)) : Below (parents ++ more) u f ↔ Below parents u f := by
  constructor
  · intro below
    induction below with
    | self f => exact .self f
    | up parent _ ih =>
      rw [List.getElem?_append_left known] at parent
      exact .up parent (ih (Nat.lt_trans (ordered _ _ parent) known))
  · intro below
    induction below with
    | self f => exact .self f
    | up parent _ ih =>
      refine .up ?_ (ih (Nat.lt_trans (ordered _ _ parent) known))
      rwa [List.getElem?_append_left known]

theorem ordered_append (ordered : Ordered parents) {parent : Option Nat}
    (earlier : ∀ p, parent = some p → p < parents.length) : Ordered (parents ++ [parent]) := by
  intro u p found
  obtain old | new := Nat.lt_or_ge u parents.length
  · rw [List.getElem?_append_left old] at found
    exact ordered u p found
  · rw [List.getElem?_append_right new] at found
    obtain ⟨last, same⟩ := List.getElem?_eq_some_iff.mp found
    simp only [List.length_singleton] at last
    simp only [List.getElem_singleton] at same
    exact Nat.lt_of_lt_of_le (earlier p same) new

end Ancestry
