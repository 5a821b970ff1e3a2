import Mathlib.Data.List.Basic

/-! Elements that expand, with all that they expand to, without end. -/
namespace Expansion

variable {α : Type*}

/-- What a set holds that is closed under an expansion which may fail. -/
def Safe (expand : α → Option (List α)) (a : α) : Prop :=
  ∃ closed : α → Prop, closed a ∧
    ∀ b, closed b → ∃ next, expand b = some next ∧ ∀ c ∈ next, closed c

variable {expand : α → Option (List α)}

theorem Safe.expands {a : α} (safe : Safe expand a) :
    ∃ next, expand a = some next ∧ ∀ c ∈ next, Safe expand c := by
  obtain ⟨closed, here, steps⟩ := safe
  obtain ⟨next, shape, inside⟩ := steps a here
  exact ⟨next, shape, fun c i => ⟨closed, inside c i, steps⟩⟩

theorem Safe.of_next {a : α} {next : List α} (shape : expand a = some next)
    (safe : ∀ c ∈ next, Safe expand c) : Safe expand a := by
  refine ⟨fun b => b = a ∨ Safe expand b, .inl rfl, ?_⟩
  rintro b (rfl | later)
  · exact ⟨next, shape, fun c i => .inr (safe c i)⟩
  · obtain ⟨others, shape', inside⟩ := later.expands
    exact ⟨others, shape', fun c i => .inr (inside c i)⟩

theorem safe_iff {a : α} {next : List α} (shape : expand a = some next) :
    Safe expand a ↔ ∀ c ∈ next, Safe expand c := by
  refine ⟨fun safe => ?_, Safe.of_next shape⟩
  obtain ⟨others, shape', inside⟩ := safe.expands
  rw [shape] at shape'
  rwa [Option.some_inj.mp shape']

theorem not_safe {a : α} (fails : expand a = none) : ¬ Safe expand a := by
  intro safe
  obtain ⟨next, shape, -⟩ := safe.expands
  rw [fails] at shape
  exact absurd shape nofun

/-- What a search knows of the elements it has expanded: their expansions are expanded, still
to do, or safe. -/
def Searched (expand : α → Option (List α)) (visited work : α → Prop) : Prop :=
  ∀ a, visited a → ∃ next, expand a = some next ∧
    ∀ c ∈ next, visited c ∨ work c ∨ Safe expand c

/-- When what is still to do is safe, all that was expanded is. -/
theorem Searched.safe {visited work : α → Prop} (searched : Searched expand visited work)
    (rest : ∀ a, work a → Safe expand a) {a : α} (here : visited a) : Safe expand a := by
  refine ⟨fun b => visited b ∨ Safe expand b, .inl here, ?_⟩
  rintro b (old | safe)
  · obtain ⟨next, shape, inside⟩ := searched b old
    refine ⟨next, shape, fun c i => ?_⟩
    obtain seen | waiting | fine := inside c i
    · exact .inl seen
    · exact .inr (rest c waiting)
    · exact .inr fine
  · obtain ⟨next, shape, inside⟩ := safe.expands
    exact ⟨next, shape, fun c i => .inr (inside c i)⟩

end Expansion
