import Mathlib.Data.List.Basic

/-! Names joined by a separator, and which joined texts begin another. -/
namespace PathText

variable {α : Type*} [DecidableEq α] {sep : α} {first second : List (List α)} {rest : List α}

theorem split_prepend (some : first ≠ []) (free : ∀ name ∈ first, sep ∉ name) :
    ([sep].intercalate first ++ sep :: rest).splitOn sep = first ++ rest.splitOn sep := by
  rw [List.splitOn_append_cons_self, List.splitOn_intercalate sep free some]

theorem name_free {text name : List α} (member : name ∈ text.splitOn sep) : sep ∉ name := by
  induction text generalizing name with
  | nil =>
    rw [List.splitOn_nil, List.mem_singleton] at member
    rw [member]
    exact List.not_mem_nil
  | cons c rest ih =>
    rw [List.splitOn_cons_eq_if_modifyHead] at member
    split at member
    · rcases List.mem_cons.mp member with rfl | member
      · exact List.not_mem_nil
      · exact ih member
    · next other =>
      cases names : rest.splitOn sep with
      | nil => exact absurd names (List.splitOn_ne_nil sep rest)
      | cons head more =>
        rw [names] at member ih
        rcases List.mem_cons.mp member with rfl | member
        · have plain : sep ∉ head := ih List.mem_cons_self
          exact fun there => (List.mem_cons.mp there).elim (fun same => other (by simp [same])) plain
        · exact ih (List.mem_cons_of_mem head member)

omit [DecidableEq α] in
theorem join_append (some : first ≠ []) (some' : second ≠ []) :
    [sep].intercalate (first ++ second) =
      [sep].intercalate first ++ sep :: [sep].intercalate second := by
  induction first with
  | nil => exact absurd rfl some
  | cons name names ih =>
    cases names with
    | nil => simp [List.intercalate_cons_of_ne_nil some']
    | cons next names =>
      rw [List.cons_append, List.intercalate_cons_of_ne_nil (by simp), List.intercalate_cons_cons,
        ih (List.cons_ne_nil next names)]
      simp

omit [DecidableEq α] in
theorem mem_join {c : α} (member : c ∈ [sep].intercalate first) :
    c = sep ∨ ∃ name ∈ first, c ∈ name := by
  induction first with
  | nil => cases member
  | cons name names ih =>
    cases names with
    | nil =>
      rw [List.intercalate_singleton] at member
      exact .inr ⟨name, List.mem_cons_self, member⟩
    | cons next names =>
      simp only [List.intercalate_cons_cons, List.mem_append, List.mem_singleton] at member
      rcases member with (inside | same) | later
      · exact .inr ⟨name, List.mem_cons_self, inside⟩
      · exact .inl same
      · rcases ih later with same | ⟨other, there, inside⟩
        · exact .inl same
        · exact .inr ⟨other, List.mem_cons_of_mem name there, inside⟩

omit [DecidableEq α] in
theorem map_join {β : Type*} (f : α → β) :
    ([sep].intercalate first).map f = [f sep].intercalate (first.map (·.map f)) := by
  induction first with
  | nil => rfl
  | cons name names ih =>
    cases names with
    | nil => simp
    | cons next names =>
      simp only [List.map_cons] at ih
      simp only [List.intercalate_cons_cons, List.map_append, ih, List.map_cons, List.map_nil]

/-- A function that finds the separator where it is commutes with taking apart. -/
theorem split_map {f : α → α} (same : ∀ c, f c = sep ↔ c = sep) (text : List α) :
    (text.map f).splitOn sep = (text.splitOn sep).map (·.map f) := by
  have whole : [sep].intercalate (text.splitOn sep) = text := List.intercalate_splitOn sep
  have own : f sep = sep := (same sep).mpr rfl
  conv_lhs => rw [← whole, map_join, own]
  refine List.splitOn_intercalate sep (fun name member there => ?_) ?_
  · obtain ⟨name, inside, rfl⟩ := List.mem_map.mp member
    obtain ⟨c, there, found⟩ := List.mem_map.mp there
    rw [same] at found
    exact name_free inside (found ▸ there)
  · rw [Ne, List.map_eq_nil_iff]
    exact List.splitOn_ne_nil sep text

theorem split_inj {text other : List α} : text.splitOn sep = other.splitOn sep ↔ text = other := by
  constructor
  · intro same
    have whole : [sep].intercalate (text.splitOn sep) = text := List.intercalate_splitOn sep
    rw [← whole, same, List.intercalate_splitOn]
  · exact fun same => by rw [same]

/-- A joined text stands before a separator of another when its names begin the other's. -/
theorem join_prefix_iff (some : first ≠ []) (free : ∀ name ∈ first, sep ∉ name)
    (some' : second ≠ []) (free' : ∀ name ∈ second, sep ∉ name) :
    [sep].intercalate first ++ [sep] <+: [sep].intercalate second ↔
      first <+: second ∧ first ≠ second := by
  constructor
  · rintro ⟨rest, whole⟩
    have names : second = first ++ rest.splitOn sep := by
      rw [← split_prepend some free, ← List.splitOn_intercalate sep free' some', ← whole,
        List.append_assoc, List.singleton_append]
    refine ⟨⟨_, names.symm⟩, fun same => List.splitOn_ne_nil sep rest ?_⟩
    rw [← same] at names
    exact List.self_eq_append_right.mp names
  · rintro ⟨⟨rest, rfl⟩, other⟩
    have some'' : rest ≠ [] := by
      rintro rfl
      exact other (List.append_nil first).symm
    exact ⟨[sep].intercalate rest, by
      rw [join_append some some'', List.append_assoc, List.singleton_append]⟩

/-- What stands before a separator are the first names, but not all. -/
theorem before_iff {text other : List α} : text ++ [sep] <+: other ↔
    text.splitOn sep <+: other.splitOn sep ∧ text.splitOn sep ≠ other.splitOn sep := by
  have first := @join_prefix_iff α _ sep (text.splitOn sep) (other.splitOn sep)
    (List.splitOn_ne_nil sep text) (fun _ => name_free) (List.splitOn_ne_nil sep other)
    (fun _ => name_free)
  rwa [List.intercalate_splitOn, List.intercalate_splitOn] at first

end PathText
