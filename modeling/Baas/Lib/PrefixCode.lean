import Mathlib.Data.List.Basic

/-! Codes whose end is seen from their beginning. A code is faithful to a view of its values when
it tells two values apart exactly when the view does. -/
namespace PrefixCode

variable {α β γ δ ε : Type} {P Q : α → Prop} {code other : α → List β} {view : α → γ}
  {view' : α → δ}

/-- Over the values of `P`, a text that begins with a code yields the view and the rest. -/
def Faithful (P : α → Prop) (code : α → List β) (view : α → γ) : Prop :=
  ∀ a b rest rest', P a → P b →
    (code a ++ rest = code b ++ rest' ↔ view a = view b ∧ rest = rest')

theorem Faithful.code_iff (faithful : Faithful P code view) {a b : α} (pa : P a) (pb : P b) :
    code a = code b ↔ view a = view b := by
  have whole := faithful a b [] [] pa pb
  rwa [List.append_nil, List.append_nil, and_iff_left rfl] at whole

theorem Faithful.mono (faithful : Faithful P code view) (weaker : ∀ a, Q a → P a) :
    Faithful Q code view :=
  fun a b rest rest' qa qb => faithful a b rest rest' (weaker a qa) (weaker b qb)

theorem Faithful.comap (faithful : Faithful P code view) (f : ε → α) :
    Faithful (fun e => P (f e)) (fun e => code (f e)) (fun e => view (f e)) :=
  fun a b rest rest' => faithful (f a) (f b) rest rest'

theorem Faithful.review (faithful : Faithful P code view)
    (same : ∀ a b, P a → P b → (view a = view b ↔ view' a = view' b)) :
    Faithful P code view' := by
  intro a b rest rest' pa pb
  rw [faithful a b rest rest' pa pb, same a b pa pb]

/-- A code of a fixed length. -/
theorem faithful_fixed (n : Nat) (length : ∀ a, P a → (code a).length = n)
    (same : ∀ a b, P a → P b → (code a = code b ↔ view a = view b)) : Faithful P code view := by
  intro a b rest rest' pa pb
  rw [← same a b pa pb]
  constructor
  · exact fun whole => List.append_inj whole (by rw [length a pa, length b pb])
  · rintro ⟨equal, rfl⟩
    rw [equal]

theorem Faithful.append (first : Faithful P code view) (second : Faithful P other view') :
    Faithful P (fun a => code a ++ other a) (fun a => (view a, view' a)) := by
  intro a b rest rest' pa pb
  rw [List.append_assoc, List.append_assoc, first a b _ _ pa pb, second a b rest rest' pa pb,
    Prod.mk.injEq, and_assoc]

/-- A text that does not depend on the value. -/
theorem Faithful.after (faithful : Faithful P code view) (start : List β) :
    Faithful P (fun a => start ++ code a) view := by
  intro a b rest rest' pa pb
  rw [List.append_assoc, List.append_assoc, List.append_cancel_left_eq,
    faithful a b rest rest' pa pb]

theorem faithful_nil : Faithful P (fun _ => ([] : List β)) (fun _ => ()) := by
  intro a b rest rest' _ _
  exact ⟨fun same => ⟨rfl, same⟩, fun both => both.2⟩

/-- A code that is there for some values only, behind one that tells for which. Of the others the
view tells nothing more. -/
theorem Faithful.guarded {tag : α → List β} {present : α → Bool} (told : Faithful P tag present)
    (yes : Faithful (fun a => P a ∧ present a) code view)
    (no : ∀ a b, P a → P b → present a = false → present b = false → view a = view b) :
    Faithful P (fun a => tag a ++ if present a then code a else [])
      (fun a => (present a, view a)) := by
  intro a b rest rest' pa pb
  rw [List.append_assoc, List.append_assoc, told a b _ _ pa pb, Prod.mk.injEq, and_assoc]
  refine and_congr_right fun same => ?_
  cases there : present b with
  | true => simpa [same, there] using yes a b rest rest' ⟨pa, same.trans there⟩ ⟨pb, there⟩
  | false => simp [same, there, no a b pa pb (same.trans there) there]

/-- Codes one behind the other, after their number. -/
theorem Faithful.list {count : Nat → List β} {bound : Nat}
    (counted : Faithful (fun n => n < bound) count id) (item : Faithful P code view) :
    Faithful (fun items : List α => items.length < bound ∧ ∀ a ∈ items, P a)
      (fun items => count items.length ++ items.flatMap code) (List.map view) := by
  have items : ∀ (as bs : List α) (rest rest' : List β), as.length = bs.length →
      (∀ a ∈ as, P a) → (∀ b ∈ bs, P b) →
      (as.flatMap code ++ rest = bs.flatMap code ++ rest' ↔
        as.map view = bs.map view ∧ rest = rest') := by
    intro as
    induction as with
    | nil =>
      intro bs rest rest' length _ _
      obtain rfl := List.length_eq_zero_iff.mp length.symm
      exact ⟨fun same => ⟨rfl, same⟩, fun both => both.2⟩
    | cons a as ih =>
      intro bs rest rest' length each each'
      obtain ⟨b, bs, rfl⟩ := List.exists_cons_of_length_eq_add_one length.symm
      rw [List.flatMap_cons, List.flatMap_cons, List.append_assoc, List.append_assoc,
        item a b _ _ (each a List.mem_cons_self) (each' b List.mem_cons_self),
        ih bs rest rest' (Nat.succ.inj length) (fun c mem => each c (List.mem_cons_of_mem _ mem))
          (fun c mem => each' c (List.mem_cons_of_mem _ mem)),
        List.map_cons, List.map_cons, List.cons.injEq, and_assoc]
  rintro as bs rest rest' ⟨small, each⟩ ⟨small', each'⟩
  rw [List.append_assoc, List.append_assoc, counted _ _ _ _ small small']
  constructor
  · rintro ⟨length, same⟩
    exact (items as bs rest rest' length each each').mp same
  · rintro ⟨views, rfl⟩
    have length : as.length = bs.length := by simpa using congrArg List.length views
    exact ⟨length, (items as bs rest rest length each each').mpr ⟨views, rfl⟩⟩

end PrefixCode
