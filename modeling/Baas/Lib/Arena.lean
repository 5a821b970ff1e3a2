import Mathlib.Data.List.Basic
import Mathlib.Algebra.GroupWithZero.Nat

/-! Generational arenas: slots are reused, handles are not.
A handle names a slot and the generation it was filled at. Retiring a slot raises
its generation, so the old handle stays invalid whatever the slot holds later. A
slot that reached the last generation is never filled again. -/

structure ArenaSlot (α : Type*) where
  cell : Option α
  generation : Nat

@[ext] structure Handle where
  index : Nat
  generation : Nat
deriving DecidableEq

structure Arena (α : Type*) where
  slots : List (ArenaSlot α)
  free : List Nat
  vacant : ∀ i ∈ free, ∃ slot, slots[i]? = some slot ∧ slot.cell = none
  distinct : free.Nodup

namespace Arena

variable {α : Type*}

def empty : Arena α := ⟨[], [], by simp, List.nodup_nil⟩

def get? (a : Arena α) (h : Handle) : Option α :=
  a.slots[h.index]?.bind (fun slot => if slot.generation = h.generation then slot.cell else none)

def generationAt (a : Arena α) (i : Nat) : Nat := (a.slots[i]?.map ArenaSlot.generation).getD 0

/-- Fills the slot freed last, or a new one at the end. -/
def place (a : Arena α) (cell : α) : Arena α × Handle :=
  match hf : a.free with
  | [] =>
    (⟨a.slots ++ [⟨some cell, 1⟩], [], by simp, List.nodup_nil⟩, ⟨a.slots.length, 1⟩)
  | i :: rest =>
    (⟨a.slots.set i ⟨some cell, a.generationAt i⟩, rest, by
        intro j hj
        have other : i ≠ j := by
          rintro rfl
          exact (List.nodup_cons.mp (hf ▸ a.distinct)).1 hj
        obtain ⟨slot, found, none⟩ := a.vacant j (hf ▸ List.mem_cons_of_mem _ hj)
        exact ⟨slot, by rw [List.getElem?_set_ne other, found], none⟩,
      (List.nodup_cons.mp (hf ▸ a.distinct)).2⟩,
      ⟨i, a.generationAt i⟩)

/-- Replaces the contents of a filled slot. -/
def update (a : Arena α) (i : Nat) (cell : α) : Arena α :=
  match hs : a.slots[i]? with
  | some ⟨some _, generation⟩ =>
    { a with
      slots := a.slots.set i ⟨some cell, generation⟩
      vacant := by
        intro j hj
        obtain ⟨slot, found, none⟩ := a.vacant j hj
        have other : i ≠ j := by
          rintro rfl
          rw [hs] at found
          cases Option.some.inj found
          cases none
        exact ⟨slot, by rw [List.getElem?_set_ne other, found], none⟩ }
  | _ => a

/-- Empties a filled slot; at the last generation the slot is given up. -/
def retire (last : Nat) (a : Arena α) (i : Nat) : Arena α :=
  match hs : a.slots[i]? with
  | some ⟨some _, generation⟩ =>
    if generation = last then
      { a with
        slots := a.slots.set i ⟨none, generation⟩
        vacant := by
          intro j hj
          obtain ⟨slot, found, none⟩ := a.vacant j hj
          have other : i ≠ j := by
            rintro rfl
            rw [hs] at found
            cases Option.some.inj found
            cases none
          exact ⟨slot, by rw [List.getElem?_set_ne other, found], none⟩ }
    else
      { slots := a.slots.set i ⟨none, generation + 1⟩
        free := i :: a.free
        vacant := by
          intro j hj
          by_cases same : i = j
          · subst same
            exact ⟨_, List.getElem?_set_self (List.getElem?_eq_some_iff.mp hs).1, rfl⟩
          · obtain ⟨slot, found, none⟩ :=
              a.vacant j ((List.mem_cons.mp hj).resolve_left (Ne.symm same))
            exact ⟨slot, by rw [List.getElem?_set_ne same, found], none⟩
        distinct := by
          refine List.nodup_cons.mpr ⟨fun listed => ?_, a.distinct⟩
          obtain ⟨slot, found, none⟩ := a.vacant i listed
          rw [hs] at found
          cases Option.some.inj found
          cases none }
  | _ => a

@[simp] theorem get?_empty (h : Handle) : (empty : Arena α).get? h = none := rfl

theorem get?_congr {a b : Arena α} {h : Handle}
    (same : a.slots[h.index]? = b.slots[h.index]?) : a.get? h = b.get? h := by
  simp [get?, same]

theorem get?_place (a : Arena α) (cell : α) (h : Handle) :
    (a.place cell).1.get? h = if h = (a.place cell).2 then some cell else a.get? h := by
  obtain ⟨index, generation⟩ := h
  unfold place
  split
  · by_cases new : index = a.slots.length
    · subst new
      simp [get?, eq_comm]
    · have same : (a.slots ++ [⟨some cell, 1⟩])[index]? = a.slots[index]? := by
        rcases Nat.lt_or_ge index a.slots.length with inside | outside
        · exact List.getElem?_append_left inside
        · rw [List.getElem?_eq_none outside,
            List.getElem?_eq_none (by simp; omega)]
      simp [get?, same, new]
  · rename_i i rest hf
    obtain ⟨slot, found, none⟩ := a.vacant i (hf ▸ List.mem_cons_self)
    by_cases same : i = index
    · subst same
      have here := List.getElem?_set_self (a := ⟨some cell, a.generationAt i⟩)
        (List.getElem?_eq_some_iff.mp found).1
      by_cases current : generation = a.generationAt i
      · simp [get?, here, current]
      · simp [get?, here, found, none, current, Ne.symm current]
    · simp [get?, List.getElem?_set_ne same, Ne.symm same]

/-- A new handle names nothing before it is placed. -/
theorem place_fresh (a : Arena α) (cell : α) : a.get? (a.place cell).2 = none := by
  unfold place
  split
  · simp [get?]
  · rename_i i rest hf
    obtain ⟨slot, found, none⟩ := a.vacant i (hf ▸ List.mem_cons_self)
    simp [get?, found, none]

theorem slot_of_get? {a : Arena α} {h : Handle} {cell : α} (live : a.get? h = some cell) :
    a.slots[h.index]? = some ⟨some cell, h.generation⟩ := by
  unfold get? at live
  obtain ⟨⟨stored, generation⟩, found, kept⟩ := Option.bind_eq_some_iff.mp live
  split at kept
  · rename_i current
    dsimp only at current kept
    rw [found, kept, current]
  · cases kept

theorem get?_update {a : Arena α} {h : Handle} {old : α} (live : a.get? h = some old)
    (cell : α) (k : Handle) :
    (a.update h.index cell).get? k = if k = h then some cell else a.get? k := by
  have slot := slot_of_get? live
  have here := List.getElem?_set_self (a := ⟨some cell, h.generation⟩)
    (List.getElem?_eq_some_iff.mp slot).1
  obtain ⟨index, generation⟩ := k
  unfold update
  split
  · rename_i stored current found
    cases Option.some.inj (slot.symm.trans found)
    by_cases same : h.index = index
    · subst same
      by_cases now : h.generation = generation
      · subst now
        simp [get?, here]
      · simp [get?, here, slot, now, Handle.ext_iff, Ne.symm now]
    · simp [get?, List.getElem?_set_ne same, Handle.ext_iff, Ne.symm same]
  · rename_i missing
    exact absurd slot (missing _ _)

theorem get?_retire (last : Nat) (a : Arena α) (i : Nat) (h : Handle) :
    (a.retire last i).get? h = if h.index = i then none else a.get? h := by
  by_cases same : h.index = i
  · subst same
    rw [if_pos rfl]
    unfold retire
    split
    · rename_i stored generation found
      have inside := (List.getElem?_eq_some_iff.mp found).1
      split <;> simp [get?, inside]
    · rename_i missing
      cases found : a.slots[h.index]? with
      | none => simp [get?, found]
      | some slot =>
        obtain ⟨stored, generation⟩ := slot
        cases stored with
        | none => simp [get?, found]
        | some cell => exact absurd found (missing _ _)
  · rw [if_neg same]
    apply get?_congr
    unfold retire
    split
    · split <;> exact List.getElem?_set_ne (Ne.symm same)
    · rfl

/-! The age of a slot only grows, and a handle is valid at exactly one age. -/

def age (a : Arena α) (i : Nat) : Nat :=
  match a.slots[i]? with
  | none => 0
  | some slot =>
    3 * slot.generation + if slot.cell.isSome then 1 else if i ∈ a.free then 0 else 2

theorem get?_isSome_iff (a : Arena α) (h : Handle) :
    (a.get? h).isSome = true ↔ a.age h.index = 3 * h.generation + 1 := by
  unfold age get?
  cases found : a.slots[h.index]? with
  | none => simp
  | some slot =>
    by_cases current : slot.generation = h.generation
    · cases stored : slot.cell with
      | none => by_cases listed : h.index ∈ a.free <;> simp [current, stored, listed]
      | some cell => simp [current, stored]
    · simp only [Option.bind_some, if_neg current, Option.isSome_none, Bool.false_eq_true,
        false_iff]
      split
      · omega
      · split <;> omega

def Older (a b : Arena α) : Prop := ∀ i, a.age i ≤ b.age i

theorem Older.refl (a : Arena α) : Older a a := fun _ => Nat.le_refl _

theorem Older.trans {a b c : Arena α} (first : Older a b) (second : Older b c) : Older a c :=
  fun i => Nat.le_trans (first i) (second i)

/-- A handle that was valid once and is not now never becomes valid again. -/
theorem Older.retired {a b c : Arena α} (first : Older a b) (second : Older b c) {h : Handle}
    (valid : (a.get? h).isSome = true) (gone : b.get? h = none) : c.get? h = none := by
  have then_ := (a.get?_isSome_iff h).mp valid
  have now : b.age h.index ≠ 3 * h.generation + 1 := by
    intro same
    have := (b.get?_isSome_iff h).mpr same
    rw [gone] at this
    cases this
  cases later : c.get? h with
  | none => rfl
  | some cell =>
    have at_ := (c.get?_isSome_iff h).mp (by rw [later]; rfl)
    have := first h.index
    have := second h.index
    omega

theorem older_place (a : Arena α) (cell : α) : Older a (a.place cell).1 := by
  intro i
  unfold place
  split
  · rename_i hf
    rcases Nat.lt_trichotomy i a.slots.length with inside | rfl | outside
    · simp [age, List.getElem?_append_left inside, hf]
    · simp [age]
    · simp [age, List.getElem?_eq_none (Nat.le_of_lt outside)]
  · rename_i j rest hf
    obtain ⟨slot, found, none⟩ := a.vacant j (hf ▸ List.mem_cons_self)
    by_cases same : j = i
    · subst same
      have here := List.getElem?_set_self (a := ⟨some cell, slot.generation⟩)
        (List.getElem?_eq_some_iff.mp found).1
      simp [age, here, found, none, hf, generationAt]
    · simp [age, List.getElem?_set_ne same, hf, Ne.symm same]

theorem older_update (a : Arena α) (i : Nat) (cell : α) : Older a (a.update i cell) := by
  intro j
  unfold update
  split
  · rename_i stored generation found
    by_cases same : i = j
    · subst same
      have here := List.getElem?_set_self (a := ⟨some cell, generation⟩)
        (List.getElem?_eq_some_iff.mp found).1
      simp [age, here, found]
    · simp [age, List.getElem?_set_ne same]
  · exact Nat.le_refl _

theorem older_retire (last : Nat) (a : Arena α) (i : Nat) : Older a (a.retire last i) := by
  intro j
  unfold retire
  split
  · rename_i stored generation found
    have inside := (List.getElem?_eq_some_iff.mp found).1
    split
    · by_cases same : i = j
      · subst same
        have given : i ∉ a.free := by
          intro listed
          obtain ⟨slot, found', none⟩ := a.vacant i listed
          rw [found] at found'
          cases Option.some.inj found'
          cases none
        simp [age, found, List.getElem?_set_self inside, given]
      · simp [age, List.getElem?_set_ne same]
    · by_cases same : i = j
      · subst same
        simp only [age, found, List.getElem?_set_self inside, Option.isSome_some, if_true,
          Option.isSome_none, Bool.false_eq_true, if_false, List.mem_cons, true_or]
        omega
      · simp [age, List.getElem?_set_ne same, Ne.symm same]
  · exact Nat.le_refl _

/-! The weight of the filled slots. -/

theorem sum_map_set {β : Type*} (weigh : β → Nat) {l : List β} {i : Nat} {old : β} (new : β)
    (there : l[i]? = some old) :
    ((l.set i new).map weigh).sum + weigh old = (l.map weigh).sum + weigh new := by
  induction l generalizing i with
  | nil => cases there
  | cons first rest ih =>
    cases i with
    | zero =>
      cases Option.some.inj there
      simp only [List.set_cons_zero, List.map_cons, List.sum_cons]
      omega
    | succ i =>
      simp only [List.set_cons_succ, List.map_cons, List.sum_cons]
      have rest := @ih i (by simpa using there)
      omega

def slotWeight (weigh : α → Nat) (slot : ArenaSlot α) : Nat := (slot.cell.map weigh).getD 0

def total (weigh : α → Nat) (a : Arena α) : Nat := (a.slots.map (slotWeight weigh)).sum

@[simp] theorem total_empty (weigh : α → Nat) : (empty : Arena α).total weigh = 0 := rfl

theorem total_place (weigh : α → Nat) (a : Arena α) (cell : α) :
    (a.place cell).1.total weigh = a.total weigh + weigh cell := by
  unfold place total
  split
  · simp [slotWeight]
  · rename_i i rest hf
    obtain ⟨slot, found, none⟩ := a.vacant i (hf ▸ List.mem_cons_self)
    have moved := sum_map_set (slotWeight weigh) ⟨some cell, a.generationAt i⟩ found
    simp only [slotWeight, none, Option.map_none, Option.getD_none, Option.map_some,
      Option.getD_some] at moved ⊢
    omega

theorem total_update (weigh : α → Nat) {a : Arena α} {i generation : Nat} {old : α}
    (found : a.slots[i]? = some ⟨some old, generation⟩) (cell : α) :
    (a.update i cell).total weigh + weigh old = a.total weigh + weigh cell := by
  have moved := sum_map_set (slotWeight weigh) ⟨some cell, generation⟩ found
  unfold update total
  split
  · rename_i stored current found'
    cases Option.some.inj (found.symm.trans found')
    exact moved
  · rename_i missing
    exact absurd found (missing _ _)

theorem total_retire (weigh : α → Nat) {a : Arena α} {i generation : Nat} {cell : α}
    (found : a.slots[i]? = some ⟨some cell, generation⟩) (last : Nat) :
    (a.retire last i).total weigh + weigh cell = a.total weigh := by
  have emptied (after : Nat) : ((a.slots.set i ⟨none, after⟩).map (slotWeight weigh)).sum +
      weigh cell = (a.slots.map (slotWeight weigh)).sum :=
    sum_map_set (slotWeight weigh) ⟨none, after⟩ found
  unfold retire total
  split
  · rename_i stored current found'
    cases Option.some.inj (found.symm.trans found')
    split
    · exact emptied _
    · exact emptied _
  · rename_i missing
    exact absurd found (missing _ _)

end Arena
