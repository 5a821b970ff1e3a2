import Mathlib.Order.Defs.LinearOrder
import Mathlib.Data.Nat.Basic
import Mathlib.Data.List.Sort

/-! Finite maps kept as key-ordered association lists.
The order is a field, so an iteration is always in ascending key order and a key
occurs at most once. -/

structure OrderedMap (κ ν : Type*) [LinearOrder κ] where
  toList : List (κ × ν)
  sorted : toList.Pairwise (fun a b => a.1 < b.1)

namespace OrderedMap

variable {κ ν : Type*} [LinearOrder κ]

def empty : OrderedMap κ ν := ⟨[], .nil⟩

def size (m : OrderedMap κ ν) : Nat := m.toList.length

def lookup (k : κ) : List (κ × ν) → Option ν
  | [] => none
  | p :: rest => if p.1 = k then some p.2 else lookup k rest

def find? (m : OrderedMap κ ν) (k : κ) : Option ν := lookup k m.toList

def contains (m : OrderedMap κ ν) (k : κ) : Bool := (m.find? k).isSome

def place (k : κ) (v : ν) : List (κ × ν) → List (κ × ν)
  | [] => [(k, v)]
  | p :: rest =>
    if k < p.1 then (k, v) :: p :: rest
    else if p.1 = k then (k, v) :: rest
    else p :: place k v rest

theorem mem_place {k : κ} {v : ν} {l : List (κ × ν)} {q : κ × ν} (h : q ∈ place k v l) :
    q = (k, v) ∨ q ∈ l := by
  induction l with
  | nil => exact .inl (List.mem_singleton.mp h)
  | cons p rest ih =>
    unfold place at h
    split at h
    · exact List.mem_cons.mp h
    · split at h
      · rcases List.mem_cons.mp h with h | h
        · exact .inl h
        · exact .inr (List.mem_cons_of_mem _ h)
      · rcases List.mem_cons.mp h with h | h
        · exact .inr (h ▸ List.mem_cons_self)
        · exact (ih h).imp_right (List.mem_cons_of_mem _)

theorem place_sorted (k : κ) (v : ν) {l : List (κ × ν)}
    (h : l.Pairwise (fun a b => a.1 < b.1)) : (place k v l).Pairwise (fun a b => a.1 < b.1) := by
  induction l with
  | nil => exact List.pairwise_singleton _ _
  | cons p rest ih =>
    have hp := List.pairwise_cons.mp h
    unfold place
    split
    · rename_i below
      refine List.pairwise_cons.mpr ⟨fun q hq => ?_, h⟩
      rcases List.mem_cons.mp hq with rfl | hq
      · exact below
      · exact lt_trans below (hp.1 q hq)
    · split
      · rename_i _ same
        exact List.pairwise_cons.mpr ⟨fun q hq => same ▸ hp.1 q hq, hp.2⟩
      · rename_i above other
        refine List.pairwise_cons.mpr ⟨fun q hq => ?_, ih hp.2⟩
        rcases mem_place hq with rfl | hq
        · exact lt_of_le_of_ne (not_lt.mp above) other
        · exact hp.1 q hq

/-- Adds the key, or replaces the value it has. -/
def insert (m : OrderedMap κ ν) (k : κ) (v : ν) : OrderedMap κ ν :=
  ⟨place k v m.toList, place_sorted k v m.sorted⟩

def erase (m : OrderedMap κ ν) (k : κ) : OrderedMap κ ν :=
  ⟨m.toList.filter (fun p => p.1 ≠ k), m.sorted.filter _⟩

@[simp] theorem find?_empty (k : κ) : (empty : OrderedMap κ ν).find? k = none := rfl

@[simp] theorem size_empty : (empty : OrderedMap κ ν).size = 0 := rfl

@[simp] theorem toList_empty : (empty : OrderedMap κ ν).toList = [] := rfl

theorem lookup_place (k k' : κ) (v : ν) (l : List (κ × ν)) :
    lookup k' (place k v l) = if k = k' then some v else lookup k' l := by
  induction l with
  | nil => rfl
  | cons p rest ih =>
    unfold place
    split
    · rfl
    · split
      · rename_i _ same
        by_cases hk : k = k'
        · simp only [lookup, hk, if_true]
        · have hp : p.1 ≠ k' := fun h => hk (same ▸ h)
          simp only [lookup, if_neg hk, if_neg hp]
      · rename_i _ other
        simp only [lookup, ih]
        by_cases hp : p.1 = k'
        · have hk : k ≠ k' := fun h => other (hp.trans h.symm)
          simp only [if_pos hp, if_neg hk]
        · simp only [if_neg hp]

theorem find?_insert (m : OrderedMap κ ν) (k k' : κ) (v : ν) :
    (m.insert k v).find? k' = if k = k' then some v else m.find? k' :=
  lookup_place k k' v m.toList

@[simp] theorem find?_insert_self (m : OrderedMap κ ν) (k : κ) (v : ν) :
    (m.insert k v).find? k = some v := by
  rw [find?_insert, if_pos rfl]

theorem find?_insert_ne (m : OrderedMap κ ν) {k k' : κ} (v : ν) (h : k ≠ k') :
    (m.insert k v).find? k' = m.find? k' := by
  rw [find?_insert, if_neg h]

theorem lookup_filter (k k' : κ) (l : List (κ × ν)) :
    lookup k' (l.filter (fun p => p.1 ≠ k)) = if k = k' then none else lookup k' l := by
  induction l with
  | nil => simp [lookup]
  | cons p rest ih =>
    by_cases hp : p.1 = k
    · have dropped : (p :: rest).filter (fun p => p.1 ≠ k) = rest.filter (fun p => p.1 ≠ k) := by
        simp [hp]
      rw [dropped, ih]
      by_cases hk : k = k'
      · simp only [if_pos hk]
      · have hp' : p.1 ≠ k' := fun h => hk (hp ▸ h)
        simp only [if_neg hk, lookup, if_neg hp']
    · have kept : (p :: rest).filter (fun p => p.1 ≠ k) = p :: rest.filter (fun p => p.1 ≠ k) := by
        simp [hp]
      rw [kept, lookup, ih, lookup]
      by_cases hp' : p.1 = k'
      · have hk : k ≠ k' := fun h => hp (hp'.trans h.symm)
        simp only [if_pos hp', if_neg hk]
      · simp only [if_neg hp']

theorem find?_erase (m : OrderedMap κ ν) (k k' : κ) :
    (m.erase k).find? k' = if k = k' then none else m.find? k' :=
  lookup_filter k k' m.toList

@[simp] theorem find?_erase_self (m : OrderedMap κ ν) (k : κ) : (m.erase k).find? k = none := by
  rw [find?_erase, if_pos rfl]

theorem find?_erase_ne (m : OrderedMap κ ν) {k k' : κ} (h : k ≠ k') :
    (m.erase k).find? k' = m.find? k' := by
  rw [find?_erase, if_neg h]

theorem size_erase_le (m : OrderedMap κ ν) (k : κ) : (m.erase k).size ≤ m.size :=
  List.length_filter_le _ _

theorem lookup_of_forall_ne {k : κ} {l : List (κ × ν)} (h : ∀ q ∈ l, q.1 ≠ k) :
    lookup k l = none := by
  induction l with
  | nil => rfl
  | cons q rest ih =>
    rw [lookup, if_neg (h q List.mem_cons_self)]
    exact ih (fun r hr => h r (List.mem_cons_of_mem _ hr))

theorem length_place (k : κ) (v : ν) {l : List (κ × ν)}
    (sorted : l.Pairwise (fun a b => a.1 < b.1)) :
    (place k v l).length = if (lookup k l).isSome then l.length else l.length + 1 := by
  induction l with
  | nil => rfl
  | cons p rest ih =>
    have hp := List.pairwise_cons.mp sorted
    unfold place
    split
    · rename_i below
      have absent : lookup k (p :: rest) = none := by
        apply lookup_of_forall_ne
        intro q hq
        rcases List.mem_cons.mp hq with rfl | hq
        · exact (ne_of_lt below).symm
        · exact (ne_of_lt (lt_trans below (hp.1 q hq))).symm
      simp only [absent, Option.isSome_none, List.length_cons, Bool.false_eq_true, if_false]
    · split
      · rename_i _ same
        simp only [lookup, if_pos same, Option.isSome_some, if_true, List.length_cons]
      · rename_i _ other
        simp only [lookup, if_neg other, List.length_cons, ih hp.2]
        split <;> rfl

/-- Inserting under a key that is present does not change the size. -/
theorem size_insert (m : OrderedMap κ ν) (k : κ) (v : ν) :
    (m.insert k v).size = if (m.find? k).isSome then m.size else m.size + 1 :=
  length_place k v m.sorted

theorem mem_of_lookup {k : κ} {v : ν} {l : List (κ × ν)} (h : lookup k l = some v) :
    (k, v) ∈ l := by
  induction l with
  | nil => cases h
  | cons p rest ih =>
    unfold lookup at h
    split at h
    · rename_i same
      cases Option.some.inj h
      rw [← same]
      exact List.mem_cons_self
    · exact List.mem_cons_of_mem _ (ih h)

theorem lookup_of_mem {k : κ} {v : ν} {l : List (κ × ν)}
    (sorted : l.Pairwise (fun a b => a.1 < b.1)) (h : (k, v) ∈ l) : lookup k l = some v := by
  induction l with
  | nil => cases h
  | cons p rest ih =>
    have hp := List.pairwise_cons.mp sorted
    rcases List.mem_cons.mp h with same | later
    · rw [lookup, ← same, if_pos rfl]
    · rw [lookup, if_neg (ne_of_lt (hp.1 _ later))]
      exact ih hp.2 later

/-- A map is given by what it binds each key to. -/
theorem eq_of_lookup {l l' : List (κ × ν)} (sorted : l.Pairwise (fun a b => a.1 < b.1))
    (sorted' : l'.Pairwise (fun a b => a.1 < b.1)) (same : ∀ k, lookup k l = lookup k l') :
    l = l' := by
  have irrefl : Std.Irrefl (fun a b : κ × ν => a.1 < b.1) := ⟨fun a => lt_irrefl a.1⟩
  have asymm : Std.Asymm (fun a b : κ × ν => a.1 < b.1) := ⟨fun _ _ below => lt_asymm below⟩
  refine List.Pairwise.eq_of_mem_iff sorted sorted' (fun ⟨k, v⟩ => ⟨fun there => ?_, fun there => ?_⟩)
  · exact mem_of_lookup ((same k).symm.trans (lookup_of_mem sorted there))
  · exact mem_of_lookup ((same k).trans (lookup_of_mem sorted' there))

theorem mem_toList_iff {m : OrderedMap κ ν} {k : κ} {v : ν} :
    (k, v) ∈ m.toList ↔ m.find? k = some v :=
  ⟨lookup_of_mem m.sorted, mem_of_lookup⟩

theorem size_pos {m : OrderedMap κ ν} {k : κ} {v : ν} (found : m.find? k = some v) :
    0 < m.size :=
  List.length_pos_of_mem (mem_toList_iff.mpr found)

theorem length_filter_ne {k : κ} {v : ν} {l : List (κ × ν)}
    (sorted : l.Pairwise (fun a b => a.1 < b.1)) (found : lookup k l = some v) :
    (l.filter (fun p => p.1 ≠ k)).length + 1 = l.length := by
  induction l with
  | nil => cases found
  | cons p rest ih =>
    have hp := List.pairwise_cons.mp sorted
    by_cases same : p.1 = k
    · have kept : rest.filter (fun p => p.1 ≠ k) = rest := by
        apply List.filter_eq_self.mpr
        intro q hq
        simpa using (ne_of_lt (same ▸ hp.1 q hq)).symm
      have dropped : (p :: rest).filter (fun p => p.1 ≠ k) = rest := by
        rw [List.filter_cons_of_neg (by simpa using same), kept]
      rw [dropped, List.length_cons]
    · have later : lookup k rest = some v := by rwa [lookup, if_neg same] at found
      rw [List.filter_cons_of_pos (by simpa using same), List.length_cons, List.length_cons,
        ih hp.2 later]

theorem size_erase {m : OrderedMap κ ν} {k : κ} {v : ν} (found : m.find? k = some v) :
    (m.erase k).size + 1 = m.size :=
  length_filter_ne m.sorted found

end OrderedMap
