import Mathlib.Data.List.Induction
import Mathlib.Data.List.Pairwise

/-! Directory trees on a disk that compares names by a key and keeps their first spelling. -/
namespace Volume

universe u v w

variable {N : Type u} {K : Type v} {α : Type w}

inductive Node (α : Type w) where
  | directory
  | file (content : α)
deriving DecidableEq

structure Entry (N : Type u) (α : Type w) where
  path : List N
  node : Node α

/-- Below the root: the name and the node at each folded path. -/
abbrev Disk (N : Type u) (K : Type v) (α : Type w) := List K → Option (N × Node α)

def blank : Disk N K α := fun _ => none

variable (fold : N → K)

def Entry.key (entry : Entry N α) : List K := entry.path.map fold

/-- Nothing but a directory stands here. -/
def passable (disk : Disk N K α) (key : List K) : Bool :=
  match disk key with
  | some (_, .file _) => false
  | _ => true

def vacant (disk : Disk N K α) (key : List K) : Node α → Bool
  | .directory => passable disk key
  | .file _ => (disk key).isNone

variable [DecidableEq K]

/-- What the creation of an entry leaves at a key: itself or one of its parents. -/
def Entry.mark (entry : Entry N α) (key : List K) : Option (N × Node α) :=
  if key ≠ [] ∧ key <+: entry.key fold then
    entry.path[key.length - 1]?.map (fun name =>
      (name, if key.length = entry.path.length then entry.node else .directory))
  else none

/-- Create an entry with its missing parents; a directory may exist already. -/
def place (disk : Disk N K α) (entry : Entry N α) : Option (Disk N K α) :=
  if entry.path ≠ [] ∧ (∀ n < entry.path.length, passable disk ((entry.key fold).take n)) ∧
      vacant disk (entry.key fold) entry.node then
    some (fun key => (disk key).or (entry.mark fold key))
  else none

def layout (entries : List (Entry N α)) : Disk N K α :=
  fun key => entries.findSome? (fun entry => entry.mark fold key)

/-- A file is no ancestor of the other entry, and not the same path. -/
def Fits (first second : Entry N α) : Prop :=
  (first.key fold <+: second.key fold → first.node = .directory) ∧
    (second.key fold <+: first.key fold → second.node = .directory)

variable {fold}

omit [DecidableEq K] in
theorem Fits.symm {first second : Entry N α} (fits : Fits fold first second) :
    Fits fold second first := ⟨fits.2, fits.1⟩

omit [DecidableEq K] in
instance : Std.Symm (Fits fold : Entry N α → Entry N α → Prop) := ⟨fun _ _ => Fits.symm⟩

omit [DecidableEq K] in
@[simp] theorem Entry.key_length (entry : Entry N α) :
    (entry.key fold).length = entry.path.length := List.length_map _

variable {entry : Entry N α} {entries : List (Entry N α)} {disk : Disk N K α} {key : List K}
  {name : N} {node : Node α}

theorem Entry.mark_some : entry.mark fold key = some (name, node) ↔
    key ≠ [] ∧ key <+: entry.key fold ∧ entry.path[key.length - 1]? = some name ∧
      node = if key.length = entry.path.length then entry.node else .directory := by
  unfold Entry.mark
  split
  · next below =>
    simp only [Option.map_eq_some_iff, Prod.mk.injEq]
    constructor
    · rintro ⟨x, there, rfl, rfl⟩
      exact ⟨below.1, below.2, there, rfl⟩
    · rintro ⟨_, _, there, rfl⟩
      exact ⟨name, there, rfl, rfl⟩
  · next off =>
    constructor
    · intro none
      cases none
    · rintro ⟨some, below, _⟩
      exact absurd ⟨some, below⟩ off

theorem Entry.mark_isSome (some : key ≠ []) (below : key <+: entry.key fold) :
    ∃ name, entry.mark fold key =
      Option.some (name, if key.length = entry.path.length then entry.node else .directory) := by
  have short := below.length_le
  rw [Entry.key_length] at short
  have positive := List.length_pos_iff.mpr some
  have inside : key.length - 1 < entry.path.length := by omega
  exact ⟨entry.path[key.length - 1], Entry.mark_some.mpr
    ⟨some, below, List.getElem?_eq_getElem inside, rfl⟩⟩

theorem layout_some (there : layout fold entries key = some (name, node)) :
    ∃ entry ∈ entries, entry.mark fold key = some (name, node) :=
  List.exists_of_findSome?_eq_some there

theorem layout_isSome (member : entry ∈ entries) (some : key ≠ [])
    (below : key <+: entry.key fold) :
    ∃ name node, layout fold entries key = Option.some (name, node) := by
  obtain ⟨name, here⟩ := entry.mark_isSome some below
  have filled : (layout fold entries key).isSome :=
    List.findSome?_isSome_iff.mpr ⟨entry, member, by rw [here]; rfl⟩
  obtain ⟨⟨name, node⟩, there⟩ := Option.isSome_iff_exists.mp filled
  exact ⟨name, node, there⟩

theorem Entry.mark_fits {first second : Entry N α} (fits : Fits fold first second)
    (there : first.mark fold (second.key fold) = some (name, node)) : node = second.node := by
  obtain ⟨_, below, _, rfl⟩ := Entry.mark_some.mp there
  split
  · next whole =>
    have same : second.key fold = first.key fold :=
      below.eq_of_length (by rw [whole, Entry.key_length])
    rw [fits.1 (same ▸ List.prefix_rfl), fits.2 below]
  · exact (fits.2 below).symm

/-- Every entry is found as it was created. -/
theorem layout_found (fit : entries.Pairwise (Fits fold)) (member : entry ∈ entries)
    (some : entry.path ≠ []) :
    ∃ name, layout fold entries (entry.key fold) = Option.some (name, entry.node) := by
  induction entries with
  | nil => cases member
  | cons first rest ih =>
    obtain ⟨here, later⟩ := List.pairwise_cons.mp fit
    have some' : entry.key fold ≠ [] := fun none => some (List.map_eq_nil_iff.mp none)
    rcases List.mem_cons.mp member with rfl | member
    · obtain ⟨name, marked⟩ := entry.mark_isSome some' List.prefix_rfl
      rw [Entry.key_length, if_pos rfl] at marked
      exact ⟨name, by simp only [layout, List.findSome?_cons, marked]⟩
    · cases marked : first.mark fold (entry.key fold) with
      | none =>
        obtain ⟨name, found⟩ := ih later member
        exact ⟨name, by rw [← found]; simp only [layout, List.findSome?_cons, marked]⟩
      | some found =>
        obtain ⟨name, node⟩ := found
        have same := Entry.mark_fits (here entry member) marked
        exact ⟨name, by simp only [layout, List.findSome?_cons, marked, same]⟩

omit [DecidableEq K] in
theorem passable_iff : passable disk key = true ↔ ∀ name node,
    disk key = some (name, node) → node = .directory := by
  unfold passable
  cases disk key with
  | none => simp
  | some found =>
    obtain ⟨name, node⟩ := found
    cases node <;> simp

omit [DecidableEq K] in
theorem vacant_iff : vacant disk key node = true ↔ ∀ name found,
    disk key = some (name, found) → found = .directory ∧ node = .directory := by
  cases node with
  | directory => simp [vacant, passable_iff]
  | file content =>
    cases there : disk key with
    | none => simp [vacant, there]
    | some found =>
      simp only [vacant, there, Option.isNone_some, Bool.false_eq_true, reduceCtorEq, and_false,
        imp_false, false_iff, not_forall, not_not]
      exact ⟨found.1, found.2, rfl⟩

theorem layout_passable (fits : ∀ other ∈ entries, Fits fold other entry)
    (below : key <+: entry.key fold) (there : layout fold entries key = some (name, node)) :
    node = .directory := by
  obtain ⟨other, member, marked⟩ := layout_some there
  obtain ⟨_, under, _, rfl⟩ := Entry.mark_some.mp marked
  split
  · next whole =>
    have same : key = other.key fold := under.eq_of_length (by rw [whole, Entry.key_length])
    exact (fits other member).1 (same ▸ below)
  · rfl

/-- Creation over a layout succeeds exactly when the entry fits every earlier one. -/
theorem place_layout {disk : Disk N K α} (fit : entries.Pairwise (Fits fold))
    (some : ∀ entry ∈ entries, entry.path ≠ []) :
    place fold (layout fold entries) entry = Option.some disk ↔
      entry.path ≠ [] ∧ (∀ other ∈ entries, Fits fold other entry) ∧
        disk = layout fold (entries ++ [entry]) := by
  have grown : (fun key => (layout fold entries key).or (entry.mark fold key)) =
      layout fold (entries ++ [entry]) := by
    funext key
    simp only [layout, List.findSome?_append, List.findSome?_cons, List.findSome?_nil]
    cases entry.mark fold key <;> rfl
  by_cases nonempty : entry.path = []
  · simp [place, nonempty]
  have free : (∀ n < entry.path.length,
        passable (layout fold entries) ((entry.key fold).take n)) ∧
      vacant (layout fold entries) (entry.key fold) entry.node ↔
        ∀ other ∈ entries, Fits fold other entry := by
    simp only [passable_iff, vacant_iff]
    constructor
    · rintro ⟨above, here⟩ other member
      obtain ⟨name, found⟩ := layout_found fit member (some other member)
      refine ⟨fun below => ?_, fun below => ?_⟩
      · rcases Nat.lt_or_ge (other.key fold).length entry.path.length with short | long
        · refine above _ short name other.node ?_
          rw [← List.prefix_iff_eq_take.mp below, found]
        · have same := below.eq_of_length_le (by rw [Entry.key_length]; exact long)
          exact (here name other.node (same ▸ found)).1
      · have some' : entry.key fold ≠ [] := fun none => nonempty (List.map_eq_nil_iff.mp none)
        obtain ⟨name, node, found⟩ := layout_isSome member some' below
        exact (here name node found).2
    · intro fits
      refine ⟨fun n _ name node there => layout_passable fits (List.take_prefix _ _) there,
        fun name node there => ⟨layout_passable fits List.prefix_rfl there, ?_⟩⟩
      obtain ⟨other, member, marked⟩ := layout_some there
      exact (fits other member).2 (Entry.mark_some.mp marked).2.1
  unfold place
  simp only [free, grown, Option.ite_none_right_eq_some, Option.some.injEq]
  exact ⟨fun ⟨⟨some, fits⟩, same⟩ => ⟨some, fits, same.symm⟩,
    fun ⟨some, fits, same⟩ => ⟨⟨some, fits⟩, same.symm⟩⟩

theorem run_layout {disk : Disk N K α} {done rest : List (Entry N α)}
    (fit : done.Pairwise (Fits fold)) (some : ∀ entry ∈ done, entry.path ≠ []) :
    rest.foldlM (place fold) (layout fold done) = Option.some disk ↔
      (∀ entry ∈ rest, entry.path ≠ []) ∧ (done ++ rest).Pairwise (Fits fold) ∧
        disk = layout fold (done ++ rest) := by
  induction rest generalizing done with
  | nil =>
    simp only [List.foldlM_nil, List.append_nil, List.not_mem_nil, false_implies, implies_true,
      true_and, fit]
    exact ⟨fun h => (Option.some.inj h).symm, fun h => congrArg Option.some h.symm⟩
  | cons entry rest ih =>
    rw [List.foldlM_cons, Option.bind_eq_bind, Option.bind_eq_some_iff]
    simp only [place_layout fit some]
    have whole : done ++ entry :: rest = done ++ [entry] ++ rest := by
      rw [List.append_assoc, List.singleton_append]
    have some' (here : entry.path ≠ []) : ∀ other ∈ done ++ [entry], other.path ≠ [] := by
      intro other member
      rcases List.mem_append.mp member with member | member
      · exact some other member
      · rwa [List.mem_singleton.mp member]
    rw [List.forall_mem_cons, whole]
    constructor
    · rintro ⟨_, ⟨here, fits, rfl⟩, later⟩
      have fit' : (done ++ [entry]).Pairwise (Fits fold) := List.pairwise_append.mpr
        ⟨fit, List.pairwise_singleton _ _, fun other member last there => by
          rw [List.mem_singleton.mp there]
          exact fits other member⟩
      obtain ⟨below, both, same⟩ := (ih fit' (some' here)).mp later
      exact ⟨⟨here, below⟩, both, same⟩
    · rintro ⟨⟨here, below⟩, both, same⟩
      obtain ⟨fit', _, _⟩ := List.pairwise_append.mp both
      obtain ⟨_, _, fits⟩ := List.pairwise_append.mp fit'
      exact ⟨_, ⟨here, fun other member => fits other member entry (List.mem_singleton_self _), rfl⟩,
        (ih fit' (some' here)).mpr ⟨below, both, same⟩⟩

/-- Entries can be created one after the other exactly when they fit pairwise. -/
theorem create_iff {disk : Disk N K α} :
    entries.foldlM (place fold) blank = some disk ↔
      (∀ entry ∈ entries, entry.path ≠ []) ∧ entries.Pairwise (Fits fold) ∧
        disk = layout fold entries :=
  run_layout (List.Pairwise.nil : ([] : List (Entry N α)).Pairwise (Fits fold))
    (fun _ none => by cases none)

/-- Whatever stands below a path has a directory there. -/
theorem layout_closed {k : K} (fit : entries.Pairwise (Fits fold)) (some : key ≠ [])
    (there : layout fold entries (key ++ [k]) = Option.some (name, node)) :
    ∃ name, layout fold entries key = Option.some (name, .directory) := by
  obtain ⟨entry, member, marked⟩ := layout_some there
  obtain ⟨_, below, _, _⟩ := Entry.mark_some.mp marked
  have above : key <+: entry.key fold := (List.prefix_append _ _).trans below
  obtain ⟨name, found, here⟩ := layout_isSome member some above
  obtain ⟨other, member', marked'⟩ := layout_some here
  obtain ⟨_, under, _, rfl⟩ := Entry.mark_some.mp marked'
  refine ⟨name, ?_⟩
  rw [here]
  split
  · next whole =>
    have same : key = other.key fold := under.eq_of_length (by rw [whole, Entry.key_length])
    have apart : other ≠ entry := by
      rintro rfl
      have short := below.length_le
      rw [same, List.length_append, List.length_singleton] at short
      omega
    have fits := fit.forall member' member apart
    rw [fits.1 (same ▸ above)]
  · rfl

/-- Every name of the path is kept as the path spells it. -/
def Spelled (fold : N → K) (disk : Disk N K α) (path : List N) : Prop :=
  ∀ before name, before ++ [name] <+: path →
    ∃ node, disk ((before ++ [name]).map fold) = some (name, node)

/-- Two paths spell their common directories alike. -/
def Agree (fold : N → K) (first second : List N) : Prop :=
  ∀ a b, a <+: first → b <+: second → a.map fold = b.map fold → a = b

theorem spelled_iff : (∀ entry ∈ entries, Spelled fold (layout fold entries) entry.path) ↔
    ∀ first ∈ entries, ∀ second ∈ entries, Agree fold first.path second.path := by
  constructor
  · intro spelled first here second there a b under under' same
    induction a using List.reverseRecOn generalizing b with
    | nil => exact (List.map_eq_nil_iff.mp same.symm).symm
    | append_singleton a name ih =>
      rw [List.map_append, List.map_singleton] at same
      obtain ⟨b, last, rfl, above, tail⟩ := List.append_eq_map_iff.mp same
      obtain ⟨name', rfl, _⟩ := List.map_eq_singleton_iff.mp tail
      have before := ih b ((List.prefix_append _ _).trans under)
        ((List.prefix_append _ _).trans under') above.symm
      subst before
      obtain ⟨_, found⟩ := spelled first here a name under
      obtain ⟨_, found'⟩ := spelled second there a name' under'
      rw [List.map_append, tail, ← List.map_singleton, ← List.map_append, found] at found'
      cases found'
      rfl
  · intro agree entry member before name under
    have some : (before ++ [name]).map fold ≠ [] := by simp
    have below : (before ++ [name]).map fold <+: entry.key fold := List.IsPrefix.map fold under
    obtain ⟨name', node, found⟩ := layout_isSome member some below
    obtain ⟨other, member', marked⟩ := layout_some found
    obtain ⟨_, below', there, _⟩ := Entry.mark_some.mp marked
    refine ⟨node, ?_⟩
    rw [found]
    have same : (other.path.take (before.length + 1)).map fold = (before ++ [name]).map fold := by
      rw [List.map_take, List.prefix_iff_eq_take.mp below', List.length_map, List.length_append,
        List.length_singleton]
      rfl
    have whole := agree other member' entry member _ _ (List.take_prefix _ _) under same
    have last : (other.path.take (before.length + 1))[before.length]? = Option.some name := by
      rw [whole, List.getElem?_concat_length]
    rw [List.getElem?_take_of_lt (Nat.lt_succ_self _)] at last
    rw [List.length_map, List.length_append, List.length_singleton, Nat.add_sub_cancel, last]
      at there
    cases there
    rfl

end Volume
