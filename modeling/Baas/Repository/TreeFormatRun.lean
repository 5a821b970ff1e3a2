import Mathlib.Algebra.BigOperators.Group.List.Basic
import Mathlib.Data.List.Perm.Basic
import Mathlib.Algebra.GroupWithZero.Nat
import Baas.Lib.PathText
import Baas.Lib.Volume
import Baas.Repository.TreeFormatText

/-! What the paths of an accepted manifest are like, and when they can be laid out as the files
of one directory tree. -/
namespace Baas.TreeFormat

open JsonText JsonGrammar

variable {limits : TreeFormatLimits} {manifestName : Text}

/-! The keys. -/

/-- What folding a byte keeps. -/
theorem folding (byte : UInt8) : (fold byte = 47 ↔ byte = 47) ∧
    (¬ byte < 0x80 → fold byte = byte) ∧ (byte &&& 0xC0 = 0x80 → ¬ byte < 0x80) :=
  of_decide_eq_true (JsonText.byte_forall (p := fun byte => decide (
    (fold byte = 47 ↔ byte = 47) ∧ (¬ byte < 0x80 → fold byte = byte) ∧
      (byte &&& 0xC0 = 0x80 → ¬ byte < 0x80))) (by decide +kernel) byte)

theorem codePoint_high {lead code : Nat} {tail : List UInt8}
    (h : codePoint lead tail = .ok code) : ∀ byte ∈ tail, ¬ byte < 0x80 := by
  induction tail generalizing lead with
  | nil => exact fun _ none => (by cases none)
  | cons byte rest ih =>
    unfold codePoint at h
    rw [List.foldlM_cons, bind_ok] at h
    obtain ⟨next, step, h⟩ := h
    split at step
    · cases step
    next continued =>
    exact List.forall_mem_cons.mpr
      ⟨(folding byte).2.2 (Decidable.not_not.mp continued), ih h⟩

theorem character_high {lead least : Nat} {first : UInt8} {rest out : Text}
    (h : character lead least (first :: rest) = .ok out) (high : ¬ first < 0x80) :
    out = (first :: rest).map fold := by
  unfold character at h
  rw [bind_ok] at h
  obtain ⟨code, read, h⟩ := h
  split at h
  · cases h
  cases h
  have all : ∀ byte ∈ first :: rest, fold byte = byte := by
    intro byte member
    rcases List.mem_cons.mp member with rfl | member
    · exact (folding byte).2.1 high
    · exact (folding byte).2.1 (codePoint_high read byte member)
  rw [List.map_congr_left all, List.map_id']

theorem foldComponent_map {component folded : Text} (h : foldComponent component = .ok folded) :
    folded = component.map fold := by
  fun_induction foldComponent component generalizing folded with
  | case1 =>
    cases h
    rfl
  | case4 a rest _ _ _ ih =>
    rw [bind_ok] at h
    obtain ⟨later, read, h⟩ := h
    cases h
    rw [ih read, List.map_cons]
  | case5 a high _ b rest ih | case7 a high _ _ b c rest ih | case9 a high _ _ _ b c d rest ih =>
    rw [bind_ok] at h
    obtain ⟨bytes, kept, h⟩ := h
    rw [bind_ok] at h
    obtain ⟨later, read, h⟩ := h
    cases h
    rw [character_high kept high, ih read, ← List.map_append]
    rfl
  | case2 | case3 | case6 | case8 | case10 | case11 => cases h

/-- The folded components behind the first, each behind a separator. -/
def tailKey (names : List Text) : Text := (names.map (fun name => 47 :: name.map fold)).flatten

theorem keyLoop_cons {depth : Nat} {key out component : Text} {rest : List Text}
    (h : keyLoop limits depth key (component :: rest) = .ok out) : component ≠ [] ∧
      keyLoop limits (depth + 1)
        (if key = [] then component.map fold else key ++ 47 :: component.map fold) rest =
          .ok out := by
  rw [keyLoop] at h
  split at h
  · cases h
  split at h
  · cases h
  next canonical =>
  rw [bind_ok] at h
  obtain ⟨folded, read, h⟩ := h
  split at h
  · cases h
  rw [foldComponent_map read] at h
  exact ⟨fun empty => canonical (.inl empty), h⟩

theorem keyLoop_map {depth : Nat} {key out : Text} {names : List Text} (some : key ≠ [])
    (h : keyLoop limits depth key names = .ok out) : out = key ++ tailKey names := by
  induction names generalizing depth key with
  | nil =>
    cases h
    exact (List.append_nil _).symm
  | cons component rest ih =>
    obtain ⟨_, h⟩ := keyLoop_cons h
    rw [if_neg some] at h
    rw [ih (by simp) h, List.append_assoc]
    rfl

theorem tailKey_join (first : Text) (rest : List Text) :
    first.map fold ++ tailKey rest = ([47].intercalate (first :: rest)).map fold := by
  induction rest generalizing first with
  | nil => simp [tailKey]
  | cons next rest ih =>
    rw [List.intercalate_cons_cons, List.map_append, ← ih]
    simp [tailKey, fold]

theorem portablePathKey_map {path key : Text} (h : portablePathKey path limits = .ok key) :
    key = path.map fold := by
  unfold portablePathKey at h
  split at h
  · cases h
  have whole : [47].intercalate (path.splitOn 47) = path := List.intercalate_splitOn 47
  cases names : path.splitOn 47 with
  | nil => exact absurd names (List.splitOn_ne_nil 47 path)
  | cons first rest =>
    rw [names] at h whole
    obtain ⟨some, h⟩ := keyLoop_cons h
    rw [if_pos rfl] at h
    rw [keyLoop_map (by simpa using some) h, tailKey_join, whole]

/-! The entries. -/

/-- An item that is taken when no other file is there yet, with its key. -/
def Listed (manifestName : Text) (limits : TreeFormatLimits) (item : Json)
    (read : TreeManifestEntry × Text) : Prop := readEntry manifestName limits 0 item = .ok read

theorem readEntry_iff {total : Nat} {item : Json} {read : TreeManifestEntry × Text} :
    readEntry manifestName limits total item = .ok read ↔
      Listed manifestName limits item read ∧ read.1.size ≤ limits.maxTotalBytes - total := by
  unfold Listed readEntry
  simp only [bind_ok]
  constructor
  · rintro ⟨entry, h₁, u, h₂, path, h₃, text, h₄, size, h₅, sha, h₆, mode, h₇, h⟩
    split at h
    · cases h
    next fits =>
    simp only [not_or, Bool.not_eq_false, Nat.not_lt] at fits
    obtain ⟨file, hex, other, small, room⟩ := fits
    rw [bind_ok] at h
    obtain ⟨key, keyed, h⟩ := h
    cases h
    refine ⟨⟨entry, h₁, u, h₂, path, h₃, text, h₄, size, h₅, sha, h₆, mode, h₇, ?_⟩, room⟩
    rw [if_neg]
    · exact bind_ok.mpr ⟨key, keyed, rfl⟩
    · simp only [not_or, Bool.not_eq_false, Nat.not_lt]
      exact ⟨file, hex, other, small, Nat.le_trans room (Nat.sub_le_sub_left (Nat.zero_le _) _)⟩
  · rintro ⟨⟨entry, h₁, u, h₂, path, h₃, text, h₄, size, h₅, sha, h₆, mode, h₇, h⟩, room⟩
    split at h
    · cases h
    next fits =>
    simp only [not_or, Bool.not_eq_false, Nat.not_lt] at fits
    obtain ⟨file, hex, other, small, _⟩ := fits
    rw [bind_ok] at h
    obtain ⟨key, keyed, h⟩ := h
    cases h
    refine ⟨entry, h₁, u, h₂, path, h₃, text, h₄, size, h₅, sha, h₆, mode, h₇, ?_⟩
    rw [if_neg]
    · exact bind_ok.mpr ⟨key, keyed, rfl⟩
    · simp only [not_or, Bool.not_eq_false, Nat.not_lt]
      exact ⟨file, hex, other, small, room⟩

theorem Listed.key {item : Json} {read : TreeManifestEntry × Text}
    (listed : Listed manifestName limits item read) : read.2 = read.1.path.map fold := by
  unfold Listed readEntry at listed
  simp only [bind_ok] at listed
  obtain ⟨_, _, _, _, path, _, _, _, _, _, _, _, _, _, h⟩ := listed
  split at h
  · cases h
  rw [bind_ok] at h
  obtain ⟨key, keyed, h⟩ := h
  cases h
  exact portablePathKey_map keyed

def sizes (reads : List (TreeManifestEntry × Text)) : Nat := (reads.map (·.1.size)).sum

theorem readEntries_iff {manifest next : Manifest} {items : List Json}
    (few : manifest.result.length ≤ limits.maxEntries)
    (small : manifest.total ≤ limits.maxTotalBytes) :
    readEntries manifestName limits manifest items = .ok next ↔
      ∃ reads, List.Forall₂ (Listed manifestName limits) items reads ∧
        manifest.result.length + reads.length ≤ limits.maxEntries ∧
        manifest.total + sizes reads ≤ limits.maxTotalBytes ∧
        (reads.map Prod.snd).Nodup ∧ (∀ read ∈ reads, read.2 ∉ manifest.portablePaths) ∧
        next = ⟨manifest.result ++ reads.map Prod.fst,
          (reads.map Prod.snd).reverse ++ manifest.portablePaths,
          manifest.total + sizes reads⟩ := by
  induction items generalizing manifest with
  | nil =>
    simp only [readEntries, List.forall₂_nil_left_iff, exists_eq_left]
    simp [sizes, few, small, eq_comm]
  | cons item rest ih =>
    have grown (read : TreeManifestEntry × Text) (reads : List (TreeManifestEntry × Text)) :
        sizes (read :: reads) = read.1.size + sizes reads := by
      rw [sizes, List.map_cons, List.sum_cons, sizes]
    constructor
    · intro h
      rw [readEntries] at h
      split at h
      · cases h
      next room =>
      rw [bind_ok] at h
      obtain ⟨⟨entry, key⟩, read, h⟩ := h
      obtain ⟨listed, fits⟩ := readEntry_iff.mp read
      simp only [] at h fits
      split at h
      · cases h
      next fresh =>
      obtain ⟨reads, all, count, total, apart, other, rfl⟩ :=
        (ih (by simp only [List.length_append, List.length_singleton]; omega)
          (by simp only; omega)).mp h
      simp only [List.length_append, List.length_singleton] at count
      simp only [List.mem_cons, not_or] at other
      have grown' := grown (entry, key) reads
      refine ⟨(entry, key) :: reads, .cons listed all, ?_, ?_, ?_, ?_, ?_⟩
      · rw [List.length_cons]
        omega
      · rw [grown']
        simp only at total ⊢
        omega
      · rw [List.map_cons, List.nodup_cons]
        refine ⟨fun there => ?_, apart⟩
        obtain ⟨twin, member, same⟩ := List.mem_map.mp there
        exact (other twin member).1 same
      · exact List.forall_mem_cons.mpr ⟨fresh, fun twin member => (other twin member).2⟩
      · simp [grown', Nat.add_assoc]
    · rintro ⟨reads, all, count, total, apart, other, rfl⟩
      cases all with
      | @cons _ read _ reads listed all =>
        obtain ⟨entry, key⟩ := read
        rw [List.length_cons] at count
        rw [grown] at total
        simp only [List.map_cons, List.nodup_cons] at apart
        rw [List.forall_mem_cons] at other
        simp only at total other
        rw [readEntries, if_neg (by omega), bind_ok]
        refine ⟨(entry, key), readEntry_iff.mpr ⟨listed, by simp only; omega⟩, ?_⟩
        simp only
        rw [if_neg other.1]
        refine (ih (by simp only [List.length_append, List.length_singleton]; omega)
          (by simp only; omega)).mpr ⟨reads, all, ?_, ?_, apart.2, ?_, ?_⟩
        · simp only [List.length_append, List.length_singleton]
          omega
        · simp only
          omega
        · intro twin member there
          rcases List.mem_cons.mp there with same | there
          · exact apart.1 (same ▸ List.mem_map_of_mem member)
          · exact other.2 twin member there
        · simp [grown, Nat.add_assoc]

/-- The entries of the items, in the order of their paths. -/
def sorted (reads : List (TreeManifestEntry × Text)) : List TreeManifestEntry :=
  (reads.map Prod.fst).insertionSort (fun left right => left.path ≤ right.path)

/-- What is required of the items of a manifest, whose own key is `own`. -/
structure Sound (manifestName : Text) (limits : TreeFormatLimits) (own : Text)
    (items : List Json) (reads : List (TreeManifestEntry × Text)) : Prop where
  listed : List.Forall₂ (Listed manifestName limits) items reads
  count : reads.length ≤ limits.maxEntries
  total : sizes reads ≤ limits.maxTotalBytes
  apart : (own :: reads.map Prod.snd).Nodup

theorem listed_keys {items : List Json} {reads : List (TreeManifestEntry × Text)}
    (all : List.Forall₂ (Listed manifestName limits) items reads) :
    ∀ read ∈ reads, read.2 = read.1.path.map fold := by
  induction all with
  | nil => exact fun _ none => (by cases none)
  | cons listed _ ih => exact List.forall_mem_cons.mpr ⟨listed.key, ih⟩

/-- Entries of one path are one entry. -/
theorem Sound.unique {own : Text} {items : List Json} {reads : List (TreeManifestEntry × Text)}
    (sound : Sound manifestName limits own items reads) {first second : TreeManifestEntry × Text}
    (here : first ∈ reads) (there : second ∈ reads) (same : first.1.path = second.1.path) :
    first = second := by
  refine List.inj_on_of_nodup_map (List.nodup_cons.mp sound.apart).2 here there ?_
  rw [listed_keys sound.listed _ here, listed_keys sound.listed _ there, same]

theorem Sound.perm {own : Text} {items items' : List Json}
    {reads : List (TreeManifestEntry × Text)} (same : items.Perm items')
    (sound : Sound manifestName limits own items reads) :
    ∃ reads', Sound manifestName limits own items' reads' ∧ sorted reads' = sorted reads := by
  obtain ⟨reads', listed, moved⟩ := List.perm_comp_forall₂ same.symm sound.listed
  have total : sizes reads' = sizes reads := (moved.map _).sum_eq
  have sound' : Sound manifestName limits own items' reads' := ⟨listed,
    moved.length_eq ▸ sound.count, total ▸ sound.total,
    (moved.symm.map Prod.snd |>.cons own).nodup_iff.mp sound.apart⟩
  refine ⟨reads', sound', List.Perm.eq_of_pairwise ?_ (List.pairwise_insertionSort _ _)
    (List.pairwise_insertionSort _ _) ?_⟩
  · intro a b here there below above
    obtain ⟨first, member, rfl⟩ := List.mem_map.mp ((List.mem_insertionSort _).mp here)
    obtain ⟨second, member', rfl⟩ := List.mem_map.mp ((List.mem_insertionSort _).mp there)
    rw [sound.unique (moved.mem_iff.mp member) member' (le_antisymm below above)]
  · exact (List.perm_insertionSort _ _).trans
      ((moved.map Prod.fst).trans (List.perm_insertionSort _ _).symm)

theorem asObject_iff {document : Json} {root : List (Text × Json)} :
    asObject document = .ok root ↔ document = .object root := by
  cases document <;> simp [asObject]

theorem asArray_iff {value : Json} {items : List Json} :
    asArray value = .ok items ↔ value = .array items := by
  cases value <;> simp [asArray]

theorem readManifest_iff {document : Json} {entries : List TreeManifestEntry} :
    readManifest document manifestName limits = .ok entries ↔
      ∃ root items own reads, document = .object root ∧
        exactMembers root [ascii "schema", ascii "entries"] = .ok () ∧
        stringMember root (ascii "schema") = .ok treeManifestSchema ∧
        portablePathKey manifestName limits = .ok own ∧
        member root (ascii "entries") = .ok (.array items) ∧
        Sound manifestName limits own items reads ∧ adjacentEqual (sorted reads) = false ∧
        entries = sorted reads := by
  have loop {own : Text} {items : List Json} {manifest : Manifest} :=
    @readEntries_iff limits manifestName ⟨[], [own], 0⟩ manifest items (Nat.zero_le _)
      (Nat.zero_le _)
  unfold readManifest
  simp only [bind_ok, asObject_iff]
  constructor
  · rintro ⟨root, shape, _, exact_, schema, named, h⟩
    split at h
    · cases h
    next right =>
    simp only [bind_ok, asArray_iff] at h
    obtain ⟨own, keyed, value, found, items, rfl, manifest, read, h⟩ := h
    obtain ⟨reads, listed, count, total, apart, other, rfl⟩ := loop.mp read
    simp only [List.length_nil, Nat.zero_add, List.mem_singleton] at count total other
    have sound : Sound manifestName limits own items reads :=
      ⟨listed, count, total, List.nodup_cons.mpr ⟨fun there => by
        obtain ⟨twin, member, same⟩ := List.mem_map.mp there
        exact other twin member same, apart⟩⟩
    simp only [List.nil_append] at h
    split at h
    · cases h
    next distinct =>
    cases h
    exact ⟨root, items, own, reads, shape, exact_, Decidable.not_not.mp right ▸ named, keyed, found,
      sound, Bool.not_eq_true _ ▸ distinct, rfl⟩
  · rintro ⟨root, items, own, reads, shape, exact_, named, keyed, found, sound, distinct, rfl⟩
    obtain ⟨own_, apart⟩ := List.nodup_cons.mp sound.apart
    refine ⟨root, shape, (), exact_, treeManifestSchema, named, ?_⟩
    rw [if_neg (by simp)]
    simp only [bind_ok, asArray_iff]
    refine ⟨own, keyed, _, found, items, rfl, _, loop.mpr ⟨reads, sound.listed, ?_, ?_, apart, ?_,
      rfl⟩, ?_⟩
    · simpa using sound.count
    · simpa using sound.total
    · intro read member there
      rw [List.mem_singleton] at there
      exact own_ (there ▸ List.mem_map_of_mem member)
    · simp only [List.nil_append]
      exact if_neg (by simp only [← sorted.eq_def, distinct, Bool.false_eq_true, not_false_eq_true])

/-! The tree. -/

def components (path : Text) : List Text := path.splitOn 47

def folded (path : Text) : List Text := (components path).map (·.map fold)

theorem folded_eq (path : Text) : folded path = (path.map fold).splitOn 47 :=
  (PathText.split_map (fun byte => (folding byte).1) path).symm

def file (path : Text) : Volume.Entry Text Text := ⟨components path, .file path⟩

/-- The paths are files of one tree on a disk that folds ASCII case, each found there under its
own spelling. -/
def LaidOut (paths : List Text) : Prop :=
  ∃ disk, (paths.map file).foldlM (Volume.place (List.map fold)) Volume.blank = some disk ∧
    ∀ path ∈ paths, (∃ name, disk (folded path) = some (name, .file path)) ∧
      Volume.Spelled (List.map fold) disk (components path)

/-- No directory of a path is another path, or a directory spelled otherwise, up to case. -/
def Separate (paths : List Text) : Prop :=
  ∀ first ∈ paths, ∀ second ∈ paths, ∀ directory, directory ++ [47] <+: first →
    directory.map fold ≠ second.map fold ∧
    ∀ other, other ++ [47] <+: second → directory.map fold = other.map fold → directory = other

/-- The keys of the paths are those of different files. -/
def Apart (paths : List Text) : Prop :=
  paths.Pairwise (fun first second => first.map fold ≠ second.map fold)

theorem folded_inj {first second : Text} :
    folded first = folded second ↔ first.map fold = second.map fold := by
  rw [folded_eq, folded_eq, PathText.split_inj]

/-- The folded names of a path begin those of another one, at a directory of it. -/
theorem folded_below {first second : Text} (below : folded first <+: folded second)
    (other : first.map fold ≠ second.map fold) :
    ∃ directory, directory ++ [47] <+: second ∧ directory.map fold = first.map fold := by
  have names : first.map fold ++ [47] <+: second.map fold := by
    rw [PathText.before_iff, ← folded_eq, ← folded_eq]
    exact ⟨below, fun same => other (folded_inj.mp same)⟩
  obtain ⟨rest, whole⟩ := names
  obtain ⟨upper, lower, rfl, up, _⟩ := List.append_eq_map_iff.mp whole
  obtain ⟨directory, slash, rfl, key, last⟩ := List.append_eq_map_iff.mp up.symm
  obtain ⟨byte, rfl, same⟩ := List.map_eq_singleton_iff.mp last
  rw [(folding byte).1] at same
  rw [same]
  exact ⟨directory, List.prefix_append _ _, key⟩

/-- The first names of a path are those of the path or of a directory of it. -/
theorem prefix_text {path : Text} {names : List Text} (some : names ≠ [])
    (below : names <+: components path) :
    ∃ text, components text = names ∧ (text = path ∨ text ++ [47] <+: path) := by
  have free : ∀ name ∈ names, 47 ∉ name :=
    fun name member => PathText.name_free (below.subset member)
  refine ⟨[47].intercalate names, List.splitOn_intercalate 47 free some, ?_⟩
  rw [PathText.before_iff, List.splitOn_intercalate 47 free some]
  by_cases whole : names = components path
  · left
    rw [whole]
    exact List.intercalate_splitOn 47
  · exact .inr ⟨below, whole⟩

theorem apart_inj {paths : List Text} (apart : Apart paths) {first second : Text}
    (here : first ∈ paths) (there : second ∈ paths) (same : first.map fold = second.map fold) :
    first = second := by
  by_contra other
  have symm : Std.Symm (fun first second : Text => first.map fold ≠ second.map fold) :=
    ⟨fun _ _ => Ne.symm⟩
  exact apart.forall here there other same

theorem Separate.fits {paths : List Text} (apart : Apart paths) (separate : Separate paths) :
    (paths.map file).Pairwise (Volume.Fits (List.map fold)) := by
  rw [List.pairwise_map]
  refine apart.imp_of_mem (fun {first second} here there other => ⟨fun below => ?_, fun below => ?_⟩)
  · obtain ⟨directory, under, same⟩ := folded_below below other
    exact absurd same (separate second there first here directory under).1
  · obtain ⟨directory, under, same⟩ := folded_below below (Ne.symm other)
    exact absurd same (separate first here second there directory under).1

theorem Separate.agree {paths : List Text} (apart : Apart paths) (separate : Separate paths)
    {first second : Text} (here : first ∈ paths) (there : second ∈ paths) :
    Volume.Agree (List.map fold) (components first) (components second) := by
  intro a b below below' same
  by_cases none : a = []
  · rw [none, List.map_nil] at same
    rw [none, List.map_eq_nil_iff.mp same.symm]
  have some' : b ≠ [] := by
    rintro rfl
    exact none (List.map_eq_nil_iff.mp same)
  obtain ⟨d, rfl, at_⟩ := prefix_text none below
  obtain ⟨e, rfl, at_'⟩ := prefix_text some' below'
  have key : d.map fold = e.map fold := folded_inj.mp same
  rcases at_ with rfl | under
  · rcases at_' with rfl | under'
    · rw [apart_inj apart here there key]
    · exact absurd key.symm (separate second there d here e under').1
  · rcases at_' with rfl | under'
    · exact absurd key (separate first here e there d under).1
    · rw [(separate first here second there d under).2 e under' key]

theorem laidOut_iff {paths : List Text} (apart : Apart paths) :
    LaidOut paths ↔ Separate paths := by
  have named : ∀ entry ∈ paths.map file, entry.path ≠ [] :=
    List.forall_mem_map.mpr (fun path _ => List.splitOn_ne_nil 47 path)
  constructor
  · rintro ⟨disk, made, each⟩
    obtain ⟨_, fit, rfl⟩ := Volume.create_iff.mp made
    have agree := Volume.spelled_iff.mp (List.forall_mem_map.mpr (fun path member =>
      (each path member).2))
    intro first here second there directory under
    obtain ⟨below, proper⟩ := PathText.before_iff.mp under
    refine ⟨fun same => ?_, fun other under' same => ?_⟩
    · have same' : folded directory = folded second := folded_inj.mpr same
      have begins : folded second <+: folded first := same' ▸ below.map _
      have other : file second ≠ file first := by
        intro one
        cases (congrArg Volume.Entry.node one : Volume.Node.file second = .file first)
        have size := congrArg List.length same'
        rw [folded, folded, List.length_map, List.length_map] at size
        exact proper (below.eq_of_length size)
      have fits := fit.forall (List.mem_map_of_mem there) (List.mem_map_of_mem here) other
      cases fits.1 begins
    · obtain ⟨below', _⟩ := PathText.before_iff.mp under'
      have names := agree _ (List.mem_map_of_mem here) _ (List.mem_map_of_mem there) _ _ below
        below' (folded_inj.mpr same)
      exact PathText.split_inj.mp names
  · intro separate
    have fit := separate.fits apart
    refine ⟨_, Volume.create_iff.mpr ⟨named, fit, rfl⟩, fun path member => ⟨?_, ?_⟩⟩
    · exact Volume.layout_found fit (List.mem_map_of_mem member) (List.splitOn_ne_nil 47 path)
    · have agree : ∀ first ∈ paths.map file, ∀ second ∈ paths.map file,
          Volume.Agree (List.map fold) first.path second.path :=
        List.forall_mem_map.mpr (fun first here => List.forall_mem_map.mpr (fun second there =>
          separate.agree apart here there))
      exact Volume.spelled_iff.mpr agree _ (List.mem_map_of_mem member)

theorem parseTreeManifest_iff {text : Text} {entries : List TreeManifestEntry} :
    parseTreeManifest text manifestName limits = .ok entries ↔ ∃ document,
      (Document text document ∧ Within limits document) ∧
        readManifest document manifestName limits = .ok entries := by
  unfold parseTreeManifest
  simp only [bind_ok, parse_iff]

theorem parseTreeManifest_apart {text : Text} {entries : List TreeManifestEntry}
    (h : parseTreeManifest text manifestName limits = .ok entries) :
    Apart (manifestName :: entries.map TreeManifestEntry.path) := by
  obtain ⟨_, _, read⟩ := parseTreeManifest_iff.mp h
  obtain ⟨root, items, own, reads, _, _, _, keyed, _, sound, _, rfl⟩ := readManifest_iff.mp read
  have keys : reads.map Prod.snd = (reads.map Prod.fst).map (fun entry => entry.path.map fold) := by
    rw [List.map_map]
    exact List.map_congr_left (listed_keys sound.listed)
  have same : ((sorted reads).map (fun entry => entry.path.map fold)).Perm (reads.map Prod.snd) := by
    rw [keys]
    exact (List.perm_insertionSort _ _).map _
  have apart := (same.cons own).nodup_iff.mpr sound.apart
  rw [portablePathKey_map keyed] at apart
  have names : ((manifestName :: (sorted reads).map TreeManifestEntry.path).map
      (·.map fold)).Nodup := by
    rw [List.map_cons, List.map_map]
    exact apart
  exact List.pairwise_map.mp names

/-- Two documents but for the order of the entries. -/
def Reordered (document document' : Json) : Prop :=
  ∃ before after items items', items.Perm items' ∧
    document = .object (before ++ (ascii "entries", .array items) :: after) ∧
    document' = .object (before ++ (ascii "entries", .array items') :: after)

theorem Reordered.symm {document document' : Json} (reordered : Reordered document document') :
    Reordered document' document := by
  obtain ⟨before, after, items, items', same, here, there⟩ := reordered
  exact ⟨before, after, items', items, same.symm, there, here⟩

theorem countItems_eq (items : List Json) : countItems items = (items.map count).sum := by
  induction items with
  | nil => rfl
  | cons item rest ih => rw [countItems, ih, List.map_cons, List.sum_cons]

theorem countMembers_eq (members : List (Text × Json)) :
    countMembers members = (members.map (fun member => count member.2)).sum := by
  induction members with
  | nil => rfl
  | cons member rest ih => rw [countMembers, ih, List.map_cons, List.sum_cons]

theorem Reordered.within {document document' : Json} (reordered : Reordered document document')
    (within : Within limits document) : Within limits document' := by
  obtain ⟨before, after, items, items', same, rfl, rfl⟩ := reordered
  obtain ⟨few, ⟨apart, fine⟩, room⟩ := within
  have nodes : countItems items' = countItems items := by
    rw [countItems_eq, countItems_eq]
    exact (same.symm.map count).sum_eq
  refine ⟨few, ⟨?_, ?_⟩, ?_⟩
  · simpa using apart
  · simp only [List.forall_mem_append, List.forall_mem_cons] at fine ⊢
    obtain ⟨first, ⟨short, inner⟩, last⟩ := fine
    exact ⟨first, ⟨short, fun item member => inner item (same.mem_iff.mpr member)⟩, last⟩
  · simp only [count, countMembers_eq, List.map_append, List.map_cons, List.sum_append,
      List.sum_cons, nodes] at room ⊢
    exact room

/-- Looking up another member, and looking up the entries. -/
theorem member_reordered {before after : List (Text × Json)} {items items' : List Json}
    (apart : ((before ++ (ascii "entries", .array items) :: after).map Prod.fst).Nodup) :
    (∀ key ≠ ascii "entries", member (before ++ (ascii "entries", .array items) :: after) key =
      member (before ++ (ascii "entries", .array items') :: after) key) ∧
    member (before ++ (ascii "entries", .array items) :: after) (ascii "entries") =
      .ok (.array items) := by
  constructor
  · intro key other
    have skip (value : Json) : ((ascii "entries", value) :: after).find? (·.1 = key) =
        after.find? (·.1 = key) := List.find?_cons_of_neg (by simpa using Ne.symm other)
    simp only [member, List.find?_append, skip]
  · have absent : before.find? (·.1 = ascii "entries") = none := by
      rw [List.find?_eq_none]
      intro twin there same
      rw [List.map_append, List.nodup_append'] at apart
      exact apart.2.2 (List.mem_map_of_mem there)
        (of_decide_eq_true same ▸ List.mem_cons_self)
    simp only [member, List.find?_append, absent, Option.none_or]
    rw [List.find?_cons_of_pos (by simp)]

theorem Reordered.read {document document' : Json} {entries : List TreeManifestEntry}
    (reordered : Reordered document document') (within : Within limits document)
    (h : readManifest document manifestName limits = .ok entries) :
    readManifest document' manifestName limits = .ok entries := by
  obtain ⟨_, fine', _⟩ := reordered.within within
  obtain ⟨before, after, items, items', same, rfl, rfl⟩ := reordered
  obtain ⟨_, fine, _⟩ := within
  obtain ⟨root, _, own, reads, shape, exact_, named, keyed, found, sound, distinct, rfl⟩ :=
    readManifest_iff.mp h
  cases shape
  have other : ascii "schema" ≠ ascii "entries" := by
    simp only [ascii_eq]
    decide
  obtain ⟨elsewhere, here⟩ := @member_reordered before after items items' fine.1
  obtain ⟨_, there⟩ := @member_reordered before after items' items fine'.1
  cases here.symm.trans found
  obtain ⟨reads', sound', equal⟩ := sound.perm same
  refine readManifest_iff.mpr ⟨_, items', own, reads', rfl, ?_, ?_, keyed, there, sound', ?_, ?_⟩
  · rw [← exact_]
    simp only [exactMembers, List.length_append, List.length_cons, List.any_append, List.any_cons]
  · rw [← named]
    unfold stringMember
    rw [elsewhere _ other]
  · rw [equal, distinct]
  · rw [equal]

theorem parseTreeManifest_reordered {text text' : Text} {document document' : Json}
    {entries : List TreeManifestEntry} (here : Document text document)
    (there : Document text' document') (reordered : Reordered document document')
    (h : parseTreeManifest text manifestName limits = .ok entries) :
    parseTreeManifest text' manifestName limits = .ok entries := by
  obtain ⟨_, ⟨spelled, within⟩, read⟩ := parseTreeManifest_iff.mp h
  cases here.unique spelled
  exact parseTreeManifest_iff.mpr
    ⟨document', ⟨there, reordered.within within⟩, reordered.read within read⟩

/-- The names of a manifest belong to different files and can be laid out exactly when they are
separate, and the order of the entries in the text does not matter. -/
theorem parseTreeManifest_exact (manifestName : Text) (limits : TreeFormatLimits) :
    (∀ text entries, parseTreeManifest text manifestName limits = .ok entries →
      (Apart (manifestName :: entries.map TreeManifestEntry.path) ∧
        LaidOut (manifestName :: entries.map TreeManifestEntry.path) ↔
          Separate (manifestName :: entries.map TreeManifestEntry.path))) ∧
    ∀ text text' document document', Document text document → Document text' document' →
      Reordered document document' → ∀ entries,
        (parseTreeManifest text manifestName limits = .ok entries ↔
          parseTreeManifest text' manifestName limits = .ok entries) := by
  refine ⟨fun text entries h => ?_, fun text text' d d' here there reordered entries => ?_⟩
  · have apart := parseTreeManifest_apart h
    rw [laidOut_iff apart]
    exact and_iff_right apart
  · exact ⟨parseTreeManifest_reordered here there reordered,
      parseTreeManifest_reordered there here reordered.symm⟩

/-! Two manifests. -/

def quoted (text : Text) : Text := 34 :: (text ++ [34])

def field (name value : Text) : Text := quoted name ++ 58 :: quoted value

def zeros : Text := List.replicate 64 48

def entryText (path : Text) : Text :=
  123 :: ([44].intercalate [field (ascii "path") path, field (ascii "size") [48],
    field (ascii "sha256") zeros, field (ascii "mode") (ascii "file")] ++ [125])

/-- The manifest of empty files. -/
def manifestText (paths : List Text) : Text :=
  123 :: (field (ascii "schema") treeManifestSchema ++ 44 :: (quoted (ascii "entries") ++
    58 :: 91 :: ([44].intercalate (paths.map entryText) ++ [93, 125])))

/-- `a/b` and `a/c` are taken, and so are `a` and `a/b`. -/
theorem sample_manifests :
    parseTreeManifest (manifestText [[97, 47, 98], [97, 47, 99]]) [109] {} =
      .ok [⟨[97, 47, 98], 0, zeros⟩, ⟨[97, 47, 99], 0, zeros⟩] ∧
    parseTreeManifest (manifestText [[97], [97, 47, 98]]) [109] {} =
      .ok [⟨[97], 0, zeros⟩, ⟨[97, 47, 98], 0, zeros⟩] := by
  decide +kernel

theorem parseTreeManifest_exact_sample : LaidOut [[109], [97, 47, 98], [97, 47, 99]] := by
  have only {path directory : Text} (member : path ∈ [[109], [97, 47, 98], [97, 47, 99]])
      (under : directory ++ [47] <+: path) : directory = [97] := by
    obtain ⟨rest, whole⟩ := under
    simp only [List.mem_cons, List.not_mem_nil, or_false] at member
    rcases directory with _ | ⟨a, _ | ⟨b, _ | ⟨c, directory⟩⟩⟩ <;>
      rcases member with rfl | rfl | rfl <;> simp_all
  have separate : Separate [[109], [97, 47, 98], [97, 47, 99]] := by
    intro first here second there directory under
    refine ⟨?_, fun other under' _ => by rw [only here under, only there under']⟩
    rw [only here under]
    simp only [List.mem_cons, List.not_mem_nil, or_false] at there
    rcases there with rfl | rfl | rfl <;> decide
  exact (((parseTreeManifest_exact [109] {}).1 _ _ sample_manifests.1).mpr separate).2

/-- A file may be listed together with a file below it. -/
theorem file_below_file : ¬ ∀ manifestName limits text entries,
    parseTreeManifest text manifestName limits = .ok entries →
      Apart (manifestName :: entries.map TreeManifestEntry.path) ∧
        LaidOut (manifestName :: entries.map TreeManifestEntry.path) := by
  intro stated
  obtain ⟨apart, laid⟩ := stated _ _ _ _ sample_manifests.2
  have separate := (laidOut_iff apart).mp laid
  have under : ([97] ++ [47] : Text) <+: [97, 47, 98] := ⟨[98], rfl⟩
  exact (separate [97, 47, 98] (by decide) [97] (by decide) [97] under).1 rfl

end Baas.TreeFormat
