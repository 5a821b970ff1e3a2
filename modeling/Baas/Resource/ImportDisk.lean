import Mathlib.Data.List.Infix
import Baas.Lib.ByteOrder
import Baas.Lib.Durable
import Baas.Lib.OrderedMap
import Baas.Resource.Json

/-! The `config` directory as `import_config` and its recovery see it: files and directory
trees by name, and the writes that are each durable on their own. -/
namespace Baas.Resource.Import

open Durable

/-- The components of a path below a directory. -/
abbrev Path := List Text

inductive Node
  | file (bytes : Text)
  | directory

/-- A directory with everything below it. -/
abbrev Tree := OrderedMap Path Node

inductive Entry
  | file (bytes : Text)
  | directory (tree : Tree)

abbrev Disk := OrderedMap Text Entry

inductive PathKind
  | missing | regularFile | directory
deriving DecidableEq

def pathKind (d : Disk) (name : Text) : PathKind :=
  match d.find? name with
  | none => .missing
  | some (.file _) => .regularFile
  | some (.directory _) => .directory

inductive Op
  /-- `openat` with `O_EXCL`: the name, with no bytes yet. -/
  | create (name : Text)
  | append (name : Text) (bytes : Text)
  | makeDirectory (name : Text)
  /-- A directory, a new name or more bytes of a file below a directory. -/
  | put (directory : Text) (path : Path) (node : Node)
  | rename (source target : Text)
  | removeFile (name : Text)
  | removeBelow (directory : Text) (path : Path)
  /-- One step of `remove_all`. -/
  | removePiece (directory : Text)

/-- A path that nothing in the tree is below. -/
def Leaf (tree : Tree) (path : Path) : Prop :=
  (tree.find? path).isSome ∧ ∀ other, (tree.find? other).isSome → path <+: other → other = path

/-- `remove_all` takes the pieces of a tree one by one, whatever has nothing below it, and
the directory itself last. -/
inductive Piece (directory : Text) (d : Disk) : Bool → Disk → Prop
  | leaf {tree : Tree} {path : Path} : d.find? directory = some (.directory tree) →
      Leaf tree path → Piece directory d true (d.insert directory (.directory (tree.erase path)))
  | last {tree : Tree} : d.find? directory = some (.directory tree) → tree.toList = [] →
      Piece directory d true (d.erase directory)
  | other : (∀ tree, d.find? directory ≠ some (.directory tree)) → Piece directory d false d

/-- The writes with one outcome. -/
def perform (d : Disk) : Op → Bool × Disk
  | .create name =>
    match d.find? name with
    | none => (true, d.insert name (.file []))
    | some _ => (false, d)
  | .append name bytes =>
    match d.find? name with
    | some (.file old) => (true, d.insert name (.file (old ++ bytes)))
    | _ => (false, d)
  | .makeDirectory name =>
    match d.find? name with
    | none => (true, d.insert name (.directory .empty))
    | some _ => (false, d)
  | .put directory path node =>
    match d.find? directory with
    | some (.directory tree) => (true, d.insert directory (.directory (tree.insert path node)))
    | _ => (false, d)
  | .rename source target =>
    match d.find? source, d.find? target with
    | some entry, none => (true, (d.erase source).insert target entry)
    | _, _ => (false, d)
  | .removeFile name =>
    match d.find? name with
    | some (.directory _) => (false, d)
    | _ => (true, d.erase name)
  | .removeBelow directory path =>
    match d.find? directory with
    | some (.directory tree) => (true, d.insert directory (.directory (tree.erase path)))
    | _ => (false, d)
  | .removePiece _ => (false, d)

def effect : Op → Disk → Bool → Disk → Prop
  | .removePiece directory, d, ok, t => Piece directory d ok t
  | op, d, ok, t => perform d op = (ok, t)

/-- The deepest path of a tree is a leaf. -/
theorem exists_leaf {tree : Tree} (inhabited : tree.toList ≠ []) : ∃ path, Leaf tree path := by
  have deepest : ∀ l : List (Path × Node), l ≠ [] →
      ∃ p ∈ l, ∀ q ∈ l, q.1.length ≤ p.1.length := by
    intro l
    induction l with
    | nil => exact fun h => absurd rfl h
    | cons p rest ih =>
      intro _
      by_cases empty : rest = []
      · subst empty
        exact ⟨p, by simp, by simp⟩
      · obtain ⟨q, member, longest⟩ := ih empty
        by_cases longer : q.1.length ≤ p.1.length
        · refine ⟨p, by simp, fun r there => ?_⟩
          obtain rfl | later := List.mem_cons.mp there
          · exact le_rfl
          · exact (longest r later).trans longer
        · refine ⟨q, by simp [member], fun r there => ?_⟩
          obtain rfl | later := List.mem_cons.mp there
          · omega
          · exact longest r later
  obtain ⟨⟨path, node⟩, member, longest⟩ := deepest tree.toList inhabited
  refine ⟨path, ?_, ?_⟩
  · rw [OrderedMap.mem_toList_iff.mp member]
    rfl
  · intro other there below
    obtain ⟨node', found⟩ := Option.isSome_iff_exists.mp there
    have shorter := longest (other, node') (OrderedMap.mem_toList_iff.mpr found)
    exact (below.eq_of_length_le shorter).symm

def disk : Medium Disk Op where
  effect := effect
  total := by
    intro op d
    cases op with
    | removePiece directory =>
      cases found : d.find? directory with
      | none => exact ⟨false, d, .other (by simp [found])⟩
      | some entry =>
        cases entry with
        | file bytes => exact ⟨false, d, .other (by simp [found])⟩
        | directory tree =>
          by_cases empty : tree.toList = []
          · exact ⟨true, _, .last found empty⟩
          · obtain ⟨path, leaf⟩ := exists_leaf empty
            exact ⟨true, _, .leaf found leaf⟩
    | _ => exact ⟨_, _, rfl⟩

abbrev Script := Prog Disk Op

end Baas.Resource.Import
