import Baas.Lib.JsonPointer
import Baas.Lib.OrderedMap
import Baas.Resource.MemoryStoreRun

/-! What JSON Patch prescribes for `add`, `remove` and `replace`, and what the operations of
the sync channel make of a document. The members of an object are compared by what each name
is bound to, so nothing here depends on how an object is stored. -/
namespace Baas.Resource.Patch

open JsonPointer Memory

variable {N T : Type}

/-- The three places where a reading of the standard can be lenient. -/
structure Reading where
  pointer : Text → List Text → Prop
  index : Text → Nat → Prop
  /-- `replace` gives an object a member it does not have. -/
  replaceAdds : Prop

def rfc : Reading where
  pointer := Pointer
  index := Index
  replaceAdds := False

/-- What the service accepts: `/` is the whole document as well, an index may begin with
zeros, and `replace` adds an absent member. -/
def service : Reading where
  pointer path names := if path = [slash] then names = [] else Pointer path names
  index text n := text ≠ [] ∧ text.all Decimal.isDigit ∧ Decimal.valueOf text = n ∧ n < 2 ^ 64
  replaceAdds := True

inductive Operation (N : Type)
  | add (value : Json N)
  | replace (value : Json N)
  | remove

def Operation.name : Operation N → String
  | .add _ => "add"
  | .replace _ => "replace"
  | .remove => "remove"

def Operation.value : Operation N → Option (Json N)
  | .add value => some value
  | .replace value => some value
  | .remove => none

/-- The members before and after differ at most in what `name` is bound to. -/
def Rebinds (name : Text) (binding : Option (Json N)) (before after : List (Text × Json N)) :
    Prop :=
  ∀ other, member? other after = if name = other then binding else member? other before

/-- What an operation makes of the container its target lies in. -/
inductive AtLeaf (reading : Reading) : Operation N → Text → Json N → Json N → Prop
  | addMember {value : Json N} {name : Text} {before after : List (Text × Json N)} :
      Rebinds name (some value) before after →
      AtLeaf reading (.add value) name (.object before) (.object after)
  | replaceMember {value : Json N} {name : Text} {before after : List (Text × Json N)} :
      reading.replaceAdds ∨ (member? name before).isSome →
      Rebinds name (some value) before after →
      AtLeaf reading (.replace value) name (.object before) (.object after)
  | removeMember {name : Text} {before after : List (Text × Json N)} :
      (member? name before).isSome → Rebinds name none before after →
      AtLeaf reading .remove name (.object before) (.object after)
  | append {value : Json N} {items : List (Json N)} :
      AtLeaf reading (.add value) [45] (.array items) (.array (items ++ [value]))
  | addItem {value : Json N} {text : Text} {front back : List (Json N)} :
      reading.index text front.length →
      AtLeaf reading (.add value) text (.array (front ++ back)) (.array (front ++ value :: back))
  | replaceItem {value old : Json N} {text : Text} {front back : List (Json N)} :
      reading.index text front.length →
      AtLeaf reading (.replace value) text (.array (front ++ old :: back))
        (.array (front ++ value :: back))
  | removeItem {old : Json N} {text : Text} {front back : List (Json N)} :
      reading.index text front.length →
      AtLeaf reading .remove text (.array (front ++ old :: back)) (.array (front ++ back))

/-- What an operation makes of a document, by the tokens of its path. The document itself can
be replaced but not removed. -/
inductive Prescribed (reading : Reading) (operation : Operation N) :
    List Text → Json N → Json N → Prop
  | whole {value before : Json N} :
      operation = .add value ∨ operation = .replace value →
      Prescribed reading operation [] before value
  | leaf {name : Text} {before after : Json N} :
      AtLeaf reading operation name before after → Prescribed reading operation [name] before after
  | member {name : Text} {names : List Text} {child child' : Json N}
      {before after : List (Text × Json N)} :
      names ≠ [] → member? name before = some child →
      Prescribed reading operation names child child' →
      Rebinds name (some child') before after →
      Prescribed reading operation (name :: names) (.object before) (.object after)
  | item {text : Text} {names : List Text} {child child' : Json N} {front back : List (Json N)} :
      names ≠ [] → reading.index text front.length →
      Prescribed reading operation names child child' →
      Prescribed reading operation (text :: names) (.array (front ++ child :: back))
        (.array (front ++ child' :: back))

/-- The operation that a patch entry states; `remove` has no use for a value. -/
inductive States (parse : Text → Option (Json N)) :
    ResourcePatchOperation → Operation N → Prop
  | add {path text : Text} {value : Json N} : parse text = some value →
      States parse ⟨"add", path, some text⟩ (.add value)
  | replace {path text : Text} {value : Json N} : parse text = some value →
      States parse ⟨"replace", path, some text⟩ (.replace value)
  | remove {path : Text} {text : Option Text} : States parse ⟨"remove", path, text⟩ .remove

/-- The documents that a list of entries leads to, one entry after another. -/
inductive Patched (reading : Reading) (parse : Text → Option (Json N)) :
    List ResourcePatchOperation → Json N → Json N → Prop
  | done {document : Json N} : Patched reading parse [] document document
  | next {entry : ResourcePatchOperation} {entries : List ResourcePatchOperation}
      {operation : Operation N} {names : List Text} {before between after : Json N} :
      States parse entry operation → reading.pointer entry.path names →
      Prescribed reading operation names before between → Canonical between →
      Patched reading parse entries between after →
      Patched reading parse (entry :: entries) before after

end Baas.Resource.Patch
