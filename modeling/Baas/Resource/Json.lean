import Mathlib.Data.List.Basic
import Mathlib.Algebra.Group.Nat.Defs

/-! JSON documents and the patch operations on them. Numbers stay abstract: no operation
looks at one. The members of an object are listed in the order of their keys. -/
namespace Baas.Resource

abbrev Text := List UInt8

inductive Json (N : Type)
  | null
  | bool (value : Bool)
  | number (value : N)
  | string (value : Text)
  | array (items : List (Json N))
  | object (members : List (Text × Json N))

variable {N : Type}

def Json.isObject : Json N → Bool
  | .object _ => true
  | _ => false

def slash : UInt8 := 47
def tilde : UInt8 := 126

/-- `~0` stands for `~` and `~1` for `/`. -/
def decodeComponent : Text → Option Text
  | [] => some []
  | c :: rest =>
    if c ≠ tilde then (decodeComponent rest).map (c :: ·)
    else
      match rest with
      | [] => none
      | d :: rest =>
        if d = 48 then (decodeComponent rest).map (tilde :: ·)
        else if d = 49 then (decodeComponent rest).map (slash :: ·)
        else none

def splitPointer (path : Text) : Option (List Text) :=
  if path = [] ∨ path = [slash] then some []
  else if path.head? ≠ some slash then none
  else ((path.drop 1).splitOn slash).mapM decodeComponent

/-- Decimal digits that fit the 64 bits of `size_t`. -/
def arrayIndex (value : Text) : Option Nat :=
  if value = [] ∨ !value.all (fun c => 48 ≤ c && c ≤ 57) then none
  else
    let parsed := value.foldl (fun n c => 10 * n + (c.toNat - 48)) 0
    if parsed < 2 ^ 64 then some parsed else none

def assign (key : Text) (value : Json N) : List (Text × Json N) → List (Text × Json N)
  | [] => [(key, value)]
  | (k, v) :: rest =>
    if k = key then (key, value) :: rest
    else if key < k then (key, value) :: (k, v) :: rest
    else (k, v) :: assign key value rest

def member? (key : Text) (members : List (Text × Json N)) : Option (Json N) :=
  (members.find? (·.1 = key)).map Prod.snd

theorem member?_cons (other name : Text) (value : Json N) (members : List (Text × Json N)) :
    member? other ((name, value) :: members) =
      if name = other then some value else member? other members := by
  by_cases same : name = other <;> simp [member?, same]

theorem member?_assign (name other : Text) (value : Json N) (members : List (Text × Json N)) :
    member? other (assign name value members) =
      if name = other then some value else member? other members := by
  induction members with
  | nil => rw [assign, member?_cons]
  | cons first rest ih =>
    obtain ⟨k, v⟩ := first
    unfold assign
    by_cases found : k = name
    · subst found
      rw [if_pos rfl, member?_cons, member?_cons]
      by_cases same : k = other
      · rw [if_pos same, if_pos same]
      · rw [if_neg same, if_neg same, if_neg same]
    rw [if_neg found]
    by_cases before : name < k
    · rw [if_pos before, member?_cons]
    · rw [if_neg before, member?_cons, member?_cons, ih]
      by_cases here : k = other
      · have apart : name ≠ other := fun same => found (here.trans same.symm)
        rw [if_pos here, if_neg apart, if_pos here]
      · rw [if_neg here, if_neg here]

/-- An operation with its value read. -/
structure PatchItem (N : Type) where
  op : String
  path : Text
  value : Option (Json N)

/-- The last step of an operation, on the container its path leads to. `value` is there
for `add` and `replace`. -/
def applyLeaf (op : String) (leaf : Text) (value : Json N) : Json N → Except String (Json N)
  | .object members =>
    if op = "remove" then
      if (member? leaf members).isNone then .error "Patch path does not exist"
      else .ok (.object (members.filter (·.1 ≠ leaf)))
    else .ok (.object (assign leaf value members))
  | .array items =>
    if op = "add" ∧ leaf = [45] then .ok (.array (items ++ [value]))
    else
      match arrayIndex leaf with
      | none => .error "Patch array index is invalid"
      | some position =>
        if op = "add" then
          if position > items.length then .error "Patch array index is invalid"
          else .ok (.array (items.insertIdx position value))
        else if position ≥ items.length then .error "Patch array index is invalid"
        else if op = "replace" then .ok (.array (items.set position value))
        else .ok (.array (items.eraseIdx position))
  | _ => .error "Patch path parent is not a container"

def applyParts (op : String) (leaf : Text) (value : Json N) :
    List Text → Json N → Except String (Json N)
  | [], document => applyLeaf op leaf value document
  | part :: parts, .object members =>
    match member? part members with
    | none => .error "Patch path does not exist"
    | some child =>
      (applyParts op leaf value parts child).map (fun child => .object (assign part child members))
  | part :: parts, .array items =>
    match (arrayIndex part).bind (fun position => items[position]?.map (position, ·)) with
    | none => .error "Patch array index is invalid"
    | some (position, child) =>
      (applyParts op leaf value parts child).map (fun child => .array (items.set position child))
  | _ :: _, _ => .error "Patch path traverses a scalar"

/-- `apply_operation` after the value has been read. -/
def applyRead (document : Json N) (op : String) (parts : List Text) (value : Option (Json N)) :
    Except String (Json N) :=
  match parts.getLast? with
  | none =>
    if op = "remove" then .error "Cannot remove document root" else .ok (value.getD .null)
  | some leaf => applyParts op leaf (value.getD .null) parts.dropLast document

def needsValue (op : String) : Bool := op = "add" || op = "replace"

structure ResourcePatchOperation where
  op : String
  path : Text
  valueJson : Option Text

/-- `parse` is `parse_json` within the limits of the store. -/
def applyOperation (parse : Text → Option (Json N)) (document : Json N)
    (operation : ResourcePatchOperation) : Except String (Json N) :=
  match splitPointer operation.path with
  | none => .error "Invalid JSON pointer"
  | some parts =>
    if needsValue operation.op then
      match operation.valueJson with
      | none => .error "Patch operation is missing value"
      | some text =>
        match parse text with
        | none => .error "Patch value is invalid"
        | some value => applyRead document operation.op parts (some value)
    else if operation.op ≠ "remove" then .error "Unsupported patch operation"
    else applyRead document operation.op parts none

def applyOperations (parse : Text → Option (Json N)) (document : Json N)
    (operations : List ResourcePatchOperation) : Except String (Json N) :=
  operations.foldlM (applyOperation parse) document

/-- The array that goes out as the operations of an update. -/
def operationsJson (parse : Text → Option (Json N)) (operations : List ResourcePatchOperation) :
    List (PatchItem N) :=
  operations.map (fun operation =>
    ⟨operation.op, operation.path, operation.valueJson.bind parse⟩)

/-! What a subscriber does with an update: a document, or none while the resource is
absent. -/

def PatchItem.removesRoot (item : PatchItem N) : Bool :=
  item.op = "remove" && splitPointer item.path = some []

/-- An operation the subscriber cannot apply leaves what it has. -/
def replayItem (document : Option (Json N)) (item : PatchItem N) : Option (Json N) :=
  if item.removesRoot then none
  else
    match splitPointer item.path with
    | none => document
    | some parts =>
      match applyRead (document.getD .null) item.op parts item.value with
      | .ok next => some next
      | .error _ => document

def replayItems (document : Option (Json N)) (items : List (PatchItem N)) : Option (Json N) :=
  items.foldl replayItem document

theorem applyLeaf_remove (leaf : Text) (value value' : Json N) (document : Json N) :
    applyLeaf "remove" leaf value document = applyLeaf "remove" leaf value' document := by
  cases document <;> simp [applyLeaf]

/-- Removing never looks at a value. -/
theorem applyParts_remove (leaf : Text) (value value' : Json N) (parts : List Text)
    (document : Json N) :
    applyParts "remove" leaf value parts document =
      applyParts "remove" leaf value' parts document := by
  induction parts generalizing document with
  | nil => exact applyLeaf_remove leaf value value' document
  | cons part parts ih =>
    cases document with
    | object members =>
      unfold applyParts
      split
      · rfl
      · rw [ih]
    | array items =>
      unfold applyParts
      split
      · rfl
      · rw [ih]
    | _ => rfl

/-- What the store has applied is what a subscriber computes from the update. -/
theorem replayItem_of_applied {parse : Text → Option (Json N)} {document next : Json N}
    {operation : ResourcePatchOperation}
    (applied : applyOperation parse document operation = .ok next) :
    replayItem (some document)
      ⟨operation.op, operation.path, operation.valueJson.bind parse⟩ = some next := by
  unfold applyOperation at applied
  cases split : splitPointer operation.path with
  | none => simp [split] at applied
  | some parts =>
    simp only [split] at applied
    cases needs : needsValue operation.op with
    | true =>
      have kept : operation.op ≠ "remove" := by
        intro removes
        simp [needsValue, removes] at needs
      simp only [needs, if_true] at applied
      cases text : operation.valueJson with
      | none => simp [text] at applied
      | some text' =>
        cases value : parse text' with
        | none => simp [text, value] at applied
        | some value' =>
          simp only [text, value] at applied
          simp [replayItem, PatchItem.removesRoot, kept, split, value, applied]
    | false =>
      simp only [needs, Bool.false_eq_true, if_false] at applied
      by_cases removes : operation.op = "remove"
      · simp only [removes, ne_eq, not_true_eq_false, if_false] at applied
        cases last : parts.getLast? with
        | none => simp [applyRead, last] at applied
        | some leaf =>
          have inner : parts ≠ [] := by
            rintro rfl
            cases last
          simp only [applyRead, last] at applied
          have same := applyParts_remove leaf ((operation.valueJson.bind parse).getD .null)
            ((none : Option (Json N)).getD .null) parts.dropLast document
          rw [applied] at same
          simp [replayItem, PatchItem.removesRoot, split, inner, applyRead, last, removes, same]
      · simp [removes] at applied

theorem replayItems_of_applied {parse : Text → Option (Json N)} {document next : Json N}
    {operations : List ResourcePatchOperation}
    (applied : applyOperations parse document operations = .ok next) :
    replayItems (some document) (operationsJson parse operations) = some next := by
  induction operations generalizing document with
  | nil =>
    cases applied
    rfl
  | cons operation rest ih =>
    unfold applyOperations at applied
    rw [List.foldlM_cons] at applied
    cases first : applyOperation parse document operation with
    | error error => simp [first, bind, Except.bind] at applied
    | ok mid =>
      rw [first] at applied
      have later := ih applied
      show replayItems (replayItem (some document) _) (operationsJson parse rest) = some next
      rw [replayItem_of_applied first]
      exact later

end Baas.Resource
