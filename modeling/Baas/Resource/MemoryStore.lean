import Baas.Auth.CanonicalJson
import Baas.Resource.Store

/-! `InMemoryResourceStore`: the documents of the sync channel as texts, patched under one
lock. Every call is one step: what it reads and writes lies between its first and its last
use of the lock, and its update is handed out afterwards. -/
namespace Baas.Resource.Memory

open Transition

structure MemoryStoreLimits extends ResourceStoreLimits where
  maxJsonDepth : Nat := 64
  maxJsonNodes : Nat := 65536

/-- What the JSON library does. `parse` refuses an object that gives a member twice, `dump`
throws on a string that is not UTF-8, and `double` is the finite double of a number. -/
structure JsonLibrary (N T : Type) where
  parse : Text → Option (Json N)
  dump : Json N → Option Text
  double : N → Option T
  number : T → N

structure StoredSnapshot where
  timestampJson : Text
  dataJson : Text
deriving DecidableEq

structure StoredUpdate where
  key : ResourceKey
  timestampJson : Text
  operationsJson : Text
  origin : Text
deriving DecidableEq

variable {N T : Type}

mutual

/-- `bounded_tree`: the nodes counted so far, unless there are too many or they lie too
deep. -/
def boundedTree (limits : MemoryStoreLimits) : Nat → Json N → Nat → Option Nat
  | depth, .array items, nodes =>
    if limits.maxJsonNodes < nodes + 1 ∨ limits.maxJsonDepth < depth then none
    else boundedItems limits (depth + 1) items (nodes + 1)
  | depth, .object members, nodes =>
    if limits.maxJsonNodes < nodes + 1 ∨ limits.maxJsonDepth < depth then none
    else boundedMembers limits (depth + 1) members (nodes + 1)
  | depth, _, nodes =>
    if limits.maxJsonNodes < nodes + 1 ∨ limits.maxJsonDepth < depth then none
    else some (nodes + 1)

def boundedItems (limits : MemoryStoreLimits) : Nat → List (Json N) → Nat → Option Nat
  | _, [], nodes => some nodes
  | depth, item :: items, nodes =>
    match boundedTree limits depth item nodes with
    | none => none
    | some nodes => boundedItems limits depth items nodes

def boundedMembers (limits : MemoryStoreLimits) : Nat → List (Text × Json N) → Nat → Option Nat
  | _, [], nodes => some nodes
  | depth, (_, item) :: members, nodes =>
    match boundedTree limits depth item nodes with
    | none => none
    | some nodes => boundedMembers limits depth members nodes

end

def bounded (limits : MemoryStoreLimits) (value : Json N) : Bool :=
  (boundedTree limits 0 value 0).isSome

variable (library : JsonLibrary N T) (limits : MemoryStoreLimits)

def parseJson (text : Text) : Option (Json N) :=
  if limits.maxJsonBytes < text.length then none
  else
    match library.parse text with
    | none => none
    | some value => if bounded limits value then some value else none

def timestampOf : Json N → Option T
  | .number n => library.double n
  | _ => none

def timestampValue (text : Text) : Option T :=
  (parseJson library limits text).bind (timestampOf library)

/-- `timestamp_json`: numbers are always written. -/
def timestampJson (time : T) : Text := (library.dump (.number (library.number time))).getD []

def validSnapshot (snapshot : StoredSnapshot) : Bool :=
  (timestampValue library limits snapshot.timestampJson).isSome &&
    (parseJson library limits snapshot.dataJson).isSome

/-- This store words one refusal in its own way. -/
def reworded (error : String) : String :=
  if error = "Patch path parent is not a container" then "Patch parent is not a container"
  else error

def composed (document : Json N) (operations : List ResourcePatchOperation) :
    Except String (Json N) :=
  (applyOperations (parseJson library limits) document operations).mapError reworded

/-- One operation as it goes out; its members are in the order of their names. -/
def operationJson (operation : ResourcePatchOperation) : Option (Json N) :=
  let head : List (Text × Json N) :=
    [(utf8 "op", .string (utf8 operation.op)), (utf8 "path", .string operation.path)]
  match operation.valueJson with
  | none => some (.object head)
  | some text => (library.parse text).map (fun value => .object (head ++ [(utf8 "value", value)]))

/-- `operations_json(..).dump()`, where nothing on the way throws. -/
def serializedOperations (operations : List ResourcePatchOperation) : Option Text :=
  (operations.mapM (operationJson library)).bind (fun items => library.dump (.array items))

/-- The bytes of the operations, counted part by part. -/
def addBytes (used : Nat) (components : List Nat) : Option Nat :=
  components.foldlM (fun used component =>
    if limits.maxJsonBytes < component ∨ limits.maxJsonBytes - component < used then none
    else some (used + component)) used

def operationParts (operation : ResourcePatchOperation) : List Nat :=
  [(utf8 operation.op).length, operation.path.length,
    ((operation.valueJson.map List.length).getD 0), 48]

def checkOperations : Nat → List ResourcePatchOperation → ResourceStoreError
  | _, [] => .none
  | used, operation :: rest =>
    match addBytes limits used (operationParts operation) with
    | none => .capacity
    | some used =>
      if operation.valueJson.any (fun text => (parseJson library limits text).isNone) then
        .invalidData
      else checkOperations used rest

def knownOperation (operation : ResourcePatchOperation) : Bool :=
  (operation.op = "add" || operation.op = "remove" || operation.op = "replace") &&
    (splitPointer operation.path).isSome

/-- `apply_patch` before it takes the lock: the expected time and the text of the
operations. -/
def checkRequest (request : ResourcePatchRequest) : Except ResourceStoreError (T × Text) :=
  if limits.maxPatchOperations < request.operations.length then .error .capacity
  else
    match timestampValue library limits request.expectedTimestampJson with
    | none => .error .invalidData
    | some expected =>
      if request.key.resource = .staticData ∨
          request.key.resourceId.any (fun id => limits.maxResourceIdBytes < id.length) then
        .error .invalidData
      else if !request.operations.all knownOperation then .error .invalidData
      else
        match checkOperations library limits 2 request.operations with
        | .none =>
          match serializedOperations library request.operations with
          | none => .error .invalidData
          | some text =>
            if limits.maxJsonBytes < text.length then .error .capacity else .ok (expected, text)
        | error => .error error

structure MemoryPatchResult where
  disposition : ResourcePatchDisposition
  snapshot : StoredSnapshot
  error : String
deriving DecidableEq

/-- What a call of `apply_patch` comes to. -/
inductive PatchAnswer
  | threw
  | failed (error : ResourceStoreError)
  | answered (result : MemoryPatchResult)
deriving DecidableEq

abbrev Resources := OrderedMap ResourceKey StoredSnapshot

/-- What a call leaves and what it publishes. -/
structure Effect (α : Type) where
  resources : Resources
  answer : α
  published : List StoredUpdate

def untouched {α : Type} (resources : Resources) (answer : α) : Effect α := ⟨resources, answer, []⟩

def conflict (resources : Resources) (snapshot : StoredSnapshot) (error : String) :
    Effect PatchAnswer :=
  untouched resources (.answered ⟨.conflict, snapshot, error⟩)

/-- The commit of `apply_patch`, once the operations have been applied to `document`. -/
def commit [LinearOrder T] (resources : Resources) (key : ResourceKey) (expected : T)
    (operations : Text) (document : Json N) (clock : Option T) : Effect PatchAnswer :=
  match clock with
  | none => untouched resources (.failed .internalError)
  | some now =>
    match library.dump document with
    | none => untouched resources .threw
    | some dataJson =>
      let snapshot : StoredSnapshot := ⟨timestampJson library (max expected now), dataJson⟩
      if limits.maxJsonBytes < dataJson.length then untouched resources (.failed .capacity)
      else ⟨resources.insert key snapshot, .answered ⟨.applied, snapshot, ""⟩,
        [⟨key, snapshot.timestampJson, operations, utf8 "frontend"⟩]⟩

/-- `apply_patch` from the lookup on. -/
def applyLocked [LinearOrder T] (resources : Resources) (request : ResourcePatchRequest)
    (expected : T) (operations : Text) (clock : Option T) : Effect PatchAnswer :=
  match resources.find? request.key with
  | none => untouched resources (.failed .notFound)
  | some found =>
    match timestampValue library limits found.timestampJson with
    | none => untouched resources (.failed .internalError)
    | some current =>
      if expected < current then
        conflict resources found "Incoming patch is older than current snapshot"
      else
        match parseJson library limits found.dataJson with
        | none => untouched resources (.failed .internalError)
        | some document =>
          match composed library limits document request.operations with
          | .error error => conflict resources found error
          | .ok next => commit library limits resources request.key expected operations next clock

/-- `clock` is what the clock gives: nothing where it throws or is not finite. -/
def applyPatch [LinearOrder T] (resources : Resources) (request : ResourcePatchRequest)
    (stopped : Bool) (clock : Option T) : Effect PatchAnswer :=
  if stopped then untouched resources (.failed .internalError)
  else
    match checkRequest library limits request with
    | .error error => untouched resources (.failed error)
    | .ok (expected, operations) =>
      applyLocked library limits resources request expected operations clock

def isArray : Json N → Bool
  | .array _ => true
  | _ => false

def replaceAndPublish (resources : Resources) (key : ResourceKey) (snapshot : StoredSnapshot)
    (operations origin : Text) : Effect Bool :=
  if key.resourceId.any (fun id => limits.maxResourceIdBytes < id.length || !Auth.validUtf8 id) ∨
      limits.maxOriginBytes < origin.length ∨ !Auth.validUtf8 origin then
    untouched resources false
  else if !validSnapshot library limits snapshot ∨
      !(parseJson library limits operations).any isArray then untouched resources false
  else
    match resources.find? key with
    | none => untouched resources false
    | some _ => ⟨resources.insert key snapshot, true,
        [⟨key, snapshot.timestampJson, operations, origin⟩]⟩

inductive Call (T : Type)
  | applyPatch (request : ResourcePatchRequest) (stopped : Bool) (clock : Option T)
  | replaceAndPublish (key : ResourceKey) (snapshot : StoredSnapshot) (operations origin : Text)

inductive Answer
  | patch (answer : PatchAnswer)
  | replaced (done : Bool)

/-- A call with its answer and its updates. -/
structure Exchange (T : Type) where
  call : Call T
  answer : Answer
  published : List StoredUpdate

def perform [LinearOrder T] (resources : Resources) : Call T → Effect Answer
  | .applyPatch request stopped clock =>
    let done := applyPatch library limits resources request stopped clock
    ⟨done.resources, .patch done.answer, done.published⟩
  | .replaceAndPublish key snapshot operations origin =>
    let done := replaceAndPublish library limits resources key snapshot operations origin
    ⟨done.resources, .replaced done.answer, done.published⟩

/-- The constructor's map, unless it throws. -/
def construct : List (ResourceKey × StoredSnapshot) → Resources → Option Resources
  | [], resources => some resources
  | (key, snapshot) :: rest, resources =>
    if key.resourceId.any (fun id => limits.maxResourceIdBytes < id.length) ∨
        !validSnapshot library limits snapshot ∨ resources.contains key then none
    else construct rest (resources.insert key snapshot)

/-- A store from its constructor on. -/
def storeSystem [LinearOrder T] : System Resources (Exchange T) where
  start s := ∃ initial : List (ResourceKey × StoredSnapshot),
    initial.length ≤ limits.maxResources ∧ construct library limits initial .empty = some s
  step s e t := perform library limits s e.call = ⟨t, e.answer, e.published⟩

end Baas.Resource.Memory
