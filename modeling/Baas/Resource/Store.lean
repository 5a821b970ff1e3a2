import Mathlib.Data.Prod.Lex
import Baas.Lib.ByteOrder
import Baas.Lib.JsonText
import Baas.Lib.OrderedMap
import Baas.Lib.Transition
import Baas.Resource.Json

/-! `FileResourceStore`: a cache of the documents on disk, and the updates that announce
its changes. Every operation holds `mutation_mutex` from its first look at the cache to
the enqueueing of its update, so a call is one step. What the files hold when the call
reads them, the clock and what can fail on the way are arguments of the call. -/
namespace Baas.Resource

open Transition

inductive SyncResource
  | config | event | gui | staticData | setupToml
deriving DecidableEq

def SyncResource.index : SyncResource → Nat
  | .config => 0
  | .event => 1
  | .gui => 2
  | .staticData => 3
  | .setupToml => 4

structure ResourceKey where
  resource : SyncResource
  resourceId : Option Text
deriving DecidableEq

/-- A text for each id, the empty one for none. -/
def idCode : Option Text → Text
  | none => []
  | some id => 0 :: id

def ResourceKey.code (key : ResourceKey) : ℕ ×ₗ Text :=
  toLex (key.resource.index, idCode key.resourceId)

theorem code_injective : Function.Injective ResourceKey.code := by
  rintro ⟨resource, id⟩ ⟨resource', id'⟩ same
  have pairs := congrArg ofLex same
  have ids : idCode id = idCode id' := congrArg Prod.snd pairs
  have resources : resource.index = resource'.index := congrArg Prod.fst pairs
  have sameId : id = id' := by
    cases id <;> cases id' <;> simp_all [idCode]
  have sameResource : resource = resource' := by
    cases resource <;> cases resource' <;> simp_all [SyncResource.index]
  rw [sameId, sameResource]

instance : LinearOrder ResourceKey := LinearOrder.lift' ResourceKey.code code_injective

inductive ResourceStoreError
  | none | notFound | invalidData | capacity | internalError
deriving DecidableEq

structure ResourceStoreLimits where
  maxJsonBytes : Nat := 1024 * 1024
  maxResources : Nat := 4096
  maxPatchOperations : Nat := 1024
  maxResourceIdBytes : Nat := 256
  maxOriginBytes : Nat := 64

/-- `data_json` is the compact text of a document; timestamps are finite doubles, of
which only the order matters. -/
structure ResourceSnapshot (T : Type) where
  timestamp : T
  dataJson : Text

/-- A file as a call has read it. `sourceBytes` are those of `setup.toml`. -/
structure LoadedResource (N T : Type) where
  modified : T
  document : Json N
  sourceBytes : Text

abbrev LoadResult (N T : Type) := Except ResourceStoreError (LoadedResource N T)

/-- What the JSON library and the TOML projection do, within the limits of the store. -/
structure Codec (N T : Type) where
  /-- `parse_json` with the bounds of the store. -/
  parse : Text → Option (Json N)
  /-- `dump()`. -/
  dump : Json N → Text
  /-- `dump(2)`, what a JSON resource is written as. -/
  pretty : Json N → Text
  /-- The text of the operations of an update. -/
  dumpItems : List (PatchItem N) → Text
  bounded : Json N → Bool
  timestampValue : Text → Option T
  projectSetupToml : Text → Option (Json N)
  mergeSetupToml : Text → Json N → Option Text
  validUtf8 : Text → Bool

variable {N T : Type}

structure ResourceUpdate (N T : Type) where
  key : ResourceKey
  timestamp : T
  operations : List (PatchItem N)
  origin : Text

structure ResourcePatchRequest where
  key : ResourceKey
  expectedTimestampJson : Text
  operations : List ResourcePatchOperation

inductive AtomicWriteResult
  | notCommitted | committed | committedDurabilityUncertain
deriving DecidableEq

inductive ResourcePatchDisposition
  | applied | conflict
deriving DecidableEq

structure ResourcePatchResult (T : Type) where
  disposition : ResourcePatchDisposition
  snapshot : ResourceSnapshot T
  error : String

inductive ResourceRefreshDisposition
  | updated | unchanged | removed | notFound | invalidData | capacity | internalError
deriving DecidableEq

structure ResourceRefreshResult (T : Type) where
  snapshot : Option (ResourceSnapshot T)
  disposition : ResourceRefreshDisposition
  published : Bool

/-- `published` lists the updates in the order they were enqueued. -/
structure State (N T : Type) where
  limits : ResourceStoreLimits
  resources : OrderedMap ResourceKey (ResourceSnapshot T) := .empty
  published : List (ResourceUpdate N T) := []

def utf8 (text : String) : Text := text.toUTF8.toList

theorem utf8_eq (text : String) : utf8 text = text.toUTF8.data.toList := JsonText.ascii_eq text

def controlOrSeparator (c : UInt8) : Bool :=
  c = 47 || c = 92 || c = 58 || c < 32 || c = 127

def validResourceId (codec : Codec N T) (value : Text) (maximum : Nat) : Bool :=
  !value.isEmpty && value.length ≤ maximum && codec.validUtf8 value && value ≠ utf8 "." &&
    value ≠ utf8 ".." && !(utf8 ".baas-").isPrefixOf value && !value.any controlOrSeparator

def validKey (codec : Codec N T) (limits : ResourceStoreLimits) (key : ResourceKey) : Bool :=
  match key.resource, key.resourceId with
  | .config, some id => validResourceId codec id limits.maxResourceIdBytes
  | .event, some id => validResourceId codec id limits.maxResourceIdBytes
  | .config, none => false
  | .event, none => false
  | .setupToml, some id => id = utf8 "global"
  | .setupToml, none => true
  | _, id => id.isNone

def canonicalKey (key : ResourceKey) : ResourceKey :=
  if key.resource = .setupToml then { key with resourceId := some (utf8 "global") } else key

/-- What `load` makes of a file it could read and parse. -/
def loadedSnapshot (codec : Codec N T) (loaded : LoadedResource N T) : ResourceSnapshot T :=
  ⟨loaded.modified, codec.dump loaded.document⟩

def pull (codec : Codec N T) (s : State N T) (key : ResourceKey) (stopped : Bool)
    (load : LoadResult N T) : State N T × Except ResourceStoreError (ResourceSnapshot T) :=
  if stopped then (s, .error .internalError)
  else if !validKey codec s.limits key then (s, .error .invalidData)
  else
    match load with
    | .error error => (s, .error error)
    | .ok loaded =>
      match s.resources.find? (canonicalKey key) with
      | some found =>
        (s, .ok (if found.dataJson = codec.dump loaded.document then found
          else loadedSnapshot codec loaded))
      | none =>
        if s.resources.size ≥ s.limits.maxResources then (s, .error .capacity)
        else
          ({ s with
              resources := s.resources.insert (canonicalKey key) (loadedSnapshot codec loaded) },
            .ok (loadedSnapshot codec loaded))

/-- The bytes the operations may take, counted before anything is parsed. -/
def operationBytes (operation : ResourcePatchOperation) : Nat :=
  operation.op.utf8ByteSize + operation.path.length +
    ((operation.valueJson.map List.length).getD 0) + 48

def validOperation (codec : Codec N T) (operation : ResourcePatchOperation) : Bool :=
  (operation.op = "add" || operation.op = "remove" || operation.op = "replace") &&
    (splitPointer operation.path).isSome &&
    operation.valueJson.all (fun text => (codec.parse text).isSome)

/-- The loop over the operations, which stops at the first one at fault. -/
def checkOperations (codec : Codec N T) (limits : ResourceStoreLimits) :
    Nat → List ResourcePatchOperation → ResourceStoreError
  | _, [] => .none
  | used, operation :: rest =>
    if used + operationBytes operation > limits.maxJsonBytes then .capacity
    else if !validOperation codec operation then .invalidData
    else checkOperations codec limits (used + operationBytes operation) rest

/-- `apply_patch` before it takes a lock: the canonical key and the expected time. -/
def checkRequest (codec : Codec N T) (limits : ResourceStoreLimits)
    (request : ResourcePatchRequest) : Except ResourceStoreError (ResourceKey × T) :=
  if request.operations.length > limits.maxPatchOperations then .error .capacity
  else if !validKey codec limits request.key then .error .invalidData
  else if request.key.resource = .staticData then .error .invalidData
  else
    match codec.timestampValue request.expectedTimestampJson with
    | none => .error .invalidData
    | some expected =>
      match checkOperations codec limits 2 request.operations with
      | .none =>
        if (codec.dumpItems (operationsJson codec.parse request.operations)).length >
            limits.maxJsonBytes then .error .capacity
        else .ok (canonicalKey request.key, expected)
      | error => .error error

/-- The readings of one `apply_patch`: the file for the cache, the file it compares with
the cache, the clock, `validate_existing_path`, whether the update could be built, and
the writer. -/
structure PatchReadings (N T : Type) where
  stopped : Bool
  first : LoadResult N T
  disk : LoadResult N T
  clock : Option T
  pathError : ResourceStoreError
  prepared : Bool
  write : AtomicWriteResult

/-- What is written and announced: the bytes of the file, the committed document and the
operations of the update. -/
def planCommit (codec : Codec N T) (limits : ResourceStoreLimits) (key : ResourceKey)
    (operations : List ResourcePatchOperation) (sourceBytes : Text) (document : Json N) :
    Except ResourceStoreError (Json N × List (PatchItem N)) :=
  if key.resource = .setupToml then
    match codec.mergeSetupToml sourceBytes document with
    | none => .error .invalidData
    | some bytes =>
      if bytes.length > limits.maxJsonBytes then .error .capacity
      else
        match codec.projectSetupToml bytes with
        | none => .error .internalError
        | some committed =>
          let items := [⟨"replace", [], some committed⟩]
          if (codec.dumpItems items).length > limits.maxJsonBytes then .error .capacity
          else .ok (committed, items)
  else if (codec.pretty document).length > limits.maxJsonBytes then .error .capacity
  else .ok (document, operationsJson codec.parse operations)

def conflict (s : State N T) (snapshot : ResourceSnapshot T) (error : String) :
    State N T × Except ResourceStoreError (ResourcePatchResult T) :=
  (s, .ok ⟨.conflict, snapshot, error⟩)

/-- `apply_patch` once the cache and the file agree on `found`. -/
def commitPatch [LinearOrder T] (codec : Codec N T) (s : State N T) (key : ResourceKey)
    (expected : T) (operations : List ResourcePatchOperation) (readings : PatchReadings N T)
    (found : ResourceSnapshot T) (sourceBytes : Text) :
    State N T × Except ResourceStoreError (ResourcePatchResult T) :=
  if expected < found.timestamp then
    conflict s found "Incoming patch is older than current snapshot"
  else
    match codec.parse found.dataJson with
    | none => (s, .error .internalError)
    | some document =>
      match applyOperations codec.parse document operations with
      | .error error => conflict s found error
      | .ok document =>
        if key.resource = .setupToml ∧ !document.isObject then
          conflict s found "Setup patch must result in an object"
        else if !codec.bounded document then (s, .error .capacity)
        else
          match readings.clock with
          | none => (s, .error .internalError)
          | some now =>
            match planCommit codec s.limits key operations sourceBytes document with
            | .error error => (s, .error error)
            | .ok (committed, items) =>
              if readings.pathError ≠ .none then (s, .error readings.pathError)
              else if !readings.prepared ∨ readings.write = .notCommitted then
                (s, .error .internalError)
              else
                let snapshot : ResourceSnapshot T := ⟨max expected now, codec.dump committed⟩
                ({ s with
                    resources := s.resources.insert key snapshot
                    published := s.published ++
                      [⟨key, snapshot.timestamp, items, utf8 "frontend"⟩] },
                  .ok ⟨.applied, snapshot, ""⟩)

/-- The cached snapshot a patch starts from, loaded when there is none. -/
def cacheFirst (codec : Codec N T) (s : State N T) (key : ResourceKey) (first : LoadResult N T) :
    Except ResourceStoreError (State N T × ResourceSnapshot T) :=
  match s.resources.find? key with
  | some found => .ok (s, found)
  | none =>
    match first with
    | .error error => .error error
    | .ok loaded =>
      if s.resources.size ≥ s.limits.maxResources then .error .capacity
      else
        .ok ({ s with resources := s.resources.insert key (loadedSnapshot codec loaded) },
          loadedSnapshot codec loaded)

def applyPatch [LinearOrder T] (codec : Codec N T) (s : State N T)
    (request : ResourcePatchRequest) (readings : PatchReadings N T) :
    State N T × Except ResourceStoreError (ResourcePatchResult T) :=
  match checkRequest codec s.limits request with
  | .error error => (s, .error error)
  | .ok (key, expected) =>
    if readings.stopped then (s, .error .internalError)
    else
      match cacheFirst codec s key readings.first with
      | .error error => (s, .error error)
      | .ok (s, found) =>
        match readings.disk with
        | .error error => (s, .error error)
        | .ok disk =>
          if codec.dump disk.document ≠ found.dataJson then
            conflict { s with resources := s.resources.insert key (loadedSnapshot codec disk) }
              (loadedSnapshot codec disk) "Resource changed outside the store"
          else commitPatch codec s key expected request.operations readings found disk.sourceBytes

def refreshFailure : ResourceStoreError → ResourceRefreshDisposition
  | .notFound => .notFound
  | .invalidData => .invalidData
  | .capacity => .capacity
  | .none => .internalError
  | .internalError => .internalError

def rootRemove : List (PatchItem N) := [⟨"remove", [], none⟩]

/-- A cached key leaves the cache: announced when the clock gives a finite time and the
update can be built, silently otherwise. -/
def retire (s : State N T) (key : ResourceKey) (origin : Text) (clock : Option T)
    (prepared : Bool) : State N T × Bool :=
  match clock with
  | none => ({ s with resources := s.resources.erase key }, false)
  | some now =>
    if !prepared then ({ s with resources := s.resources.erase key }, false)
    else
      ({ s with
          resources := s.resources.erase key
          published := s.published ++ [⟨key, now, rootRemove, origin⟩] }, true)

def refresh (codec : Codec N T) (s : State N T) (key : ResourceKey) (origin : Text)
    (load : LoadResult N T) (clock : Option T) (prepared : Bool) :
    State N T × ResourceRefreshResult T :=
  if origin.length > s.limits.maxOriginBytes ∨ !codec.validUtf8 origin then
    (s, ⟨none, .invalidData, false⟩)
  else if !validKey codec s.limits key then (s, ⟨none, .invalidData, false⟩)
  else
    let key := canonicalKey key
    match load with
    | .error error =>
      match s.resources.find? key with
      | none => (s, ⟨none, refreshFailure error, false⟩)
      | some _ =>
        let (t, published) := retire s key origin clock prepared
        (t, ⟨none, if published ∧ error = .notFound then .removed else refreshFailure error,
          published⟩)
    | .ok loaded =>
      let snapshot := loadedSnapshot codec loaded
      let update : ResourceUpdate N T :=
        ⟨key, loaded.modified, [⟨"replace", [], some loaded.document⟩], origin⟩
      match s.resources.find? key with
      | some found =>
        if found.dataJson = snapshot.dataJson then
          ({ s with resources := s.resources.insert key { found with timestamp := loaded.modified } },
            ⟨some { found with timestamp := loaded.modified }, .unchanged, false⟩)
        else if !prepared then (s, ⟨none, .internalError, false⟩)
        else
          ({ s with
              resources := s.resources.insert key snapshot
              published := s.published ++ [update] }, ⟨some snapshot, .updated, true⟩)
      | none =>
        if !prepared then (s, ⟨none, .internalError, false⟩)
        else if s.resources.size ≥ s.limits.maxResources then (s, ⟨none, .capacity, false⟩)
        else
          ({ s with
              resources := s.resources.insert key snapshot
              published := s.published ++ [update] }, ⟨some snapshot, .updated, true⟩)

def invalidateAndPublish (codec : Codec N T) (s : State N T) (key : ResourceKey) (origin : Text)
    (clock : Option T) (prepared : Bool) : State N T × ResourceRefreshResult T :=
  if origin.length > s.limits.maxOriginBytes ∨ !codec.validUtf8 origin then
    (s, ⟨none, .invalidData, false⟩)
  else if !validKey codec s.limits key then (s, ⟨none, .invalidData, false⟩)
  else
    match s.resources.find? (canonicalKey key) with
    | none => (s, ⟨none, .notFound, false⟩)
    | some _ =>
      let (t, published) := retire s (canonicalKey key) origin clock prepared
      (t, ⟨none, if published then .removed else .internalError, published⟩)

inductive Call (N T : Type)
  | pull (key : ResourceKey) (stopped : Bool) (load : LoadResult N T)
  | applyPatch (request : ResourcePatchRequest) (readings : PatchReadings N T)
  | refresh (key : ResourceKey) (origin : Text) (load : LoadResult N T) (clock : Option T)
      (prepared : Bool)
  | invalidateAndPublish (key : ResourceKey) (origin : Text) (clock : Option T) (prepared : Bool)

inductive Reply (T : Type)
  | pulled (result : Except ResourceStoreError (ResourceSnapshot T))
  | patched (result : Except ResourceStoreError (ResourcePatchResult T))
  | refreshed (result : ResourceRefreshResult T)

def perform [LinearOrder T] (codec : Codec N T) (s : State N T) :
    Call N T → State N T × Reply T
  | .pull key stopped load => (pull codec s key stopped load).map id .pulled
  | .applyPatch request readings => (applyPatch codec s request readings).map id .patched
  | .refresh key origin load clock prepared =>
    (refresh codec s key origin load clock prepared).map id .refreshed
  | .invalidateAndPublish key origin clock prepared =>
    (invalidateAndPublish codec s key origin clock prepared).map id .refreshed

structure Exchange (N T : Type) where
  call : Call N T
  reply : Reply T

def storeSystem [LinearOrder T] (codec : Codec N T) : System (State N T) (Exchange N T) where
  start s := ∃ limits, s = { limits }
  step s l t := perform codec s l.call = (t, l.reply)

end Baas.Resource
