import Mathlib.Data.List.Basic
import Mathlib.Data.Nat.Basic

/-! The data of the script heap: values, cells, limits and charges.
Strings and vectors keep their capacity, because the accounting charges capacities.
What a platform decides (object sizes, the capacity a copy or a reservation gets)
is a parameter. -/
namespace Baas.Script

abbrev Bytes := List UInt8

/-- 2^64. -/
def wordRange : Nat := 18446744073709551616

def sizeMax : Nat := wordRange - 1

/-- A string or a vector with the room it holds. -/
structure Buffer (α : Type) where
  items : List α
  capacity : Nat
  fits : items.length ≤ capacity
deriving DecidableEq

abbrev Text := Buffer UInt8

def Buffer.nil {α : Type} : Buffer α := ⟨[], 0, Nat.le_refl 0⟩

/-- What the compiler and its library decide. -/
structure Platform where
  cellSize : Nat
  valueSize : Nat
  entrySize : Nat
  frameSize : Nat
  /-- The capacity of a copied string of some length. -/
  textCapacity : Nat → Nat
  /-- The capacity of a moved string of some capacity. -/
  movedCapacity : Nat → Nat
  /-- The capacity of an empty vector after `reserve`. -/
  vectorCapacity : Nat → Nat
  text_fits : ∀ n, n ≤ textCapacity n
  moved_fits : ∀ n, n ≤ movedCapacity n
  vector_fits : ∀ n, n ≤ vectorCapacity n

def Platform.text (p : Platform) (bytes : Bytes) : Text :=
  ⟨bytes, p.textCapacity bytes.length, p.text_fits _⟩

def Platform.moved (p : Platform) (text : Text) : Text :=
  ⟨text.items, p.movedCapacity text.capacity, Nat.le_trans text.fits (p.moved_fits _)⟩

/-- A vector filled after room was reserved for some number of items. -/
def Platform.reserve {α : Type} (p : Platform) (room : Nat) (items : List α) : Buffer α :=
  ⟨items, max items.length (p.vectorCapacity room), Nat.le_max_left _ _⟩

structure HeapRef where
  heapIdentity : Nat
  slot : Nat
  generation : Nat
deriving DecidableEq

/-- A float is its bit pattern. -/
inductive Value
  | null
  | boolean (value : Bool)
  | integer (value : Int)
  | float (bits : UInt64)
  | ref (reference : HeapRef)
deriving DecidableEq

inductive ValueKind
  | null | boolean | integer | float | heapReference | string | list | orderedMap | function
  | moduleKind | error | task | hostHandle | bytes
deriving DecidableEq

def Value.inlineKind : Value → ValueKind
  | .null => .null
  | .boolean _ => .boolean
  | .integer _ => .integer
  | .float _ => .float
  | .ref _ => .heapReference

inductive RuntimeErrorCode
  | typeMismatch | crossHeapReference | staleReference | cellKindMismatch | memoryLimitExceeded
  | cellLimitExceeded | singleAllocationExceeded | stringLimitExceeded
  | externalMemoryLimitExceeded | collectionWorkLimitExceeded | invalidUtf8 | jsonCycle
  | jsonNonFinite | jsonUnsupported | heapTornDown | indexOutOfRange | releaseQueueLimitExceeded
  | jsonDepthLimitExceeded | jsonNodeLimitExceeded | jsonStringLimitExceeded
  | jsonByteLimitExceeded | jsonWorkLimitExceeded | jsonDuplicateKey | heapBusy
deriving DecidableEq

/-- A `RuntimeError`, or a `std::bad_alloc` that no handler converts. -/
inductive HeapError
  | runtime (code : RuntimeErrorCode) (message : String)
  | badAlloc
deriving DecidableEq

inductive LanguageErrorCode
  | thrownValue | typeMismatch | argumentInvalid | nameNotFound | uninitializedBinding
  | notCallable | callArityMismatch | callArgumentDuplicate | callArgumentUnknown | taskCycle
  | indexOutOfRange | numericOverflow | divisionByZero | invalidUtf8 | jsonCycle | jsonNonFinite
  | jsonUnsupported | jsonDuplicateKey | jsonLimitExceeded | importSpecifierInvalid | importCycle
  | importDepthLimit | moduleInitializationFailed | moduleMemberMissing | capabilityDenied
  | hostValidationFailed | hostUnavailable | deviceDisconnected | packageMismatch
  | ocrModelUnavailable | resourceMissing | timeout | hostInternal | cancelled | humanTakeover
  | deadlineExceeded | instructionLimitExceeded | memoryLimitExceeded | stackLimitExceeded
  | cleanupLimitExceeded | taskLimitExceeded | internalInvariant
deriving DecidableEq

inductive CallableKind
  | script | native
deriving DecidableEq

structure FunctionMetadata where
  kind : CallableKind
  callableId : Nat
  captures : Buffer Value
deriving DecidableEq

structure ModuleMetadata where
  name : Text
  exports : Buffer (Text × Value)
deriving DecidableEq

inductive ErrorOrigin
  | script | runtime | host
deriving DecidableEq

inductive ErrorFrameKind
  | script | host
deriving DecidableEq

inductive ErrorFramePhase
  | body | moduleInit | cleanup | host
deriving DecidableEq

structure SourceLocation where
  byteOffset : Nat
  line : Nat
  column : Nat
deriving DecidableEq

structure SourceSpan where
  start : SourceLocation
  stop : SourceLocation
deriving DecidableEq

structure SourceReference where
  snapshotId : Text
  moduleName : Text
  span : SourceSpan
deriving DecidableEq

structure ErrorStackFrame where
  kind : ErrorFrameKind
  moduleName : Text
  function : Text
  phase : ErrorFramePhase
  callSource : Option SourceReference
  definitionSource : Option SourceReference
  deferSource : Option SourceReference
deriving DecidableEq

structure ErrorContext where
  taskId : Option Text
  sessionId : Option Text
  packageId : Option Text
  snapshotId : Option Text
  languageVersion : Option Text
  correlationId : Option Text
deriving DecidableEq

structure ErrorTruncation where
  stackFrames : Nat := 0
  causeErrors : Nat := 0
  suppressedErrors : Nat := 0
  messageBytes : Nat := 0
  detailBytes : Nat := 0
  detailsReplaced : Bool := false
  fallback : Bool := false
deriving DecidableEq

structure ErrorMetadata where
  code : LanguageErrorCode
  message : Text
  origin : ErrorOrigin
  source : Option SourceReference
  stack : Buffer ErrorStackFrame
  cause : Option Value
  suppressed : Buffer Value
  details : Buffer (Text × Value)
  context : ErrorContext
  truncated : ErrorTruncation
deriving DecidableEq

structure ErrorDerivation where
  cause : Option Value
  suppressed : List Value

inductive TaskState
  | pending | running | succeeded | failed | cancelled
deriving DecidableEq

structure TaskMetadata where
  taskId : Nat
  state : TaskState
  retainedValues : Buffer Value
deriving DecidableEq

inductive HostHandleTypeId
  | invalid | resource | image | ocrModel | device
deriving DecidableEq

structure HostHandleMetadata where
  handleId : Nat
  adapterId : Nat
  externalBytes : Nat
  closed : Bool
  typeId : HostHandleTypeId
  generation : Nat
  contextId : Nat
  snapshotId : Nat
  authentication : Nat
deriving DecidableEq

structure HostReleaseRecord where
  handleId : Nat
  adapterId : Nat
  externalBytes : Nat
  typeId : HostHandleTypeId
  generation : Nat
  contextId : Nat
  snapshotId : Nat
  authentication : Nat
deriving DecidableEq

structure HostReleaseLease where
  leaseId : Nat
  record : HostReleaseRecord
deriving DecidableEq

inductive CellData
  | stringCell (value : Text)
  | listCell (values : Buffer Value)
  | mapCell (entries : Buffer (Text × Value))
  | functionCell (metadata : FunctionMetadata)
  | moduleCell (metadata : ModuleMetadata)
  | errorCell (metadata : ErrorMetadata)
  | taskCell (metadata : TaskMetadata)
  | hostCell (metadata : HostHandleMetadata)
  | byteCell (value : Buffer UInt8)
deriving DecidableEq

/-- A cell and what it was charged. The mark bit lives in the collector. -/
structure Cell where
  data : CellData
  accountedBytes : Nat
  accountedStringBytes : Nat
  accountedExternalBytes : Nat
deriving DecidableEq

def dataKind : CellData → ValueKind
  | .stringCell _ => .string
  | .listCell _ => .list
  | .mapCell _ => .orderedMap
  | .functionCell _ => .function
  | .moduleCell _ => .moduleKind
  | .errorCell _ => .error
  | .taskCell _ => .task
  | .hostCell _ => .hostHandle
  | .byteCell _ => .bytes

/-- The values a cell refers to, in the order the source visits them. -/
def visitChildren : CellData → List Value
  | .listCell values => values.items
  | .mapCell entries => entries.items.map Prod.snd
  | .functionCell metadata => metadata.captures.items
  | .moduleCell metadata => metadata.exports.items.map Prod.snd
  | .errorCell metadata =>
    metadata.cause.toList ++ metadata.suppressed.items ++ metadata.details.items.map Prod.snd
  | .taskCell metadata => metadata.retainedValues.items
  | .stringCell _ | .hostCell _ | .byteCell _ => []

structure HeapLimits where
  maxLiveBytes : Nat := 64 * 1024 * 1024
  maxCells : Nat := 1000000
  maxSingleAllocation : Nat := 8 * 1024 * 1024
  maxStringBytes : Nat := 16 * 1024 * 1024
  maxExternalBytes : Nat := 64 * 1024 * 1024
  softCollectThreshold : Nat := 48 * 1024 * 1024
  maxCollectionWork : Nat := 2000000
  maxPendingReleaseRecords : Nat := 1000000
  maxErrorStackFrames : Nat := 128
  maxErrorInnermostFrames : Nat := 96
  maxErrorCauseDepth : Nat := 16
  maxErrorSuppressed : Nat := 16
  maxErrorMessageBytes : Nat := 4096
  maxErrorDetailBytes : Nat := 65536
deriving DecidableEq

structure HeapStats where
  liveBytes : Nat := 0
  liveCells : Nat := 0
  stringBytes : Nat := 0
  collections : Nat := 0
  reclaimedCells : Nat := 0
  reclaimedBytes : Nat := 0
deriving DecidableEq

structure Charge where
  bytes : Nat
  strings : Nat
  external : Nat
deriving DecidableEq

def checkedAdd (left right : Nat) : Option Nat :=
  if right > sizeMax - left then none else some (left + right)

def checkedMultiply (left right : Nat) : Option Nat :=
  if left ≠ 0 ∧ right > sizeMax / left then none else some (left * right)

def saturatingAdd (destination value : Nat) : Nat :=
  if value > sizeMax - destination then sizeMax else destination + value

def accountingOverflow : HeapError := .runtime .memoryLimitExceeded "heap accounting overflow"

def chargedAdd (destination value : Nat) : Except HeapError Nat :=
  match checkedAdd destination value with
  | some result => .ok result
  | none => .error accountingOverflow

def vectorBytes (capacity itemSize : Nat) : Except HeapError Nat :=
  match checkedMultiply capacity itemSize with
  | some result => .ok result
  | none => .error accountingOverflow

def Charge.addBytes (charge : Charge) (bytes : Nat) : Except HeapError Charge := do
  return { charge with bytes := ← chargedAdd charge.bytes bytes }

def Charge.addVector (charge : Charge) (capacity itemSize : Nat) : Except HeapError Charge := do
  charge.addBytes (← vectorBytes capacity itemSize)

def Charge.addText (charge : Charge) (text : Text) : Except HeapError Charge := do
  let charge ← charge.addBytes text.capacity
  return { charge with strings := ← chargedAdd charge.strings text.capacity }

def Charge.addTexts (charge : Charge) (texts : List Text) : Except HeapError Charge :=
  texts.foldlM Charge.addText charge

def SourceReference.texts (source : SourceReference) : List Text :=
  [source.snapshotId, source.moduleName]

def optionalSourceTexts (source : Option SourceReference) : List Text :=
  (source.map SourceReference.texts).getD []

def ErrorStackFrame.texts (frame : ErrorStackFrame) : List Text :=
  [frame.moduleName, frame.function] ++ optionalSourceTexts frame.callSource ++
    optionalSourceTexts frame.definitionSource ++ optionalSourceTexts frame.deferSource

def ErrorContext.texts (context : ErrorContext) : List Text :=
  [context.taskId, context.sessionId, context.packageId, context.snapshotId,
    context.languageVersion, context.correlationId].filterMap id

def chargeFor (p : Platform) (data : CellData) : Except HeapError Charge := do
  let charge : Charge := ⟨p.cellSize, 0, 0⟩
  match data with
  | .stringCell value => charge.addText value
  | .byteCell value => charge.addVector value.capacity 1
  | .listCell values => charge.addVector values.capacity p.valueSize
  | .mapCell entries =>
    (← charge.addVector entries.capacity p.entrySize).addTexts (entries.items.map Prod.fst)
  | .functionCell metadata => charge.addVector metadata.captures.capacity p.valueSize
  | .moduleCell metadata =>
    let charge ← charge.addText metadata.name
    (← charge.addVector metadata.exports.capacity p.entrySize).addTexts
      (metadata.exports.items.map Prod.fst)
  | .errorCell metadata =>
    let charge ← charge.addText metadata.message
    let charge ← charge.addTexts (optionalSourceTexts metadata.source)
    let charge ← charge.addVector metadata.stack.capacity p.frameSize
    let charge ← charge.addTexts (metadata.stack.items.flatMap ErrorStackFrame.texts)
    let charge ← charge.addVector metadata.suppressed.capacity p.valueSize
    let charge ← charge.addVector metadata.details.capacity p.entrySize
    let charge ← charge.addTexts (metadata.details.items.map Prod.fst)
    charge.addTexts metadata.context.texts
  | .taskCell metadata => charge.addVector metadata.retainedValues.capacity p.valueSize
  | .hostCell metadata =>
    return { charge with external := if metadata.closed then 0 else metadata.externalBytes }

def isContinuation (byte : UInt8) : Bool := byte &&& 0xC0 == 0x80

/-- The scalar that a lead byte's payload and its continuation bytes encode. -/
def scalarValue (lead : Nat) (continuation : List UInt8) : Nat :=
  continuation.foldl (fun value byte => value * 64 + (byte &&& 0x3F).toNat) lead

def isScalar (minimum value : Nat) : Bool :=
  minimum ≤ value && value ≤ 0x10FFFF && !(0xD800 ≤ value && value ≤ 0xDFFF)

def isEncoded (minimum lead : Nat) (continuation : List UInt8) : Bool :=
  continuation.all isContinuation && isScalar minimum (scalarValue lead continuation)

def isValidUtf8 : Bytes → Bool
  | [] => true
  | first :: rest =>
    if first ≤ 0x7F then isValidUtf8 rest
    else if 0xC2 ≤ first && first ≤ 0xDF then
      match rest with
      | second :: rest => isEncoded 0x80 (first &&& 0x1F).toNat [second] && isValidUtf8 rest
      | [] => false
    else if 0xE0 ≤ first && first ≤ 0xEF then
      match rest with
      | second :: third :: rest =>
        isEncoded 0x800 (first &&& 0x0F).toNat [second, third] && isValidUtf8 rest
      | _ => false
    else if 0xF0 ≤ first && first ≤ 0xF4 then
      match rest with
      | second :: third :: fourth :: rest =>
        isEncoded 0x10000 (first &&& 0x07).toNat [second, third, fourth] && isValidUtf8 rest
      | _ => false
    else false

end Baas.Script
