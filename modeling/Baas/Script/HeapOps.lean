import Baas.Script.Heap

/-! The public operations of the script heap. -/
namespace Baas.Script

open Program

/-! Roots. -/

def addRoot (value : Value) : HeapProgram Nat := do
  refuseIf ((← read).heap.tornDown) (.runtime .heapTornDown "heap has been torn down")
  inspect (validateEdge value)
  let id := (← read).heap.nextRootId
  refuseIf (id = wordRange - 1) (.runtime .memoryLimitExceeded "root id space exhausted")
  modifyHeap (fun h => { h with nextRootId := id + 1 })
  native (.runtime .memoryLimitExceeded "root allocation failed")
  modifyHeap (fun h => { h with explicitRoots := h.explicitRoots.insert id value })
  return id

def updateRoot (id : Nat) (value : Value) : HeapProgram Bool := do
  refuseIf ((← read).heap.tornDown) (.runtime .heapTornDown "heap has been torn down")
  inspect (validateEdge value)
  if (← read).heap.explicitRoots.contains id then
    modifyHeap (fun h => { h with explicitRoots := h.explicitRoots.insert id value })
    return true
  else return false

def removeRoot (id : Nat) : HeapProgram Bool := do
  let found := (← read).heap.explicitRoots.contains id
  modifyHeap (fun h => { h with explicitRoots := h.explicitRoots.erase id })
  return found

def addTemporaryRoot (value : Value) : HeapProgram Unit := do
  refuseIf ((← read).heap.tornDown) (.runtime .heapTornDown "heap has been torn down")
  inspect (validateEdge value)
  native (.runtime .memoryLimitExceeded "temporary root allocation failed")
  modifyHeap (fun h => { h with temporaryRoots := h.temporaryRoots ++ [value] })

def popTemporaryRoots (marker : Nat) (h : Heap) : Heap :=
  { h with temporaryRoots := h.temporaryRoots.take marker }

/-- Runs the body in a `RootScope`, whose destructor pops what was added. -/
def inRootScope {α : Type} (body : HeapProgram α) : HeapProgram α := do
  let marker := (← read).heap.temporaryRoots.length
  body.ensuring (fun m => { m with heap := popTemporaryRoots marker m.heap })

def rooted {α : Type} (values : List Value) (body : HeapProgram α) : HeapProgram α :=
  inRootScope (do values.forM addTemporaryRoot; body)

/-! Allocation of every kind but structured errors. -/

def requireUtf8 (bytes : Bytes) (message : String) : HeapProgram Unit :=
  if isValidUtf8 bytes then return () else raise (.runtime .invalidUtf8 message)

def allocateString (value : Text) : HeapProgram Value := do
  requireUtf8 value.items "string is not valid UTF-8"
  allocate (.stringCell value) false

def allocateBytes (value : Buffer UInt8) : HeapProgram Value := allocate (.byteCell value) false

def allocateList (values : Buffer Value) : HeapProgram Value :=
  rooted values.items (allocate (.listCell values) false)

def hasKey (key : Bytes) (entries : List (Text × Value)) : Bool :=
  entries.any (fun entry => entry.1.items = key)

def assign (key : Bytes) (value : Value) (entries : List (Text × Value)) : List (Text × Value) :=
  entries.map (fun entry => if entry.1.items = key then (entry.1, value) else entry)

/-- A repeated key keeps its first position and takes the later value. -/
def normalizeEntry (normalized : List (Text × Value)) (entry : Text × Value) :
    Except HeapError (List (Text × Value)) :=
  if !isValidUtf8 entry.1.items then fault .invalidUtf8 "map key is not valid UTF-8"
  else if hasKey entry.1.items normalized then .ok (assign entry.1.items entry.2 normalized)
  else .ok (normalized ++ [entry])

def allocateMap (entries : List (Text × Value)) : HeapProgram Value := do
  native .badAlloc
  let normalized ← inspect (fun _ => entries.foldlM normalizeEntry [])
  let platform := (← read).heap.platform
  rooted (normalized.map Prod.snd)
    (allocate (.mapCell (platform.reserve entries.length normalized)) false)

def allocateFunction (metadata : FunctionMetadata) : HeapProgram Value :=
  rooted metadata.captures.items (allocate (.functionCell metadata) false)

def allocateModule (metadata : ModuleMetadata) : HeapProgram Value := do
  requireUtf8 metadata.name.items "module name is not valid UTF-8"
  inRootScope do
    metadata.exports.items.forM (fun entry => do
      requireUtf8 entry.1.items "module export is not valid UTF-8"
      addTemporaryRoot entry.2)
    allocate (.moduleCell metadata) false

def allocateTask (metadata : TaskMetadata) : HeapProgram Value :=
  rooted metadata.retainedValues.items (allocate (.taskCell metadata) false)

def allocateHostHandle (metadata : HostHandleMetadata) : HeapProgram Value :=
  allocate (.hostCell metadata) false

/-! External reservations: the ledger is charged until the object is committed or dropped. -/

def reserveHostExternal (externalBytes : Nat) : HeapProgram Unit := do
  preflight ⟨0, 0, externalBytes⟩ externalBytes false
  modifyHeap (fun h => { h with
    externalBytes := h.externalBytes + externalBytes
    reservations := h.reservations ++ [externalBytes] })

def dropReservation (index : Nat) : HeapProgram Unit :=
  modifyHeap (fun h => { h with
    externalBytes := h.externalBytes - (h.reservations[index]?).getD 0
    reservations := h.reservations.eraseIdx index })

/-- `none` is a reservation of another heap, or one already committed. -/
def allocateReservedHostHandle (metadata : HostHandleMetadata) (reservation : Option Nat) :
    HeapProgram Value := do
  let h := (← read).heap
  let held := reservation.bind (fun index => h.reservations[index]?)
  refuseIf (held ≠ some metadata.externalBytes)
    (.runtime .typeMismatch "Host external reservation does not match the handle")
  let value ← allocate (.hostCell metadata) true
  modifyHeap (fun h => { h with
    reservations := (reservation.map h.reservations.eraseIdx).getD h.reservations })
  return value

def ensureHostReleaseCapacity (totalRecords : Nat) : HeapProgram Unit := do
  let h := (← read).heap
  refuseIf (h.tornDown) (.runtime .heapTornDown "heap has been torn down")
  refuseIf (totalRecords > h.limits.maxPendingReleaseRecords)
    (.runtime .releaseQueueLimitExceeded "typed Host handle release capacity is exhausted")
  native (.runtime .memoryLimitExceeded "Host release capacity reservation failed")

/-! Mutation of lists and maps. -/

def CellData.list? : CellData → Option (Buffer Value)
  | .listCell values => some values
  | _ => none

def CellData.map? : CellData → Option (Buffer (Text × Value))
  | .mapCell entries => some entries
  | _ => none

def CellData.error? : CellData → Option ErrorMetadata
  | .errorCell metadata => some metadata
  | _ => none

def CellData.host? : CellData → Option HostHandleMetadata
  | .hostCell metadata => some metadata
  | _ => none

/-- Writes new contents into a live cell, which is charged `bytes` and `strings` more. -/
def writeCell (reference : HeapRef) (data : CellData) (bytes strings : Nat) :
    HeapProgram Unit := do
  let cell ← inspect (dereference reference)
  modifyHeap (fun h => { h with
    arena := h.arena.update reference.slot { cell with
      data
      accountedBytes := cell.accountedBytes + bytes
      accountedStringBytes := cell.accountedStringBytes + strings } })

/-- The capacity a full vector asks for next. -/
def grownCapacity (size capacity : Nat) : Nat :=
  if size = capacity then
    if capacity = 0 then 1 else if capacity > sizeMax / 2 then sizeMax else capacity * 2
  else capacity

/-- Growth that fails gives its charge back; a native failure becomes a memory limit. -/
def refunding {α : Type} (charge : Charge) (message : String) (body : HeapProgram α) :
    HeapProgram α :=
  body.catching (fun e => do
    modifyHeap (refundHeap charge 0)
    raise (if e = .badAlloc then .runtime .memoryLimitExceeded message else e))

/-- Charges what the grown vector really took, beyond or below what was reserved. -/
def settle (reserved actual : Charge) (allocationSize : Nat) : HeapProgram Unit := do
  let extra : Charge := ⟨actual.bytes - reserved.bytes, actual.strings - reserved.strings, 0⟩
  runIf (actual.bytes > reserved.bytes ∨ actual.strings > reserved.strings) do
    preflight extra allocationSize false
    modifyHeap (chargeHeap extra 0)
  modifyHeap
    (refundHeap ⟨reserved.bytes - actual.bytes, reserved.strings - actual.strings, 0⟩ 0)

/-- The longer copy of a list, and what its vector was charged. -/
def growList (reference : HeapRef) (value : Value) (desired oldVectorBytes : Nat)
    (delta : Charge) : HeapProgram (Buffer Value × Nat) :=
  refunding delta "list growth allocation failed" do
    native .badAlloc
    let platform := (← read).heap.platform
    let current ← inspect (expected CellData.list? reference)
    let replacement := platform.reserve desired (current.items ++ [value])
    let actual ← inspect (fun _ => vectorBytes replacement.capacity platform.valueSize)
    settle delta ⟨actual - oldVectorBytes, 0, 0⟩ actual
    return (replacement, actual - oldVectorBytes)

def listAppend (reference : HeapRef) (value : Value) : HeapProgram Unit :=
  rooted [.ref reference, value] do
    inspect (validateEdge value)
    let before ← inspect (expected CellData.list? reference)
    let platform := (← read).heap.platform
    let desired := grownCapacity before.items.length before.capacity
    let newVectorBytes ← inspect (fun _ => vectorBytes desired platform.valueSize)
    let oldVectorBytes ← inspect (fun _ => vectorBytes before.capacity platform.valueSize)
    let delta : Charge := ⟨newVectorBytes - oldVectorBytes, 0, 0⟩
    preflight delta newVectorBytes false
    modifyHeap (chargeHeap delta 0)
    let grown ← growList reference value desired oldVectorBytes delta
    let _ ← inspect (expected CellData.list? reference)
    writeCell reference (.listCell grown.1) grown.2 0

def listSet (reference : HeapRef) (index : Nat) (value : Value) : HeapProgram Unit := do
  inspect (validateEdge value)
  let values ← inspect (expected CellData.list? reference)
  if inside : index < values.items.length then
    writeCell reference
      (.listCell ⟨values.items.set index value, values.capacity, by simpa using values.fits⟩) 0 0
  else raise (.runtime .indexOutOfRange "list index out of range")

/-- The longer copy of a map, and what its vector and the new key were charged. -/
def growMap (reference : HeapRef) (key : Text) (value : Value) (desired oldVector : Nat)
    (delta : Charge) : HeapProgram (Buffer (Text × Value) × Charge) :=
  refunding delta "map growth allocation failed" do
    native .badAlloc
    let platform := (← read).heap.platform
    let current ← inspect (expected CellData.map? reference)
    -- the entries are copied, the new key is moved
    let copied := current.items.map (fun entry => (platform.text entry.1.items, entry.2))
    let replacement := platform.reserve desired (copied ++ [(platform.moved key, value)])
    let actualVector ← inspect (fun _ => vectorBytes replacement.capacity platform.entrySize)
    let actualKey := (platform.moved key).capacity
    let actualBytes ← inspect (fun _ => chargedAdd (actualVector - oldVector) actualKey)
    let actualAllocation ← inspect (fun _ => chargedAdd actualVector actualKey)
    settle delta ⟨actualBytes, actualKey, 0⟩ actualAllocation
    return (replacement, ⟨actualBytes, actualKey, 0⟩)

def mapAppend (reference : HeapRef) (key : Text) (value : Value) : HeapProgram Unit := do
  let before ← inspect (expected CellData.map? reference)
  let platform := (← read).heap.platform
  let desired := grownCapacity before.items.length before.capacity
  let oldVector ← inspect (fun _ => vectorBytes before.capacity platform.entrySize)
  let newVector ← inspect (fun _ => vectorBytes desired platform.entrySize)
  let deltaBytes ← inspect (fun _ => chargedAdd (newVector - oldVector) key.capacity)
  let delta : Charge := ⟨deltaBytes, key.capacity, 0⟩
  let allocationSize ← inspect (fun _ => chargedAdd newVector key.capacity)
  preflight delta allocationSize false
  modifyHeap (chargeHeap delta 0)
  let grown ← growMap reference key value desired oldVector delta
  let _ ← inspect (expected CellData.map? reference)
  writeCell reference (.mapCell grown.1) grown.2.bytes grown.2.strings

def mapSet (reference : HeapRef) (key : Text) (value : Value) : HeapProgram Unit := do
  requireUtf8 key.items "map key is not valid UTF-8"
  rooted [.ref reference, value] do
    inspect (validateEdge value)
    let entries ← inspect (expected CellData.map? reference)
    if hasKey key.items entries.items then
      writeCell reference (.mapCell ⟨assign key.items value entries.items, entries.capacity,
        by simpa [assign] using entries.fits⟩) 0 0
    else mapAppend reference key value

/-! Host handles and their releases. -/

def closeHostHandle (reference : HeapRef) : HeapProgram Bool := do
  let cell ← inspect (dereference reference)
  let metadata ← inspect (expected CellData.host? reference)
  if metadata.closed then return false
  else
    let h := (← read).heap
    match checkedAdd (pendingReleaseCount h) 1 with
    | none => raise (.runtime .memoryLimitExceeded "release queue size overflow")
    | some capacity => do
      refuseIf (capacity > h.limits.maxPendingReleaseRecords)
        (.runtime .releaseQueueLimitExceeded "pending host release queue limit exceeded")
      native (.runtime .memoryLimitExceeded "release queue allocation failed")
      modifyHeap (queueHostRelease metadata)
      modifyHeap (fun h => { h with
        arena := h.arena.update reference.slot { cell with
          data := .hostCell { metadata with closed := true }
          accountedExternalBytes := 0 } })
      return true

/-- A 64-bit increment. -/
def bump (counter : Nat) : Nat := (counter + 1) % wordRange

def leaseHostReleaseForDispatcher (h : Heap) : Heap × Option HostReleaseLease :=
  if h.releaseLeaseActive ∨ h.releaseHead ≥ h.releaseQueue.length then (h, none)
  else
    let cursor :=
      if h.releaseCursor < h.releaseHead ∨ h.releaseCursor ≥ h.releaseQueue.length then
        h.releaseHead
      else h.releaseCursor
    -- an id of 0 is skipped
    let leaseId := if h.nextReleaseLeaseId = 0 then 1 else h.nextReleaseLeaseId
    ({ h with
        releaseCursor := cursor
        nextReleaseLeaseId := bump leaseId
        activeReleaseLeaseId := leaseId
        activeReleaseIndex := cursor
        releaseLeaseActive := true },
      (h.releaseQueue[cursor]?).map (fun record => ⟨leaseId, record⟩))

def compactReleaseQueue (h : Heap) : Heap :=
  if h.releaseHead = 0 then h
  else if h.releaseHead ≥ h.releaseQueue.length then
    { h with releaseQueue := [], releaseCursor := 0, activeReleaseIndex := 0, releaseHead := 0 }
  else
    { h with
      releaseQueue := h.releaseQueue.drop h.releaseHead
      releaseCursor := h.releaseCursor - h.releaseHead
      activeReleaseIndex := h.activeReleaseIndex - h.releaseHead
      releaseHead := 0 }

/-- The lease id names the active lease. -/
def ownsLease (leaseId : Nat) (h : Heap) : Bool :=
  h.releaseLeaseActive && leaseId != 0 && leaseId == h.activeReleaseLeaseId

def endLease (h : Heap) : Heap :=
  { h with releaseLeaseActive := false, activeReleaseLeaseId := 0 }

def swapRecords (i j : Nat) (queue : List HostReleaseRecord) : List HostReleaseRecord :=
  match queue[i]?, queue[j]? with
  | some a, some b => (queue.set i b).set j a
  | _, _ => queue

def acknowledgeHostReleaseForDispatcher (leaseId : Nat) (h : Heap) : Heap × Bool :=
  match h.releaseQueue[h.activeReleaseIndex]? with
  | none => (h, false)
  | some record =>
    if !ownsLease leaseId h ∨ record.externalBytes > h.externalBytes then (h, false)
    else
      let head := h.releaseHead + 1
      let cursor :=
        if h.activeReleaseIndex < head ∨ h.activeReleaseIndex ≥ h.releaseQueue.length then head
        else h.activeReleaseIndex
      let acknowledged := endLease { h with
        externalBytes := h.externalBytes - record.externalBytes
        releaseQueue := swapRecords h.activeReleaseIndex h.releaseHead h.releaseQueue
        releaseHead := head
        releaseCursor := cursor }
      (if head = h.releaseQueue.length then compactReleaseQueue acknowledged else acknowledged,
        true)

def retryHostReleaseForDispatcher (leaseId : Nat) (h : Heap) : Heap × Bool :=
  if !ownsLease leaseId h then (h, false)
  else (endLease { h with releaseCursor := h.activeReleaseIndex }, true)

def deferHostReleaseForDispatcher (leaseId : Nat) (h : Heap) : Heap × Bool :=
  if !ownsLease leaseId h ∨ h.activeReleaseIndex ≥ h.releaseQueue.length then (h, false)
  else
    let next := h.activeReleaseIndex + 1
    (endLease { h with
      releaseCursor := if next ≥ h.releaseQueue.length then h.releaseHead else next }, true)

/-- The public release operations refuse while an evaluator boundary owns the heap. -/
def outsideBoundary {α : Type} (refused : α) (operation : Heap → Heap × α) (h : Heap) :
    Heap × α :=
  if h.evaluatorBoundaryDepth ≠ 0 then (h, refused) else operation h

def teardownForDispatcher : HeapProgram Unit := do
  let h := (← read).heap
  refuseIf (h.evaluatorBoundaryDepth ≠ 0)
    (.runtime .heapBusy "heap teardown is forbidden during an active evaluator boundary")
  if h.tornDown then return ()
  else
    reserveSweepStorage (fun _ => false) false
    modifyHeap (fun h =>
      { sweepSlots (fun _ => false) false (List.range h.arena.slots.length) h with
        explicitRoots := .empty
        temporaryRoots := []
        tornDown := true })

def totalExternalBytes (records : List HostReleaseRecord) : Except HeapError Nat :=
  records.foldlM (fun bytes record =>
    if record.externalBytes > sizeMax - bytes then
      fault .memoryLimitExceeded "legacy release accounting overflow"
    else .ok (bytes + record.externalBytes)) 0

def drainReleaseQueue : HeapProgram (List HostReleaseRecord) := do
  refuseIf ((← read).heap.evaluatorBoundaryDepth ≠ 0)
    (.runtime .heapBusy "Host release ownership transfer is forbidden during an active evaluator boundary")
  modifyHeap (fun h => compactReleaseQueue (endLease h))
  let result := (← read).heap.releaseQueue
  modifyHeap (fun h => { h with releaseQueue := [] })
  let bytes ← inspect (fun _ => totalExternalBytes result)
  refuseIf (bytes > (← read).heap.externalBytes)
    (.runtime .typeMismatch "legacy release accounting is corrupt")
  modifyHeap (fun h => { h with externalBytes := h.externalBytes - bytes })
  return result

def teardown : HeapProgram (List HostReleaseRecord) := do
  teardownForDispatcher
  drainReleaseQueue

/-- The records and the cursor of the detached owner. -/
def detachHostReleases : HeapProgram (List HostReleaseRecord × Nat) := do
  refuseIf (!(← read).heap.tornDown)
    (.runtime .heapTornDown "Host releases may detach only after Heap teardown")
  refuseIf ((← read).heap.releaseDetached)
    (.runtime .typeMismatch "Host releases were already detached")
  modifyHeap (fun h => compactReleaseQueue (endLease h))
  let h := (← read).heap
  modifyHeap (fun h => { h with
    releaseQueue := [], releaseHead := 0, releaseCursor := 0, releaseDetached := true })
  return (h.releaseQueue, h.releaseCursor)

end Baas.Script
