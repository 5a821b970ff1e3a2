import Baas.Lib.Arena
import Baas.Lib.OrderedMap
import Baas.Lib.Program
import Baas.Script.HeapData

/-! The script heap: dereferencing, the collector and allocation.
A heap operation is a program over the machine, which also holds the native
allocation failures still to come and, as a record for the proofs, the collections
performed. `collecting` is left out: `collect` never calls `preflight`, so the flag
is false wherever it is read. -/
namespace Baas.Script

inductive ModuleKind
  | package | host
deriving DecidableEq

structure Heap where
  platform : Platform
  /-- The kind of a canonical module specifier under the embedder's NFC test. -/
  canonicalModuleKind : Bytes → Option ModuleKind
  limits : HeapLimits
  heapIdentity : Nat
  stats : HeapStats := {}
  /-- The ledger, and the `ExternalReservation` objects that still hold part of it. -/
  externalBytes : Nat := 0
  reservations : List Nat := []
  arena : Arena Cell := .empty
  explicitRoots : OrderedMap Nat Value := .empty
  temporaryRoots : List Value := []
  releaseQueue : List HostReleaseRecord := []
  releaseHead : Nat := 0
  releaseCursor : Nat := 0
  activeReleaseIndex : Nat := 0
  nextReleaseLeaseId : Nat := 1
  activeReleaseLeaseId : Nat := 0
  releaseLeaseActive : Bool := false
  releaseDetached : Bool := false
  nextRootId : Nat := 1
  evaluatorBoundaryDepth : Nat := 0
  tornDown : Bool := false

/-- One call of the collector: the heap it found and the heap it left. -/
structure Collection where
  source : Heap
  target : Heap
  completed : Bool

structure Machine where
  heap : Heap
  faults : List Bool
  collections : List Collection

abbrev HeapProgram (α : Type) := Program Machine HeapError α

open Program

/-- A native allocation, which the next fault may refuse. -/
def native (failure : HeapError) : HeapProgram Unit := fun m =>
  match m.faults with
  | true :: rest => (.error failure, { m with faults := rest })
  | _ :: rest => (.ok (), { m with faults := rest })
  | [] => (.ok (), m)

def modifyHeap (f : Heap → Heap) : HeapProgram Unit :=
  modify (fun m => { m with heap := f m.heap })

def inspect {α : Type} (f : Heap → Except HeapError α) : HeapProgram α :=
  query (fun m => f m.heap)

def fault {α : Type} (code : RuntimeErrorCode) (message : String) : Except HeapError α :=
  .error (.runtime code message)

/-! Dereferencing. -/

def HeapRef.handle (reference : HeapRef) : Handle := ⟨reference.slot, reference.generation⟩

def dereference (reference : HeapRef) (h : Heap) : Except HeapError Cell :=
  if reference.heapIdentity ≠ h.heapIdentity then
    fault .crossHeapReference "heap reference belongs to another context"
  else match h.arena.slots[reference.slot]? with
    | none => fault .staleReference "heap reference slot is stale"
    | some slot =>
      match slot.cell with
      | none => fault .staleReference "heap reference generation is stale"
      | some cell =>
        if slot.generation ≠ reference.generation then
          fault .staleReference "heap reference generation is stale"
        else .ok cell

/-- The contents of a cell that must be of one kind. -/
def expected {α : Type} (pick : CellData → Option α) (reference : HeapRef) (h : Heap) :
    Except HeapError α := do
  let cell ← dereference reference h
  match pick cell.data with
  | some contents => .ok contents
  | none => fault .cellKindMismatch "heap cell kind mismatch"

def asHeapRef : Value → Except HeapError HeapRef
  | .ref reference => .ok reference
  | _ => fault .typeMismatch "expected HeapReference"

def validateEdge (value : Value) (h : Heap) : Except HeapError Unit :=
  match value with
  | .ref reference => do
    let _ ← dereference reference h
    return ()
  | _ => .ok ()

def validateEdges (data : CellData) (h : Heap) : Except HeapError Unit :=
  (visitChildren data).forM (fun value => validateEdge value h)

/-! The collector. -/

/-- The mark bits, by slot, and the references still to scan. -/
structure Marking where
  marked : List Nat
  worklist : List HeapRef

def enqueueMark (h : Heap) (marking : Marking) (value : Value) : Except HeapError Marking :=
  match value with
  | .ref reference => do
    let _ ← dereference reference h
    if reference.slot ∈ marking.marked then return marking
    else return ⟨reference.slot :: marking.marked, reference :: marking.worklist⟩
  | _ => .ok marking

/-- Scans the worklist; `budget` is the collection work still allowed. -/
def drainMarks (h : Heap) : Nat → Marking → Except HeapError Marking
  | _, ⟨marked, []⟩ => .ok ⟨marked, []⟩
  | 0, ⟨_, _ :: _⟩ => fault .collectionWorkLimitExceeded "collector work limit exceeded"
  | budget + 1, ⟨marked, reference :: worklist⟩ => do
    let cell ← dereference reference h
    let marking ← (visitChildren cell.data).foldlM (enqueueMark h) ⟨marked, worklist⟩
    drainMarks h budget marking

def rootValues (h : Heap) : List Value := h.explicitRoots.toList.map Prod.snd ++ h.temporaryRoots

def mark (h : Heap) : Except HeapError (List Nat) := do
  let marking ← (rootValues h).foldlM (enqueueMark h) ⟨[], []⟩
  let marking ← drainMarks h h.limits.maxCollectionWork marking
  return marking.marked

def pendingReleaseCount (h : Heap) : Nat := h.releaseQueue.length - h.releaseHead

def openHandle (cell : Cell) : Bool :=
  match cell.data with
  | .hostCell metadata => !metadata.closed
  | _ => false

/-- The open host handles that a sweep of the unkept cells would release. -/
def sweepReleases (keep : Nat → Bool) (h : Heap) : Nat :=
  ((List.range h.arena.slots.length).filter (fun index =>
    !keep index && (h.arena.slots[index]?.bind ArenaSlot.cell).any openHandle)).length

def reserveSweepStorage (keep : Nat → Bool) (onlyUnmarked : Bool) : HeapProgram Unit := do
  let h := (← read).heap
  let releases := sweepReleases keep h
  match checkedAdd (pendingReleaseCount h) releases with
  | none => raise (.runtime .memoryLimitExceeded "release queue size overflow")
  | some logicalCapacity =>
    if logicalCapacity > h.limits.maxPendingReleaseRecords then
      raise (.runtime .releaseQueueLimitExceeded "pending host release queue limit exceeded")
    else match checkedAdd h.releaseQueue.length (releases - min h.releaseHead releases) with
      | none => raise (.runtime .memoryLimitExceeded "release queue size overflow")
      | some _ => do
        runIf onlyUnmarked
          (native (.runtime .memoryLimitExceeded "sweep bookkeeping allocation failed"))
        native (.runtime .memoryLimitExceeded "sweep bookkeeping allocation failed")

def releaseRecord (metadata : HostHandleMetadata) : HostReleaseRecord :=
  ⟨metadata.handleId, metadata.adapterId, metadata.externalBytes, metadata.typeId,
    metadata.generation, metadata.contextId, metadata.snapshotId, metadata.authentication⟩

/-- Queues the release of an open handle, in the gap before the head when there is one. -/
def queueHostRelease (metadata : HostHandleMetadata) (h : Heap) : Heap :=
  if metadata.closed then h
  else if h.releaseHead ≠ 0 then
    { h with
      releaseHead := h.releaseHead - 1
      releaseQueue := h.releaseQueue.set (h.releaseHead - 1) (releaseRecord metadata) }
  else { h with releaseQueue := h.releaseQueue ++ [releaseRecord metadata] }

def releaseCell (cell : Cell) (h : Heap) : Heap :=
  match cell.data with
  | .hostCell metadata => queueHostRelease metadata h
  | _ => h

def lastGeneration : Nat := wordRange - 1

def retireSlot (reusable : Bool) (h : Heap) (index : Nat) : Heap :=
  match h.arena.slots[index]? with
  | some ⟨some cell, generation⟩ =>
    let h := releaseCell cell h
    { h with
      stats := { h.stats with
        liveBytes := h.stats.liveBytes - cell.accountedBytes
        stringBytes := h.stats.stringBytes - cell.accountedStringBytes
        liveCells := h.stats.liveCells - 1
        reclaimedCells := saturatingAdd h.stats.reclaimedCells 1
        reclaimedBytes := saturatingAdd h.stats.reclaimedBytes cell.accountedBytes }
      arena := h.arena.retire (if reusable then lastGeneration else generation) index }
  | _ => h

def sweepSlots (keep : Nat → Bool) (reusable : Bool) (indices : List Nat) (h : Heap) : Heap :=
  indices.foldl (fun h index => if keep index then h else retireSlot reusable h index) h

def sweep (keep : Nat → Bool) (h : Heap) : Heap :=
  sweepSlots keep true (List.range h.arena.slots.length)
    { h with stats.collections := saturatingAdd h.stats.collections 1 }

def collectUnrecorded : HeapProgram Unit := do
  refuseIf ((← read).heap.tornDown) (.runtime .heapTornDown "heap has been torn down")
  native (.runtime .memoryLimitExceeded "collector worklist allocation failed")
  let marked ← inspect mark
  let keep := fun index => decide (index ∈ marked)
  reserveSweepStorage keep true
  modifyHeap (sweep keep)

/-- The collector, with a record of the call whether it completes or throws. -/
def collect : HeapProgram Unit := fun m =>
  match collectUnrecorded m with
  | (.ok _, t) =>
    (.ok (), { t with collections := t.collections ++ [⟨m.heap, t.heap, true⟩] })
  | (.error e, t) =>
    (.error e, { t with collections := t.collections ++ [⟨m.heap, t.heap, false⟩] })

/-! Allocation. -/

def preflightLimits (charge : Charge) (addCell : Bool) (h : Heap) : Except HeapError Unit :=
  if (checkedAdd h.stats.liveBytes charge.bytes).all (· > h.limits.maxLiveBytes) then
    fault .memoryLimitExceeded "live heap byte limit exceeded"
  else if (checkedAdd h.stats.stringBytes charge.strings).all (· > h.limits.maxStringBytes) then
    fault .stringLimitExceeded "heap string byte limit exceeded"
  else if (checkedAdd h.externalBytes charge.external).all (· > h.limits.maxExternalBytes) then
    fault .externalMemoryLimitExceeded "heap external byte limit exceeded"
  else if addCell ∧ h.stats.liveCells ≥ h.limits.maxCells then
    fault .cellLimitExceeded "live heap cell limit exceeded"
  else .ok ()

def preflight (charge : Charge) (allocationSize : Nat) (addCell : Bool) : HeapProgram Unit := do
  let h := (← read).heap
  refuseIf (h.tornDown) (.runtime .heapTornDown "heap has been torn down")
  refuseIf (allocationSize > h.limits.maxSingleAllocation)
    (.runtime .singleAllocationExceeded "single heap allocation exceeds limit")
  match checkedAdd h.stats.liveBytes charge.bytes with
  | none => raise (.runtime .memoryLimitExceeded "heap byte accounting overflow")
  | some projected => do
    runIf (projected > h.limits.softCollectThreshold) collect
    inspect (preflightLimits charge addCell)

def chargeHeap (charge : Charge) (cells : Nat) (h : Heap) : Heap :=
  { h with
    stats := { h.stats with
      liveBytes := h.stats.liveBytes + charge.bytes
      stringBytes := h.stats.stringBytes + charge.strings
      liveCells := h.stats.liveCells + cells }
    externalBytes := h.externalBytes + charge.external }

def refundHeap (charge : Charge) (cells : Nat) (h : Heap) : Heap :=
  { h with
    stats := { h.stats with
      liveBytes := h.stats.liveBytes - charge.bytes
      stringBytes := h.stats.stringBytes - charge.strings
      liveCells := h.stats.liveCells - cells }
    externalBytes := h.externalBytes - charge.external }

def slotIndexLimit : Nat := 4294967295

/-- Puts the cell in the arena and returns the value that names it. -/
def placeCell (cell : Cell) : HeapProgram Value := fun m =>
  let placed := m.heap.arena.place cell
  (.ok (.ref ⟨m.heap.heapIdentity, placed.2.index, placed.2.generation⟩),
    { m with heap := { m.heap with arena := placed.1 } })

def allocate (data : CellData) (externalReserved : Bool) : HeapProgram Value := do
  inspect (validateEdges data)
  let charge ← inspect (fun h => chargeFor h.platform data)
  let incremental := { charge with external := if externalReserved then 0 else charge.external }
  preflight incremental charge.bytes true
  let arena := (← read).heap.arena
  refuseIf (arena.free.isEmpty ∧ arena.slots.length > slotIndexLimit)
    (.runtime .cellLimitExceeded "heap slot index limit exceeded")
  modifyHeap (chargeHeap incremental 1)
  (native (.runtime .memoryLimitExceeded "native allocation failed")).catching
    (fun e => do modifyHeap (refundHeap incremental 1); raise e)
  runIf arena.free.isEmpty
    ((native (.runtime .memoryLimitExceeded "native slot allocation failed")).catching
      (fun e => do modifyHeap (refundHeap incremental 1); raise e))
  placeCell ⟨data, charge.bytes, charge.strings, charge.external⟩

end Baas.Script
