import Baas.Lib.Transition
import Baas.Script.HeapWrite

/-! The heap as a transition system, and its collections over whole runs. -/
namespace Baas.Script

open Transition Program

inductive HeapOp
  | addRoot (value : Value)
  | updateRoot (id : Nat) (value : Value)
  | removeRoot (id : Nat)
  | addTemporaryRoot (value : Value)
  | popTemporaryRoots (marker : Nat)
  | allocateString (value : Text)
  | allocateBytes (value : Buffer UInt8)
  | allocateList (values : Buffer Value)
  | allocateMap (entries : List (Text × Value))
  | allocateFunction (metadata : FunctionMetadata)
  | allocateModule (metadata : ModuleMetadata)
  | allocateError (metadata : ErrorMetadata)
  | deriveError (primary : HeapRef) (additions : ErrorDerivation)
  | allocateTask (metadata : TaskMetadata)
  | allocateHostHandle (metadata : HostHandleMetadata)
  | reserveHostExternal (externalBytes : Nat)
  | dropReservation (index : Nat)
  | allocateReservedHostHandle (metadata : HostHandleMetadata) (reservation : Option Nat)
  | ensureHostReleaseCapacity (totalRecords : Nat)
  | listAppend (reference : HeapRef) (value : Value)
  | listSet (reference : HeapRef) (index : Nat) (value : Value)
  | mapSet (reference : HeapRef) (key : Text) (value : Value)
  | closeHostHandle (reference : HeapRef)
  | collect
  | leaseHostRelease (dispatcher : Bool)
  | acknowledgeHostRelease (dispatcher : Bool) (leaseId : Nat)
  | retryHostRelease (dispatcher : Bool) (leaseId : Nat)
  | deferHostRelease (dispatcher : Bool) (leaseId : Nat)
  | drainReleaseQueue
  | teardownForDispatcher
  | teardown
  | detachHostReleases
  | enterEvaluatorBoundary
  | leaveEvaluatorBoundary

inductive HeapResult
  | nothing
  | value (value : Value)
  | rootId (id : Nat)
  | flag (result : Bool)
  | lease (lease : Option HostReleaseLease)
  | records (records : List HostReleaseRecord)
  | detached (records : List HostReleaseRecord) (cursor : Nat)
deriving DecidableEq

/-- A release operation, by the dispatcher or through the public guard. -/
def releaseOperation {α : Type} (dispatcher : Bool) (refused : α) (operation : Heap → Heap × α) :
    HeapProgram α := do
  let h := (← read).heap
  let outcome := if dispatcher then operation h else outsideBoundary refused operation h
  modifyHeap (fun _ => outcome.1)
  return outcome.2

def returning {α : Type} (wrap : α → HeapResult) (m : HeapProgram α) : HeapProgram HeapResult := do
  return wrap (← m)

def runOp : HeapOp → HeapProgram HeapResult
  | .addRoot value => returning .rootId (addRoot value)
  | .updateRoot id value => returning .flag (updateRoot id value)
  | .removeRoot id => returning .flag (removeRoot id)
  | .addTemporaryRoot value => returning (fun _ => .nothing) (addTemporaryRoot value)
  | .popTemporaryRoots marker =>
    returning (fun _ => .nothing) (modifyHeap (popTemporaryRoots marker))
  | .allocateString value => returning .value (allocateString value)
  | .allocateBytes value => returning .value (allocateBytes value)
  | .allocateList values => returning .value (allocateList values)
  | .allocateMap entries => returning .value (allocateMap entries)
  | .allocateFunction metadata => returning .value (allocateFunction metadata)
  | .allocateModule metadata => returning .value (allocateModule metadata)
  | .allocateError metadata => returning .value (allocateError metadata)
  | .deriveError primary additions => returning .value (deriveError primary additions)
  | .allocateTask metadata => returning .value (allocateTask metadata)
  | .allocateHostHandle metadata => returning .value (allocateHostHandle metadata)
  | .reserveHostExternal externalBytes =>
    returning (fun _ => .nothing) (reserveHostExternal externalBytes)
  | .dropReservation index => returning (fun _ => .nothing) (dropReservation index)
  | .allocateReservedHostHandle metadata reservation =>
    returning .value (allocateReservedHostHandle metadata reservation)
  | .ensureHostReleaseCapacity totalRecords =>
    returning (fun _ => .nothing) (ensureHostReleaseCapacity totalRecords)
  | .listAppend reference value => returning (fun _ => .nothing) (listAppend reference value)
  | .listSet reference index value =>
    returning (fun _ => .nothing) (listSet reference index value)
  | .mapSet reference key value => returning (fun _ => .nothing) (mapSet reference key value)
  | .closeHostHandle reference => returning .flag (closeHostHandle reference)
  | .collect => returning (fun _ => .nothing) collect
  | .leaseHostRelease dispatcher =>
    returning .lease (releaseOperation dispatcher none leaseHostReleaseForDispatcher)
  | .acknowledgeHostRelease dispatcher leaseId =>
    returning .flag
      (releaseOperation dispatcher false (acknowledgeHostReleaseForDispatcher leaseId))
  | .retryHostRelease dispatcher leaseId =>
    returning .flag (releaseOperation dispatcher false (retryHostReleaseForDispatcher leaseId))
  | .deferHostRelease dispatcher leaseId =>
    returning .flag (releaseOperation dispatcher false (deferHostReleaseForDispatcher leaseId))
  | .drainReleaseQueue => returning .records drainReleaseQueue
  | .teardownForDispatcher => returning (fun _ => .nothing) teardownForDispatcher
  | .teardown => returning .records teardown
  | .detachHostReleases => returning (fun r => .detached r.1 r.2) detachHostReleases
  | .enterEvaluatorBoundary => returning (fun _ => .nothing)
    (modifyHeap (fun h => { h with evaluatorBoundaryDepth := h.evaluatorBoundaryDepth + 1 }))
  | .leaveEvaluatorBoundary => returning (fun _ => .nothing)
    (modifyHeap (fun h => { h with evaluatorBoundaryDepth := h.evaluatorBoundaryDepth - 1 }))

/-- Outside these states a boundary call terminates the process. -/
def HeapOp.permitted (h : Heap) : HeapOp → Bool
  | .enterEvaluatorBoundary => h.evaluatorBoundaryDepth < sizeMax
  | .leaveEvaluatorBoundary => h.evaluatorBoundaryDepth ≠ 0
  | _ => true

/-- One call, the native faults it met, its outcome and the collections it performed. -/
structure HeapCall where
  op : HeapOp
  faults : List Bool
  outcome : Except HeapError HeapResult
  collections : List Collection

def performOp (h : Heap) (input : HeapOp × List Bool) : HeapCall × Heap :=
  let ran := runOp input.1 ⟨h, input.2, []⟩
  (⟨input.1, input.2, ran.1, ran.2.collections⟩, ran.2.heap)

/-- The constructor clamps the soft threshold. -/
def freshHeap (platform : Platform) (canonicalModuleKind : Bytes → Option ModuleKind)
    (limits : HeapLimits) (heapIdentity : Nat) : Heap where
  platform := platform
  canonicalModuleKind := canonicalModuleKind
  limits := { limits with
    softCollectThreshold := min limits.softCollectThreshold limits.maxLiveBytes }
  heapIdentity := heapIdentity

def heapSystem : System Heap HeapCall where
  start h := ∃ platform canonicalModuleKind limits heapIdentity,
    h = freshHeap platform canonicalModuleKind limits heapIdentity
  step h call t := call.op.permitted h = true ∧ performOp h (call.op, call.faults) = (call, t)

variable {origin : Heap}

theorem returning_trace {α : Type} {wrap : α → HeapResult} {m : HeapProgram α}
    (h : Keeps (Trace origin) m) : Keeps (Trace origin) (returning wrap m) :=
  h.andThen (fun _ => keeps_pure _)

theorem releaseOperation_trace {α : Type} {dispatcher : Bool} {refused : α}
    {operation : Heap → Heap × α} (unseen : ∀ h, Unseen h (operation h).1) :
    Keeps (Trace origin) (releaseOperation dispatcher refused operation) := by
  intro m trace
  have same : Unseen m.heap
      (if dispatcher then operation m.heap else outsideBoundary refused operation m.heap).1 := by
    split
    · exact unseen m.heap
    · unfold outsideBoundary
      split
      · exact .refl _
      · exact unseen m.heap
  have going := (Going.start trace).quiet (t := { m with heap := (if dispatcher then
    operation m.heap else outsideBoundary refused operation m.heap).1 }) rfl same.1 same.2
  exact going.1

theorem runOp_trace (op : HeapOp) : Keeps (Trace origin) (runOp op) := by
  cases op with
  | addRoot value => exact returning_trace (addRoot_trace value)
  | updateRoot id value => exact returning_trace (updateRoot_trace id value)
  | removeRoot id => exact returning_trace (removeRoot_trace id)
  | addTemporaryRoot value => exact returning_trace (addTemporaryRoot_trace value)
  | popTemporaryRoots marker =>
    exact returning_trace (keeps_modify (fun _ trace => popTemporaryRoots_trace trace marker))
  | allocateString value => exact returning_trace (allocateString_trace value)
  | allocateBytes value => exact returning_trace (allocateBytes_trace value)
  | allocateList values => exact returning_trace (allocateList_trace values)
  | allocateMap entries => exact returning_trace (allocateMap_trace entries)
  | allocateFunction metadata => exact returning_trace (allocateFunction_trace metadata)
  | allocateModule metadata => exact returning_trace (allocateModule_trace metadata)
  | allocateError metadata => exact returning_trace (allocateError_trace metadata)
  | deriveError primary additions => exact returning_trace (deriveError_trace primary additions)
  | allocateTask metadata => exact returning_trace (allocateTask_trace metadata)
  | allocateHostHandle metadata => exact returning_trace (allocateHostHandle_trace metadata)
  | reserveHostExternal externalBytes =>
    exact returning_trace (reserveHostExternal_trace externalBytes)
  | dropReservation index => exact returning_trace (dropReservation_trace index)
  | allocateReservedHostHandle metadata reservation =>
    exact returning_trace (allocateReservedHostHandle_trace metadata reservation)
  | ensureHostReleaseCapacity totalRecords =>
    exact returning_trace (ensureHostReleaseCapacity_trace totalRecords)
  | listAppend reference value => exact returning_trace (listAppend_trace reference value)
  | listSet reference index value => exact returning_trace (listSet_trace reference index value)
  | mapSet reference key value => exact returning_trace (mapSet_trace reference key value)
  | closeHostHandle reference => exact returning_trace (closeHostHandle_trace reference)
  | collect => exact returning_trace (keeps_trace (fun _ => collect_going))
  | leaseHostRelease dispatcher =>
    exact returning_trace (releaseOperation_trace leaseHostRelease_unseen)
  | acknowledgeHostRelease dispatcher leaseId =>
    exact returning_trace (releaseOperation_trace (acknowledgeHostRelease_unseen leaseId))
  | retryHostRelease dispatcher leaseId =>
    exact returning_trace (releaseOperation_trace (retryHostRelease_unseen leaseId))
  | deferHostRelease dispatcher leaseId =>
    exact returning_trace (releaseOperation_trace (deferHostRelease_unseen leaseId))
  | drainReleaseQueue => exact returning_trace drainReleaseQueue_trace
  | teardownForDispatcher => exact returning_trace teardownForDispatcher_trace
  | teardown => exact returning_trace teardown_trace
  | detachHostReleases => exact returning_trace detachHostReleases_trace
  | enterEvaluatorBoundary | leaveEvaluatorBoundary =>
    exact returning_trace (quiet_trace (fun _ => ⟨rfl, rfl, rfl⟩) (fun _ => rfl))

/-- One call, from a sound heap, leaves a trace of its collections. -/
theorem step_trace {h t : Heap} {call : HeapCall} (step : heapSystem.step h call t)
    (sound : Sound h) : Trace h ⟨t, [], call.collections⟩ := by
  obtain ⟨_, performed⟩ := step
  have kept := runOp_trace call.op ⟨h, call.faults, []⟩ (Trace.start sound call.faults)
  unfold performOp at performed
  cases outcome : runOp call.op ⟨h, call.faults, []⟩ with
  | mk result m =>
    rw [outcome] at kept performed
    simp only [Prod.mk.injEq] at performed
    obtain ⟨same, rfl⟩ := performed
    have trace : Trace h m := by
      cases result with
      | ok _ => exact kept
      | error _ => exact kept
    rw [← same]
    exact ⟨trace.sound, trace.exact, trace.ordered⟩

theorem sound_fresh (platform : Platform) (canonicalModuleKind : Bytes → Option ModuleKind)
    (limits : HeapLimits) (heapIdentity : Nat) :
    Sound (freshHeap platform canonicalModuleKind limits heapIdentity) := by
  constructor
  · intro reference cell deref
    have found := (dereference_ok.mp deref).2
    simp [freshHeap] at found
  · intro value member
    simp [rootValues, freshHeap] at member

abbrev HeapHistory := List (Event Heap HeapCall)

/-- Every heap a run passes through, also between the collections of one call. -/
def timeline (es : HeapHistory) (h : Heap) : List Heap :=
  es.flatMap (fun e => e.source :: moments e.label.collections) ++ [h]

structure CollectionsExact (es : HeapHistory) (h : Heap) : Prop where
  exact : ∀ e ∈ es, ∀ c ∈ e.label.collections, Exact c
  sound : ∀ x ∈ timeline es h, Sound x
  retired : ∀ a b c, List.Sublist [a, b, c] (timeline es h) → ∀ reference,
    Live a reference → ¬Live b reference → ¬Live c reference

theorem timeline_append (es : HeapHistory) (e : Event Heap HeapCall) :
    timeline (es ++ [e]) e.target =
      es.flatMap (fun e => e.source :: moments e.label.collections) ++
        (e.source :: moments e.label.collections ++ [e.target]) := by
  simp [timeline]

theorem timeline_of_run {es : HeapHistory} {h : Heap} (run : Run heapSystem es h) :
    (∀ x ∈ timeline es h, Sound x) ∧ (timeline es h).Pairwise Earlier := by
  refine run.history (fun es h => (∀ x ∈ timeline es h, Sound x) ∧
    (timeline es h).Pairwise Earlier) ?_ ?_
  · rintro h ⟨platform, canonicalModuleKind, limits, heapIdentity, rfl⟩
    refine ⟨fun x member => ?_, by simp [timeline]⟩
    cases List.mem_singleton.mp member
    exact sound_fresh _ _ _ _
  · rintro es h call t _ ⟨sound, ordered⟩ step
    have here : Sound h := sound h (List.mem_append_right _ (List.mem_singleton_self _))
    have trace := step_trace step here
    rw [timeline_append es ⟨h, call, t⟩]
    constructor
    · intro x member
      rcases List.mem_append.mp member with old | new
      · exact sound x (List.mem_append_left _ old)
      · rcases List.mem_cons.mp new with rfl | later
        · exact here
        · exact trace.sound x later
    · unfold timeline at ordered
      rw [List.pairwise_append] at ordered ⊢
      obtain ⟨before, _, last⟩ := ordered
      refine ⟨before, trace.ordered, fun x hx y hy => ?_⟩
      have toHere := last x hx h (List.mem_singleton_self _)
      rcases List.mem_cons.mp hy with rfl | later
      · exact toHere
      · exact toHere.trans ((List.pairwise_cons.mp trace.ordered).1 y later)

/-- The collector is exact over every run, whether the calls succeed or throw. -/
theorem heap_collections_exact {es : HeapHistory} {h : Heap} (run : Run heapSystem es h) :
    CollectionsExact es h where
  exact e member := by
    obtain ⟨step, past, prior⟩ := run.of_mem member
    have here : Sound e.source :=
      (timeline_of_run prior).1 e.source (List.mem_append_right _ (List.mem_singleton_self _))
    exact (step_trace step here).exact
  sound := (timeline_of_run run).1
  retired a b c sub reference live gone := by
    have ordered := (timeline_of_run run).2.sublist sub
    simp only [List.pairwise_cons, List.mem_cons, List.not_mem_nil, or_false,
      forall_eq_or_imp, forall_eq] at ordered
    exact ordered.1.1.retired ordered.2.1 live gone

theorem performOp_step {h : Heap} {input : HeapOp × List Bool}
    (permitted : input.1.permitted h = true) :
    heapSystem.step h (performOp h input).1 (performOp h input).2 := ⟨permitted, rfl⟩

def samplePlatform : Platform where
  cellSize := 8
  valueSize := 8
  entrySize := 16
  frameSize := 8
  textCapacity := id
  movedCapacity := id
  vectorCapacity := id
  text_fits := Nat.le_refl
  moved_fits := Nat.le_refl
  vector_fits := Nat.le_refl

def sampleHeap : Heap :=
  freshHeap samplePlatform (fun _ => none) { maxCollectionWork := 4, maxSingleAllocation := 64 } 1

theorem heap_collections_exact_string :
    let stored := performOp sampleHeap (.allocateString (samplePlatform.text [104, 105]), [])
    let collected := performOp stored.2 (.collect, [])
    stored.2.stats.liveCells = 1 ∧ collected.2.stats.liveCells = 0 ∧
      collected.1.collections.length = 1 ∧
      CollectionsExact [⟨sampleHeap, stored.1, stored.2⟩, ⟨stored.2, collected.1, collected.2⟩]
        collected.2 := by
  have fresh : heapSystem.start sampleHeap := ⟨_, _, _, _, rfl⟩
  refine ⟨by decide, by decide, by decide, ?_⟩
  exact heap_collections_exact
    (((Run.start fresh).step (performOp_step rfl)).step (performOp_step rfl))

end Baas.Script
