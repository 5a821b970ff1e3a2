import Baas.Script.HeapRun
import Baas.Script.HeapThrow

/-! The accounts of the heap over whole runs, with the owners of detached releases. -/
namespace Baas.Script

open Transition Program

/-! The owner that `detach_host_releases` returns. It shares the heap's ledger. -/

structure DetachedHostReleases where
  records : List HostReleaseRecord := []
  head : Nat := 0
  cursor : Nat := 0
  activeIndex : Nat := 0
  nextLeaseId : Nat := 1
  activeLeaseId : Nat := 0
  leaseActive : Bool := false

namespace DetachedHostReleases

def pending (d : DetachedHostReleases) : Nat := externalOf (d.records.drop d.head)

def lease (d : DetachedHostReleases) : DetachedHostReleases × Option HostReleaseLease :=
  if d.leaseActive ∨ d.head ≥ d.records.length then (d, none)
  else
    let cursor := if d.cursor < d.head ∨ d.cursor ≥ d.records.length then d.head else d.cursor
    let id := if d.nextLeaseId = 0 then 1 else d.nextLeaseId
    ({ d with
        cursor
        nextLeaseId := bump id
        activeLeaseId := id
        activeIndex := cursor
        leaseActive := true },
      (d.records[cursor]?).map (fun record => ⟨id, record⟩))

def owns (d : DetachedHostReleases) (leaseId : Nat) : Bool :=
  d.leaseActive && leaseId != 0 && leaseId == d.activeLeaseId && d.head < d.records.length

/-- The owner and the ledger after an acknowledgement, and whether it was accepted. -/
def acknowledge (leaseId : Nat) (d : DetachedHostReleases) (externalBytes : Nat) :
    DetachedHostReleases × Nat × Bool :=
  match d.records[d.activeIndex]? with
  | none => (d, externalBytes, false)
  | some record =>
    if !d.owns leaseId ∨ record.externalBytes > externalBytes then (d, externalBytes, false)
    else
      let head := d.head + 1
      let cursor :=
        if d.activeIndex < head ∨ d.activeIndex ≥ d.records.length then head else d.activeIndex
      let acknowledged : DetachedHostReleases := { d with
        records := swapRecords d.activeIndex d.head d.records
        head
        cursor
        leaseActive := false
        activeLeaseId := 0 }
      (if head = d.records.length then
          { acknowledged with records := [], head := 0, cursor := 0, activeIndex := 0 }
        else acknowledged,
        externalBytes - record.externalBytes, true)

def defer (leaseId : Nat) (d : DetachedHostReleases) : DetachedHostReleases × Bool :=
  if !d.owns leaseId ∨ d.activeIndex ≥ d.records.length then (d, false)
  else
    let next := d.activeIndex + 1
    ({ d with
        cursor := if next ≥ d.records.length then d.head else next
        leaseActive := false
        activeLeaseId := 0 }, true)

/-- A lease is out on a record that is still pending. -/
def Ordered (d : DetachedHostReleases) : Prop := d.leaseActive = true → d.head ≤ d.activeIndex

theorem lease_ordered {d : DetachedHostReleases} (ordered : d.Ordered) :
    d.lease.1.Ordered ∧ d.lease.1.pending = d.pending := by
  unfold lease
  split
  · exact ⟨ordered, rfl⟩
  · refine ⟨fun _ => ?_, rfl⟩
    show d.head ≤ if _ then _ else _
    split
    · exact Nat.le_refl _
    · omega

theorem defer_ordered {d : DetachedHostReleases} (ordered : d.Ordered) (leaseId : Nat) :
    (d.defer leaseId).1.Ordered ∧ (d.defer leaseId).1.pending = d.pending := by
  unfold defer
  split
  · exact ⟨ordered, rfl⟩
  · exact ⟨nofun, rfl⟩

/-- An acknowledgement takes from the ledger what it takes from the owner. -/
theorem acknowledge_ordered {d : DetachedHostReleases} (ordered : d.Ordered)
    (leaseId externalBytes : Nat) :
    (d.acknowledge leaseId externalBytes).1.Ordered ∧
      (d.acknowledge leaseId externalBytes).2.1 + d.pending =
        externalBytes + (d.acknowledge leaseId externalBytes).1.pending ∧
      (d.acknowledge leaseId externalBytes).2.1 ≤ externalBytes := by
  unfold acknowledge
  split
  · exact ⟨ordered, rfl, Nat.le_refl _⟩
  rename_i record there
  split
  · exact ⟨ordered, rfl, Nat.le_refl _⟩
  rename_i owned
  obtain ⟨owns, fits⟩ := not_or.mp owned
  have active : d.leaseActive = true := by
    simp only [DetachedHostReleases.owns, Bool.not_eq_true', Bool.not_eq_false,
      Bool.and_eq_true] at owns
    exact owns.1.1.1
  obtain ⟨same, swapped⟩ := externalOf_swapRecords there (ordered active)
  dsimp only
  refine ⟨?_, ?_, Nat.sub_le _ _⟩
  · split
    · exact nofun
    · exact nofun
  · unfold pending
    split
    · rename_i last
      have done : (swapRecords d.activeIndex d.head d.records).drop (d.head + 1) = [] :=
        List.drop_eq_nil_of_le (by omega)
      rw [done, externalOf_nil] at swapped
      simp only [List.drop_nil, externalOf_nil]
      omega
    · dsimp only
      omega

end DetachedHostReleases

/-! The heap and the owners of its detached releases. -/

structure ScriptMemory where
  heap : Heap
  owners : List DetachedHostReleases

inductive MemoryCall
  | heap (call : HeapCall)
  | lease (owner : Nat)
  | acknowledge (owner leaseId : Nat) (accepted : Bool)
  | defer (owner leaseId : Nat) (accepted : Bool)

/-- The owner a call of the heap returned. -/
def returnedOwner (outcome : Except HeapError HeapResult) : List DetachedHostReleases :=
  match outcome with
  | .ok (.detached records cursor) => [{ records, cursor }]
  | _ => []

def memorySystem : System ScriptMemory MemoryCall where
  start s := heapSystem.start s.heap ∧ s.owners = []
  step s call t :=
    match call with
    | .heap call =>
      heapSystem.step s.heap call t.heap ∧ t.owners = s.owners ++ returnedOwner call.outcome
    | .lease owner =>
      ∃ d, s.owners[owner]? = some d ∧ t = { s with owners := s.owners.set owner d.lease.1 }
    | .acknowledge owner leaseId accepted =>
      ∃ d after externalBytes, s.owners[owner]? = some d ∧
        d.acknowledge leaseId s.heap.externalBytes = (after, externalBytes, accepted) ∧
        t = ⟨{ s.heap with externalBytes }, s.owners.set owner after⟩
    | .defer owner leaseId accepted =>
      ∃ d after, s.owners[owner]? = some d ∧ d.defer leaseId = (after, accepted) ∧
        t = { s with owners := s.owners.set owner after }

/-! What the accounts say. -/

def liveCells (h : Heap) : List Cell := h.arena.slots.filterMap ArenaSlot.cell

def detachedExternal (owners : List DetachedHostReleases) : Nat :=
  (owners.map DetachedHostReleases.pending).sum

structure Accounted (s : ScriptMemory) : Prop where
  cells : s.heap.stats.liveCells = (liveCells s.heap).length
  bytes : s.heap.stats.liveBytes = ((liveCells s.heap).map Cell.accountedBytes).sum
  strings : s.heap.stats.stringBytes = ((liveCells s.heap).map Cell.accountedStringBytes).sum
  external : s.heap.externalBytes =
    ((liveCells s.heap).map (fun cell => openCharge cell.data)).sum +
      (pendingExternal s.heap + detachedExternal s.owners) + s.heap.reservations.sum
  within : Within s.heap

/-- No reservation is committed to a handle that is closed already and holds nothing. -/
def HeapOp.commitsOpen : HeapOp → Bool
  | .allocateReservedHostHandle metadata _ => Script.commitsOpen metadata
  | _ => true

def MemoryCall.commitsOpen : MemoryCall → Bool
  | .heap call => call.op.commitsOpen
  | _ => true

/-- A call of the heap that threw. -/
def MemoryCall.threw : MemoryCall → Bool
  | .heap call => match call.outcome with
    | .ok _ => false
    | .error _ => true
  | _ => false

theorem total_liveCells (weigh : Cell → Nat) (h : Heap) :
    h.arena.total weigh = ((liveCells h).map weigh).sum := by
  unfold Arena.total liveCells
  induction h.arena.slots with
  | nil => rfl
  | cons slot slots ih =>
    obtain ⟨stored, generation⟩ := slot
    cases stored with
    | none => simpa [Arena.slotWeight] using ih
    | some cell => simpa [Arena.slotWeight] using ih

/-! Every call keeps the books. -/

variable {origin : Heap} {u : Owed} {reservations : List Nat} {outside : Nat}

theorem releaseOperation_held {α : Type} {dispatcher : Bool} {refused : α}
    {operation : Heap → Heap × α} (careful : Careful operation) :
    Keeps (Held u reservations) (releaseOperation dispatcher refused operation) := by
  intro m held
  have kept : Books u
      (if dispatcher then operation m.heap else outsideBoundary refused operation m.heap).1 ∧
      (if dispatcher then operation m.heap
        else outsideBoundary refused operation m.heap).1.reservations = m.heap.reservations := by
    split
    · exact careful u m.heap held.1
    · unfold outsideBoundary
      split
      · exact ⟨held.1, rfl⟩
      · exact careful u m.heap held.1
  exact ⟨kept.1, kept.2.trans held.2⟩

def resultExternal : HeapResult → Nat
  | .detached records _ => externalOf records
  | _ => 0

/-- The books with the reservations that are out now and what has been detached. -/
def Balanced (outside : Nat) (m : Machine) : Prop :=
  Books (onlyExternal (m.heap.reservations.sum + outside)) m.heap

theorem Held.balanced {m : Machine}
    (held : Held (onlyExternal (reservations.sum + outside)) reservations m) :
    Balanced outside m := by
  unfold Balanced
  rw [held.2]
  exact held.1

/-- A program that keeps the reservations, and detaches nothing. -/
theorem returning_balanced {α : Type} {wrap : α → HeapResult} {m : HeapProgram α}
    (quiet : ∀ a, resultExternal (wrap a) = 0)
    (h : Meets (Booked origin (onlyExternal (reservations.sum + outside)) reservations) m
      (fun _ => Held (onlyExternal (reservations.sum + outside)) reservations)
      (Held (onlyExternal (reservations.sum + outside)) reservations)) :
    Meets (Booked origin (onlyExternal (reservations.sum + outside)) reservations)
      (returning wrap m) (fun r => Balanced (outside + resultExternal r)) (Balanced outside) := by
  refine Meets.bind (h.weaken (fun _ h => h) (fun _ _ h => h) (fun _ h => h.balanced)) (fun a => ?_)
  refine meets_pure _ (fun m held => ?_)
  rw [quiet a]
  exact held.balanced

theorem returning_kept {α : Type} {wrap : α → HeapResult} {m : HeapProgram α}
    (quiet : ∀ a, resultExternal (wrap a) = 0)
    (h : Keeps (Held (onlyExternal (reservations.sum + outside)) reservations) m) :
    Meets (Booked origin (onlyExternal (reservations.sum + outside)) reservations)
      (returning wrap m) (fun r => Balanced (outside + resultExternal r)) (Balanced outside) :=
  returning_balanced quiet (h.weaken (fun _ h => h.2) (fun _ _ h => h) (fun _ h => h))

theorem runOp_balanced {op : HeapOp} (commits : op.commitsOpen = true) :
    Meets (Booked origin (onlyExternal (reservations.sum + outside)) reservations) (runOp op)
      (fun r => Balanced (outside + resultExternal r)) (Balanced outside) := by
  cases op with
  | addRoot value => exact returning_kept (fun _ => rfl) (addRoot_held value)
  | updateRoot id value => exact returning_kept (fun _ => rfl) (updateRoot_held id value)
  | removeRoot id => exact returning_kept (fun _ => rfl) (removeRoot_held id)
  | addTemporaryRoot value => exact returning_kept (fun _ => rfl) (addTemporaryRoot_held value)
  | popTemporaryRoots marker =>
    exact returning_kept (fun _ => rfl)
      (keeps_modify (fun _ held => popTemporaryRoots_held held marker))
  | allocateString value =>
    exact returning_kept (fun _ => rfl)
      ((requireUtf8_keeps _ _).andThen (fun _ => allocate_booked _))
  | allocateBytes value => exact returning_kept (fun _ => rfl) (allocate_booked _)
  | allocateList values => exact returning_balanced (fun _ => rfl) (rooted_allocate_held _ _)
  | allocateMap entries => exact returning_balanced (fun _ => rfl) (allocateMap_held entries)
  | allocateFunction metadata =>
    exact returning_balanced (fun _ => rfl) (rooted_allocate_held _ _)
  | allocateModule metadata => exact returning_kept (fun _ => rfl) (allocateModule_held metadata)
  | allocateError metadata => exact returning_balanced (fun _ => rfl) (allocateError_held metadata)
  | deriveError primary additions =>
    exact returning_balanced (fun _ => rfl) (deriveError_held primary additions)
  | allocateTask metadata => exact returning_balanced (fun _ => rfl) (rooted_allocate_held _ _)
  | allocateHostHandle metadata => exact returning_kept (fun _ => rfl) (allocate_booked _)
  | reserveHostExternal externalBytes =>
    refine Meets.bind ((reserveHostExternal_held _ externalBytes).weaken (fun _ h => h.2)
      (fun _ _ h => h) (fun _ h => h.balanced)) (fun _ => meets_pure _ (fun m held => ?_))
    unfold Balanced
    have owed : onlyExternal (reservations.sum + outside + externalBytes) =
        onlyExternal ((reservations ++ [externalBytes]).sum + outside) := by
      rw [List.sum_append, List.sum_singleton]
      congr 1
      omega
    rw [held.2]
    exact owed ▸ held.1
  | dropReservation index =>
    exact Meets.bind ((dropReservation_held outside index).weaken (fun _ h => h.2)
      (fun _ _ h => h.balanced) (fun _ h => h)) (fun _ => meets_pure _ (fun _ h => h))
  | allocateReservedHostHandle metadata reservation =>
    exact Meets.bind ((allocateReservedHostHandle_held reservation outside commits).weaken
      (fun _ h => h.2) (fun _ _ h => h.1) (fun _ h => h.balanced))
      (fun _ => meets_pure _ (fun _ h => h))
  | ensureHostReleaseCapacity totalRecords =>
    refine returning_kept (fun _ => rfl) (keeps_read.andThen (fun _ => ?_))
    exact (keeps_refuseIf _ _).andThen (fun _ => (keeps_refuseIf _ _).andThen
      (fun _ => native_held _))
  | listAppend reference value =>
    exact returning_balanced (fun _ => rfl) (listAppend_held reference value)
  | listSet reference index value =>
    exact returning_kept (fun _ => rfl) (listSet_held reference index value)
  | mapSet reference key value =>
    exact returning_balanced (fun _ => rfl) (mapSet_held reference key value)
  | closeHostHandle reference =>
    exact returning_kept (fun _ => rfl) (closeHostHandle_held reference)
  | collect => exact returning_kept (fun _ => rfl) collect_held
  | leaseHostRelease dispatcher =>
    exact returning_kept (fun _ => rfl) (releaseOperation_held leaseHostRelease_careful)
  | acknowledgeHostRelease dispatcher leaseId =>
    exact returning_kept (fun _ => rfl)
      (releaseOperation_held (acknowledgeHostRelease_careful leaseId))
  | retryHostRelease dispatcher leaseId =>
    exact returning_kept (fun _ => rfl) (releaseOperation_held (retryHostRelease_careful leaseId))
  | deferHostRelease dispatcher leaseId =>
    exact returning_kept (fun _ => rfl) (releaseOperation_held (deferHostRelease_careful leaseId))
  | drainReleaseQueue => exact returning_kept (fun _ => rfl) drainReleaseQueue_kept
  | teardownForDispatcher => exact returning_kept (fun _ => rfl) teardownForDispatcher_held
  | teardown =>
    exact returning_kept (fun _ => rfl)
      (teardownForDispatcher_held.andThen (fun _ => drainReleaseQueue_kept))
  | detachHostReleases =>
    refine Meets.bind ((detachHostReleases_held _).weaken (fun _ h => h.2) (fun _ _ h => h)
      (fun _ h => h.balanced)) (fun released => meets_pure _ (fun m held => ?_))
    unfold Balanced
    rw [held.2, ← Nat.add_assoc]
    exact held.1
  | enterEvaluatorBoundary | leaveEvaluatorBoundary =>
    exact returning_kept (fun _ => rfl)
      (modify_held (fun _ => ⟨rfl, rfl, rfl, rfl, rfl, rfl, rfl, rfl⟩) (fun _ => rfl))

/-! Every call spares what it throws on. -/

theorem returning_spares {α : Type} {wrap : α → HeapResult} {m : HeapProgram α}
    (h : Spares origin m) (start : Heap) :
    Meets (fun m => Steady origin start m ∧ Held u reservations m) (returning wrap m)
      (fun _ _ => True) (fun t => Spared start t.heap) :=
  Meets.bind ((h start).weaken (fun _ h => h.1) (fun _ _ h => h) (fun _ h => h))
    (fun _ => meets_pure _ (fun _ _ => trivial))

theorem returning_never {α : Type} {wrap : α → HeapResult} {m : HeapProgram α} (start : Heap)
    (never : Meets (fun _ => True) m (fun _ _ => True) (fun _ => False)) :
    Meets (fun m => Steady origin start m ∧ Held u reservations m) (returning wrap m)
      (fun _ _ => True) (fun t => Spared start t.heap) :=
  Meets.bind (never.weaken (fun _ _ => trivial) (fun _ _ h => h) (fun _ h => h.elim))
    (fun _ => meets_pure _ (fun _ _ => trivial))

theorem runOp_spares (op : HeapOp) (start : Heap) :
    Meets (fun m => Steady origin start m ∧ Held u reservations m) (runOp op)
      (fun _ _ => True) (fun t => Spared start t.heap) := by
  cases op with
  | addRoot value => exact returning_spares (addRoot_spares value) start
  | updateRoot id value => exact returning_spares (updateRoot_spares id value) start
  | removeRoot id => exact returning_never start (fun _ _ => trivial)
  | addTemporaryRoot value => exact returning_spares (addTemporaryRoot_spares value) start
  | popTemporaryRoots marker => exact returning_never start (fun _ _ => trivial)
  | allocateString value => exact returning_spares (allocateString_spares value) start
  | allocateBytes value => exact returning_spares (allocate_leaf_spares false rfl) start
  | allocateList values =>
    exact returning_spares (rooted_allocate_spares (.listCell values) false (fun _ h => h)) start
  | allocateMap entries => exact returning_spares (allocateMap_spares entries) start
  | allocateFunction metadata =>
    exact returning_spares (rooted_allocate_spares (.functionCell metadata) false (fun _ h => h)) start
  | allocateModule metadata => exact returning_spares (allocateModule_spares metadata) start
  | allocateError metadata => exact returning_spares (allocateError_spares metadata) start
  | deriveError primary additions =>
    exact returning_spares (deriveError_spares primary additions) start
  | allocateTask metadata =>
    exact returning_spares (rooted_allocate_spares (.taskCell metadata) false (fun _ h => h)) start
  | allocateHostHandle metadata => exact returning_spares (allocate_leaf_spares false rfl) start
  | reserveHostExternal externalBytes =>
    exact returning_spares (reserveHostExternal_spares externalBytes) start
  | dropReservation index => exact returning_never start (fun _ _ => trivial)
  | allocateReservedHostHandle metadata reservation =>
    exact returning_spares (allocateReservedHostHandle_spares metadata reservation) start
  | ensureHostReleaseCapacity totalRecords =>
    exact returning_spares (ensureHostReleaseCapacity_spares totalRecords) start
  | listAppend reference value => exact returning_spares (listAppend_spares reference value) start
  | listSet reference index value =>
    exact returning_spares (listSet_spares reference index value) start
  | mapSet reference key value => exact returning_spares (mapSet_spares reference key value) start
  | closeHostHandle reference => exact returning_spares (closeHostHandle_spares reference) start
  | collect => exact returning_spares collect_spares start
  | leaseHostRelease dispatcher => exact returning_never start (fun _ _ => trivial)
  | acknowledgeHostRelease dispatcher leaseId => exact returning_never start (fun _ _ => trivial)
  | retryHostRelease dispatcher leaseId => exact returning_never start (fun _ _ => trivial)
  | deferHostRelease dispatcher leaseId => exact returning_never start (fun _ _ => trivial)
  | drainReleaseQueue =>
    exact (drainReleaseQueue_spares start).bind (fun _ => meets_pure _ (fun _ _ => trivial))
  | teardownForDispatcher =>
    exact (teardownForDispatcher_spares start).bind (fun _ => meets_pure _ (fun _ _ => trivial))
  | teardown => exact (teardown_spares start).bind (fun _ => meets_pure _ (fun _ _ => trivial))
  | detachHostReleases => exact returning_spares detachHostReleases_spares start
  | enterEvaluatorBoundary => exact returning_never start (fun _ _ => trivial)
  | leaveEvaluatorBoundary => exact returning_never start (fun _ _ => trivial)

/-! Whole runs. -/

/-- What carries the accounts from call to call. -/
structure Sane (s : ScriptMemory) : Prop where
  sound : Sound s.heap
  books : Books (onlyExternal (s.heap.reservations.sum + detachedExternal s.owners)) s.heap
  ordered : ∀ d ∈ s.owners, d.Ordered

theorem Sane.accounted {s : ScriptMemory} (sane : Sane s) : Accounted s := by
  have cells := sane.books.cells
  have bytes := sane.books.bytes
  have strings := sane.books.strings
  have external := sane.books.external
  rw [total_liveCells] at cells bytes strings external
  simp only [onlyExternal, List.map_const', List.sum_replicate_nat, Nat.mul_one]
    at cells bytes strings external
  exact ⟨by omega, by omega, by omega, by omega, sane.books.within⟩

theorem detachedExternal_set {owners : List DetachedHostReleases} {owner : Nat}
    {d : DetachedHostReleases} (there : owners[owner]? = some d) (next : DetachedHostReleases) :
    detachedExternal (owners.set owner next) + d.pending = detachedExternal owners + next.pending :=
  Arena.sum_map_set DetachedHostReleases.pending next there

theorem ordered_set {owners : List DetachedHostReleases} {owner : Nat}
    {next : DetachedHostReleases} (all : ∀ d ∈ owners, d.Ordered) (ordered : next.Ordered) :
    ∀ d ∈ owners.set owner next, d.Ordered := by
  intro d member
  rcases List.mem_or_eq_of_mem_set member with old | rfl
  · exact all d old
  · exact ordered

theorem detachedExternal_returned (r : HeapResult) :
    detachedExternal (returnedOwner (.ok r)) = resultExternal r := by
  cases r with
  | detached records cursor =>
    simp [returnedOwner, detachedExternal, resultExternal, DetachedHostReleases.pending]
  | nothing | value _ | rootId _ | flag _ | lease _ | records _ => rfl

theorem returnedOwner_ordered {outcome : Except HeapError HeapResult} :
    ∀ d ∈ returnedOwner outcome, d.Ordered := by
  intro d member
  unfold returnedOwner at member
  split at member
  · cases List.mem_singleton.mp member
    exact nofun
  · cases member

theorem detachedExternal_append (a b : List DetachedHostReleases) :
    detachedExternal (a ++ b) = detachedExternal a + detachedExternal b := by
  simp [detachedExternal]

/-- One call of the heap. -/
theorem heap_call_sane {s t : ScriptMemory} {call : HeapCall} (sane : Sane s)
    (step : heapSystem.step s.heap call t.heap)
    (owners : t.owners = s.owners ++ returnedOwner call.outcome)
    (commits : call.op.commitsOpen = true) :
    Sane t ∧ ((MemoryCall.heap call).threw = true → Spared s.heap t.heap) := by
  have sound : Sound t.heap := (step_trace step sane.sound).here
  obtain ⟨-, performed⟩ := step
  have trace : Trace s.heap ⟨s.heap, call.faults, []⟩ := .start sane.sound call.faults
  have held : Held (onlyExternal (s.heap.reservations.sum + detachedExternal s.owners))
      s.heap.reservations ⟨s.heap, call.faults, []⟩ := ⟨sane.books, rfl⟩
  have balanced := @runOp_balanced _ _ _ call.op commits ⟨s.heap, call.faults, []⟩ ⟨trace, held⟩
  have spared := runOp_spares call.op s.heap ⟨s.heap, call.faults, []⟩ ⟨steady_here trace, held⟩
  have ordered : ∀ d ∈ t.owners, d.Ordered := by
    intro d member
    rw [owners] at member
    rcases List.mem_append.mp member with old | new
    · exact sane.ordered d old
    · exact returnedOwner_ordered d new
  unfold performOp at performed
  cases ran : runOp call.op ⟨s.heap, call.faults, []⟩ with
  | mk outcome m =>
    rw [ran] at balanced spared performed
    simp only [Prod.mk.injEq] at performed
    obtain ⟨same, here⟩ := performed
    have outcomes : call.outcome = outcome := by rw [← same]
    rw [outcomes] at owners
    cases outcome with
    | ok r =>
      refine ⟨⟨sound, ?_, ordered⟩, ?_⟩
      · rw [owners, detachedExternal_append, detachedExternal_returned, ← here]
        exact balanced
      · simp [MemoryCall.threw, outcomes]
    | error e =>
      refine ⟨⟨sound, ?_, ordered⟩, fun _ => ?_⟩
      · rw [owners, ← here, show returnedOwner (.error e) = [] from rfl, List.append_nil]
        exact balanced
      · rw [← here]
        exact spared

theorem step_sane {s t : ScriptMemory} {call : MemoryCall} (sane : Sane s)
    (step : memorySystem.step s call t) (commits : call.commitsOpen = true) :
    Sane t ∧ (call.threw = true → Spared s.heap t.heap) := by
  cases call with
  | heap call => exact heap_call_sane sane step.1 step.2 commits
  | lease owner =>
    obtain ⟨d, there, rfl⟩ := step
    obtain ⟨ordered, pending⟩ := DetachedHostReleases.lease_ordered
      (sane.ordered d (List.mem_of_getElem? there))
    refine ⟨⟨sane.sound, ?_, ordered_set sane.ordered ordered⟩, fun no => by cases no⟩
    have moved := detachedExternal_set there d.lease.1
    have same : detachedExternal (s.owners.set owner d.lease.1) = detachedExternal s.owners := by
      omega
    rw [same]
    exact sane.books
  | acknowledge owner leaseId accepted =>
    obtain ⟨d, after, externalBytes, there, acknowledged, rfl⟩ := step
    obtain ⟨ordered, moved, fewer⟩ := DetachedHostReleases.acknowledge_ordered
      (sane.ordered d (List.mem_of_getElem? there)) leaseId s.heap.externalBytes
    rw [acknowledged] at ordered moved fewer
    have books := sane.books
    have external := books.external
    have set := detachedExternal_set there after
    refine ⟨⟨?_, ⟨books.cells, books.bytes, books.strings, ?_, ⟨books.within.cells,
      books.within.bytes, books.within.strings, Nat.le_trans fewer books.within.external⟩,
      Nat.le_trans fewer books.word, books.head, books.lease⟩,
      ordered_set sane.ordered ordered⟩, fun no => by cases no⟩
    · exact sane.sound.congr ⟨rfl, rfl, rfl⟩ (fun _ => rfl)
    · show externalBytes = s.heap.arena.total (fun cell => openCharge cell.data) +
        pendingExternal s.heap +
          (s.heap.reservations.sum + detachedExternal (s.owners.set owner after))
      simp only [onlyExternal] at external
      dsimp only at moved
      omega
  | defer owner leaseId accepted =>
    obtain ⟨d, after, there, deferred, rfl⟩ := step
    obtain ⟨ordered, pending⟩ := DetachedHostReleases.defer_ordered
      (sane.ordered d (List.mem_of_getElem? there)) leaseId
    rw [deferred] at ordered pending
    refine ⟨⟨sane.sound, ?_, ordered_set sane.ordered ordered⟩, fun no => by cases no⟩
    have moved := detachedExternal_set there after
    have same : detachedExternal (s.owners.set owner after) = detachedExternal s.owners := by
      dsimp only at pending
      omega
    rw [same]
    exact sane.books

theorem start_sane {s : ScriptMemory} (start : memorySystem.start s) : Sane s := by
  obtain ⟨heap, owners⟩ := s
  obtain ⟨⟨platform, canonicalModuleKind, limits, heapIdentity, same⟩, none⟩ := start
  dsimp only at same none
  subst same none
  refine ⟨sound_fresh _ _ _ _, ?_, by simp⟩
  exact ⟨rfl, rfl, rfl, rfl, ⟨Nat.zero_le _, Nat.zero_le _, Nat.zero_le _, Nat.zero_le _⟩,
    Nat.zero_le _, Nat.zero_le _, nofun⟩

def sampleHandle (closed : Bool) : HostHandleMetadata := ⟨1, 1, 7, closed, .image, 1, 1, 1, 0⟩

def reserved : HeapCall × Heap := performOp sampleHeap (.reserveHostExternal 7, [])

def committed (closed : Bool) : HeapCall × Heap :=
  performOp reserved.2 (.allocateReservedHostHandle (sampleHandle closed) (some 0), [])

def refused : HeapCall × Heap :=
  performOp (committed false).2 (.closeHostHandle ⟨1, 4, 1⟩, [])

def committedEvents (closed : Bool) : List (Event ScriptMemory MemoryCall) :=
  [⟨⟨sampleHeap, []⟩, .heap reserved.1, ⟨reserved.2, []⟩⟩,
    ⟨⟨reserved.2, []⟩, .heap (committed closed).1, ⟨(committed closed).2, []⟩⟩]

theorem heap_call_step {h : Heap} {input : HeapOp × List Bool}
    (permitted : input.1.permitted h = true)
    (none : returnedOwner (performOp h input).1.outcome = []) :
    memorySystem.step ⟨h, []⟩ (.heap (performOp h input).1) ⟨(performOp h input).2, []⟩ :=
  ⟨performOp_step permitted, none.symm⟩

theorem committed_run (closed : Bool) :
    Run memorySystem (committedEvents closed) ⟨(committed closed).2, []⟩ := by
  have fresh : memorySystem.start ⟨sampleHeap, []⟩ := ⟨⟨_, _, _, _, rfl⟩, rfl⟩
  have first : memorySystem.step ⟨sampleHeap, []⟩ (.heap reserved.1) ⟨reserved.2, []⟩ :=
    heap_call_step rfl rfl
  have second : memorySystem.step ⟨reserved.2, []⟩ (.heap (committed closed).1)
      ⟨(committed closed).2, []⟩ := by
    cases closed
    · exact heap_call_step rfl rfl
    · exact heap_call_step rfl rfl
  exact ((Run.start fresh).step first).step second

end Baas.Script
