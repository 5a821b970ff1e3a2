import Baas.Script.HeapLedger

/-! The ledger of external memory: reservations, host handles and their releases. -/
namespace Baas.Script

open Program

variable {origin : Heap} {u : Owed} {reservations : List Nat}

/-! Reservations. -/

theorem sum_eraseIdx {l : List Nat} {i n : Nat} (there : l[i]? = some n) :
    (l.eraseIdx i).sum + n = l.sum := by
  induction l generalizing i with
  | nil => cases there
  | cons first rest ih =>
    cases i with
    | zero =>
      cases Option.some.inj there
      simp only [List.eraseIdx_cons_zero, List.sum_cons]
      omega
    | succ i =>
      have others := @ih i (by simpa using there)
      simp only [List.eraseIdx_cons_succ, List.sum_cons]
      omega

theorem reserveHostExternal_held (external externalBytes : Nat) :
    Meets (Held (onlyExternal external) reservations) (reserveHostExternal externalBytes)
      (fun _ => Held (onlyExternal (external + externalBytes)) (reservations ++ [externalBytes]))
      (Held (onlyExternal external) reservations) := by
  refine Meets.bind (preflight_held _ _ false) (fun _ => meets_modify _ (fun m held => ?_))
  have charged := held.1.1.charge held.2
  refine ⟨charged.same ⟨rfl, rfl, rfl, rfl, rfl, rfl, rfl, rfl⟩, ?_⟩
  show m.heap.reservations ++ [externalBytes] = reservations ++ [externalBytes]
  rw [held.1.2]

theorem dropReservation_held (outside index : Nat) {failed : Machine → Prop} :
    Meets (Held (onlyExternal (reservations.sum + outside)) reservations) (dropReservation index)
      (fun _ => Held (onlyExternal ((reservations.eraseIdx index).sum + outside))
        (reservations.eraseIdx index)) failed := by
  refine meets_modify _ (fun m held => ?_)
  obtain ⟨books, out⟩ := held
  have erased : (reservations.eraseIdx index).sum + (reservations[index]?).getD 0 =
      reservations.sum := by
    cases there : reservations[index]? with
    | none =>
      have beyond : reservations.length ≤ index := by simpa using there
      rw [List.eraseIdx_of_length_le beyond]
      rfl
    | some n => exact sum_eraseIdx there
  have owed : onlyExternal (reservations.sum + outside) =
      (onlyExternal ((reservations.eraseIdx index).sum + outside)).plus
        ⟨0, 0, (reservations[index]?).getD 0⟩ 0 := by
    ext
    · rfl
    · rfl
    · rfl
    · simp only [onlyExternal, Owed.plus]
      omega
  rw [owed] at books
  have refunded := books.refund
  refine ⟨?_, ?_⟩
  · rw [← out] at refunded ⊢
    exact refunded.same ⟨rfl, rfl, rfl, rfl, rfl, rfl, rfl, rfl⟩
  · show m.heap.reservations.eraseIdx index = reservations.eraseIdx index
    rw [out]

/-- A reservation that is committed to a handle that is open, or that holds nothing. -/
def commitsOpen (metadata : HostHandleMetadata) : Bool :=
  !metadata.closed || metadata.externalBytes == 0

theorem commitsOpen_charge {metadata : HostHandleMetadata} (commits : commitsOpen metadata = true) :
    openCharge (.hostCell metadata) = metadata.externalBytes := by
  cases closed : metadata.closed with
  | false => simp [openCharge, closed]
  | true =>
    simp only [commitsOpen, closed, Bool.not_true, Bool.false_or, beq_iff_eq] at commits
    simp [openCharge, closed, commits]

theorem allocateReservedHostHandle_held {metadata : HostHandleMetadata}
    (reservation : Option Nat) (outside : Nat) (commits : commitsOpen metadata = true) :
    Meets (Held (onlyExternal (reservations.sum + outside)) reservations)
      (allocateReservedHostHandle metadata reservation)
      (fun _ m => Held (onlyExternal (m.heap.reservations.sum + outside)) m.heap.reservations m)
      (Held (onlyExternal (reservations.sum + outside)) reservations) := by
  unfold allocateReservedHostHandle
  refine meets_reading (fun m held => ?_)
  dsimp only
  by_cases matching : (reservation.bind fun index => m.heap.reservations[index]?) =
      some metadata.externalBytes
  · obtain ⟨index, rfl, there⟩ := Option.bind_eq_some_iff.mp matching
    rw [held.2] at there
    have erased := sum_eraseIdx there
    have owed : onlyExternal (reservations.sum + outside) =
        (onlyExternal ((reservations.eraseIdx index).sum + outside)).plus
          (reservedCharge true (.hostCell metadata)) 0 := by
      ext
      · rfl
      · rfl
      · rfl
      · simp only [onlyExternal, Owed.plus, reservedCharge, if_true, commitsOpen_charge commits]
        omega
    rw [owed] at held ⊢
    refine Meets.bind (meets_refuseIf (fun s same => same ▸ held) (fun _ s same => same ▸ held))
      (fun _ => Meets.bind (allocate_held _ true) (fun value => ?_))
    refine Meets.bind (meets_modify _ (fun s placed => ?_)) (fun _ => meets_pure _ (fun _ h => h))
    obtain ⟨books, out⟩ := placed
    refine ⟨?_, rfl⟩
    show Books (onlyExternal ((s.heap.reservations.eraseIdx index).sum + outside)) _
    rw [out]
    exact books.same ⟨rfl, rfl, rfl, rfl, rfl, rfl, rfl, rfl⟩
  · unfold refuseIf
    rw [if_pos matching]
    rintro s rfl
    exact held

/-! Handles. -/

/-- Closing a handle moves what it holds from its cell to the queue. -/
theorem Books.close {h : Heap} {reference : HeapRef} {cell : Cell} {metadata : HostHandleMetadata}
    (books : Books u h) (deref : dereference reference h = .ok cell)
    (host : cell.data = .hostCell metadata) :
    Books u { queueHostRelease metadata h with
      arena := (queueHostRelease metadata h).arena.update reference.slot { cell with
        data := .hostCell { metadata with closed := true }
        accountedExternalBytes := 0 } } := by
  obtain ⟨queue, head, queues, before, queued⟩ := queueHostRelease_queues metadata h
  obtain ⟨inside, pending⟩ := queued books.head
  rw [queues]
  have found := Arena.slot_of_get? (dereference_ok.mp deref).2
  let closed : Cell := { cell with
    data := .hostCell { metadata with closed := true }
    accountedExternalBytes := 0 }
  have one := Arena.total_update (fun _ : Cell => 1) found closed
  have bytes := Arena.total_update Cell.accountedBytes found closed
  have strings := Arena.total_update Cell.accountedStringBytes found closed
  have held := Arena.total_update (fun cell : Cell => openCharge cell.data) found closed
  have nothing : openCharge closed.data = 0 := rfl
  have sameBytes : closed.accountedBytes = cell.accountedBytes := rfl
  have sameStrings : closed.accountedStringBytes = cell.accountedStringBytes := rfl
  have wasCells := books.cells
  have wasBytes := books.bytes
  have wasStrings := books.strings
  have wasExternal := books.external
  simp only [HeapRef.handle, host] at one bytes strings held
  refine ⟨?_, ?_, ?_, ?_, ⟨books.within.cells, books.within.bytes, books.within.strings,
    books.within.external⟩, books.word, inside, fun active =>
      Nat.le_trans before (books.lease active)⟩
  · show h.stats.liveCells = (h.arena.update reference.slot closed).total (fun _ => 1) + u.cells
    omega
  · show h.stats.liveBytes =
      (h.arena.update reference.slot closed).total Cell.accountedBytes + u.bytes
    omega
  · show h.stats.stringBytes =
      (h.arena.update reference.slot closed).total Cell.accountedStringBytes + u.strings
    omega
  · show h.externalBytes = (h.arena.update reference.slot closed).total
      (fun cell => openCharge cell.data) + externalOf (queue.drop head) + u.external
    omega

/-- The books, and a handle that is open for closing. -/
def Closing (u : Owed) (reservations : List Nat) (reference : HeapRef) (cell : Cell)
    (metadata : HostHandleMetadata) (m : Machine) : Prop :=
  Held u reservations m ∧ dereference reference m.heap = .ok cell ∧
    cell.data = .hostCell metadata

theorem closeHostHandle_held (reference : HeapRef) :
    Keeps (Held u reservations) (closeHostHandle reference) := by
  unfold closeHostHandle
  refine Meets.bind (meets_query (fun (m : Machine) cell held
    (ok : dereference reference m.heap = .ok cell) =>
      (⟨held, ok⟩ : Held u reservations m ∧ dereference reference m.heap = .ok cell))
    (fun _ held => held)) (fun cell => ?_)
  have seen : Meets (fun m => Held u reservations m ∧ dereference reference m.heap = .ok cell)
      (inspect (expected CellData.host? reference))
      (fun metadata => Closing u reservations reference cell metadata) (Held u reservations) := by
    refine meets_query (fun m metadata held ok => ?_) (fun _ held => held.1)
    obtain ⟨again, deref, picked⟩ := expected_ok ok
    cases Except.ok.inj (held.2.symm.trans deref)
    exact ⟨held.1, deref, host?_some picked⟩
  refine seen.bind (fun metadata => ?_)
  have drop : ∀ m, Closing u reservations reference cell metadata m → Held u reservations m :=
    fun _ h => h.1
  have keep {α : Type} {m : HeapProgram α}
      (h : Keeps (Closing u reservations reference cell metadata) m) :
      Meets (Closing u reservations reference cell metadata) m
        (fun _ => Closing u reservations reference cell metadata) (Held u reservations) :=
    h.weaken (fun _ h => h) (fun _ _ h => h) drop
  refine meets_ite (fun _ => meets_pure _ drop) (fun _ => (keep keeps_read).bind (fun m => ?_))
  dsimp only
  split
  · exact meets_raise _ drop
  refine (keep (keeps_refuseIf _ _)).bind (fun _ => ?_)
  refine (keep (native_keeps _ (fun _ _ closing => closing))).bind (fun _ => ?_)
  have queueing : Meets (Closing u reservations reference cell metadata)
      (modifyHeap (queueHostRelease metadata))
      (fun _ t => ∃ h, Books u h ∧ h.reservations = reservations ∧
        dereference reference h = .ok cell ∧ cell.data = .hostCell metadata ∧
        t.heap = queueHostRelease metadata h) (Held u reservations) :=
    meets_modify _ (fun m closing =>
      ⟨m.heap, closing.1.1, closing.1.2, closing.2.1, closing.2.2, rfl⟩)
  refine queueing.bind (fun _ => ?_)
  refine Meets.bind (meets_modify _ (fun t queued => ?_)) (fun _ => meets_pure _ (fun _ h => h))
  obtain ⟨h, books, out, deref, host, same⟩ := queued
  have closed := books.close deref host
  obtain ⟨queue, head, queues, -⟩ := queueHostRelease_queues metadata h
  refine ⟨?_, ?_⟩
  · show Books u { t.heap with arena := _ }
    rw [same]
    exact closed
  · show t.heap.reservations = reservations
    rw [same, queues]
    exact out

/-! The release queue. -/

theorem Books.compact {h : Heap} (books : Books u h) : Books u (compactReleaseQueue h) := by
  unfold compactReleaseQueue
  split
  · exact books
  split
  · rename_i done
    have none : pendingExternal h = 0 := by
      rw [pendingExternal, List.drop_eq_nil_of_le done]
      rfl
    refine ⟨books.cells, books.bytes, books.strings, ?_, ⟨books.within.cells, books.within.bytes,
      books.within.strings, books.within.external⟩, books.word, Nat.le_refl _,
      fun _ => Nat.le_refl _⟩
    have external := books.external
    rw [none] at external
    exact external
  · refine ⟨books.cells, books.bytes, books.strings, books.external, ⟨books.within.cells,
      books.within.bytes, books.within.strings, books.within.external⟩, books.word,
      Nat.zero_le _, fun _ => Nat.zero_le _⟩

theorem Books.endLease {h : Heap} (books : Books u h) : Books u (endLease h) :=
  ⟨books.cells, books.bytes, books.strings, books.external, ⟨books.within.cells,
    books.within.bytes, books.within.strings, books.within.external⟩, books.word, books.head,
    nofun⟩

theorem compact_head (h : Heap) : (compactReleaseQueue h).releaseHead = 0 := by
  unfold compactReleaseQueue
  split
  · assumption
  split
  · rfl
  · rfl

theorem compact_reservations (h : Heap) :
    (compactReleaseQueue h).reservations = h.reservations := by
  unfold compactReleaseQueue
  split
  · rfl
  split
  · rfl
  · rfl

/-- A release operation keeps the books and the reservations. -/
def Careful {α : Type} (operation : Heap → Heap × α) : Prop :=
  ∀ u h, Books u h → Books u (operation h).1 ∧ (operation h).1.reservations = h.reservations

theorem leaseHostRelease_careful : Careful leaseHostReleaseForDispatcher := by
  intro u h books
  unfold leaseHostReleaseForDispatcher
  split
  · exact ⟨books, rfl⟩
  · refine ⟨⟨books.cells, books.bytes, books.strings, books.external, ⟨books.within.cells,
      books.within.bytes, books.within.strings, books.within.external⟩, books.word, books.head,
      fun _ => ?_⟩, rfl⟩
    show h.releaseHead ≤ if _ then _ else _
    split
    · exact Nat.le_refl _
    · omega

theorem retryHostRelease_careful (leaseId : Nat) :
    Careful (retryHostReleaseForDispatcher leaseId) := by
  intro u h books
  unfold retryHostReleaseForDispatcher
  split
  · exact ⟨books, rfl⟩
  · exact ⟨books.endLease.same ⟨rfl, rfl, rfl, rfl, rfl, rfl, rfl, rfl⟩, rfl⟩

theorem deferHostRelease_careful (leaseId : Nat) :
    Careful (deferHostReleaseForDispatcher leaseId) := by
  intro u h books
  unfold deferHostReleaseForDispatcher
  split
  · exact ⟨books, rfl⟩
  · exact ⟨books.endLease.same ⟨rfl, rfl, rfl, rfl, rfl, rfl, rfl, rfl⟩, rfl⟩

/-- Swapping a pending record to the head and stepping over it takes out what it held. -/
theorem externalOf_swapRecords {queue : List HostReleaseRecord} {active head : Nat}
    {record : HostReleaseRecord} (there : queue[active]? = some record) (order : head ≤ active) :
    (swapRecords active head queue).length = queue.length ∧
      externalOf ((swapRecords active head queue).drop (head + 1)) + record.externalBytes =
        externalOf (queue.drop head) := by
  obtain ⟨inside, -⟩ := List.getElem?_eq_some_iff.mp there
  have first : queue[head]? = some queue[head] := List.getElem?_eq_getElem (by omega)
  have cut := List.drop_eq_getElem_cons (l := queue) (i := head) (by omega)
  simp only [swapRecords, there, first, List.length_set, true_and]
  rw [List.drop_set_of_lt (by omega), cut, externalOf_cons]
  by_cases here : active = head
  · subst here
    rw [List.drop_set_of_lt (by omega)]
    cases first.symm.trans there
    omega
  · have later : (queue.drop (head + 1))[active - (head + 1)]? = some record := by
      rw [List.getElem?_drop, show head + 1 + (active - (head + 1)) = active by omega, there]
    have swapped := Arena.sum_map_set HostReleaseRecord.externalBytes queue[head] later
    rw [List.drop_set, if_neg (by omega)]
    simp only [externalOf]
    omega

theorem acknowledgeHostRelease_careful (leaseId : Nat) :
    Careful (acknowledgeHostReleaseForDispatcher leaseId) := by
  intro u h books
  unfold acknowledgeHostReleaseForDispatcher
  split
  · exact ⟨books, rfl⟩
  rename_i record there
  split
  · exact ⟨books, rfl⟩
  rename_i owned
  obtain ⟨owns, fits⟩ := not_or.mp owned
  have active : h.releaseLeaseActive = true := by
    simp only [ownsLease, Bool.not_eq_true', Bool.not_eq_false, Bool.and_eq_true] at owns
    exact owns.1.1
  have order := books.lease active
  obtain ⟨inside, -⟩ := List.getElem?_eq_some_iff.mp there
  obtain ⟨same, swapped⟩ := externalOf_swapRecords there order
  dsimp only
  generalize (if h.activeReleaseIndex < h.releaseHead + 1 ∨
    h.activeReleaseIndex ≥ h.releaseQueue.length then h.releaseHead + 1
    else h.activeReleaseIndex) = cursor
  have acknowledged : Books u (endLease { h with
      externalBytes := h.externalBytes - record.externalBytes
      releaseQueue := swapRecords h.activeReleaseIndex h.releaseHead h.releaseQueue
      releaseHead := h.releaseHead + 1
      releaseCursor := cursor }) := by
    have external := books.external
    refine ⟨books.cells, books.bytes, books.strings, ?_, ⟨books.within.cells,
      books.within.bytes, books.within.strings, ?_⟩, ?_, ?_, nofun⟩
    · show h.externalBytes - record.externalBytes =
        h.arena.total (fun cell => openCharge cell.data) +
          externalOf ((swapRecords h.activeReleaseIndex h.releaseHead h.releaseQueue).drop
            (h.releaseHead + 1)) + u.external
      rw [pendingExternal] at external
      omega
    · exact Nat.le_trans (Nat.sub_le _ _) books.within.external
    · exact Nat.le_trans (Nat.sub_le _ _) books.word
    · show h.releaseHead + 1 ≤
        (swapRecords h.activeReleaseIndex h.releaseHead h.releaseQueue).length
      omega
  split
  · exact ⟨acknowledged.compact, compact_reservations _⟩
  · exact ⟨acknowledged, rfl⟩

/-! The end of the heap. -/

theorem teardownForDispatcher_held : Keeps (Held u reservations) teardownForDispatcher := by
  refine keeps_read.andThen (fun m => (keeps_refuseIf _ _).andThen (fun _ => ?_))
  refine meets_ite (fun _ => keeps_pure _) (fun _ => ?_)
  refine Keeps.andThen (reserveSweepStorage_keeps _ _ (fun _ _ held => held)) (fun _ => ?_)
  refine keeps_modify (fun m held => ⟨?_, ?_⟩)
  · exact (held.1.sweepSlots _ _ _).same ⟨rfl, rfl, rfl, rfl, rfl, rfl, rfl, rfl⟩
  · exact (sweepSlots_reservations _ _ _ _).trans held.2

theorem totalExternalBytes_ok {records : List HostReleaseRecord}
    (fits : externalOf records ≤ sizeMax) :
    totalExternalBytes records = .ok (externalOf records) := by
  have from_ (records : List HostReleaseRecord) (bytes : Nat)
      (fits : bytes + externalOf records ≤ sizeMax) :
      records.foldlM (fun bytes record =>
        if record.externalBytes > sizeMax - bytes then
          (fault .memoryLimitExceeded "legacy release accounting overflow" : Except HeapError Nat)
        else .ok (bytes + record.externalBytes)) bytes = .ok (bytes + externalOf records) := by
    induction records generalizing bytes with
    | nil => rfl
    | cons record records ih =>
      rw [externalOf_cons] at fits
      rw [List.foldlM_cons, if_neg (by omega), externalOf_cons, ← Nat.add_assoc]
      exact ih _ (by omega)
  have all := from_ records 0 (by omega)
  rw [Nat.zero_add] at all
  exact all

/-- The lease is over and the queue begins at its head. -/
def Compacted (u : Owed) (reservations : List Nat) (m : Machine) : Prop :=
  Held u reservations m ∧ m.heap.releaseHead = 0

theorem compact_held {failed : Machine → Prop} :
    Meets (Held u reservations) (modifyHeap (fun h => compactReleaseQueue (endLease h)))
      (fun _ => Compacted u reservations) failed :=
  meets_modify _ (fun _ held => ⟨⟨held.1.endLease.compact, (compact_reservations _).trans held.2⟩,
    compact_head _⟩)

theorem Compacted.pending {m : Machine} (compacted : Compacted u reservations m) :
    pendingExternal m.heap = externalOf m.heap.releaseQueue := by
  rw [pendingExternal, compacted.2, List.drop_zero]

/-- The rest of the drain, once the queue begins at its head, always succeeds. -/
theorem drain_compacted {m : Machine} (compacted : Compacted u reservations m)
    {failed : Machine → Prop} :
    Meets (fun t => t = m) (do
        let result := m.heap.releaseQueue
        modifyHeap (fun h => { h with releaseQueue := [] })
        let bytes ← inspect (fun _ => totalExternalBytes result)
        refuseIf (bytes > (← read).heap.externalBytes)
          (.runtime .typeMismatch "legacy release accounting is corrupt")
        modifyHeap (fun h => { h with externalBytes := h.externalBytes - bytes })
        return result)
      (fun _ => Held u reservations) failed := by
  rintro t rfl
  obtain ⟨books, out⟩ := compacted.1
  have external := books.external
  rw [compacted.pending] at external
  have word := books.word
  have limit := books.within.external
  have total := @totalExternalBytes_ok t.heap.releaseQueue (by omega)
  have enough : ¬externalOf t.heap.releaseQueue > t.heap.externalBytes := by omega
  simp only [bind, andThen, modifyHeap, Program.modify, inspect, query, total, Program.read,
    refuseIf, if_neg enough, pure, done]
  refine ⟨⟨books.cells, books.bytes, books.strings, ?_, ⟨books.within.cells, books.within.bytes,
    books.within.strings, ?_⟩, ?_, ?_, ?_⟩, out⟩
  · show t.heap.externalBytes - externalOf t.heap.releaseQueue =
      t.heap.arena.total (fun cell => openCharge cell.data) +
        externalOf (([] : List HostReleaseRecord).drop t.heap.releaseHead) + u.external
    rw [List.drop_nil, externalOf_nil]
    omega
  · exact Nat.le_trans (Nat.sub_le _ _) limit
  · exact Nat.le_trans (Nat.sub_le _ _) word
  · exact Nat.le_of_eq compacted.2
  · exact books.lease

/-- The drain fails only where it changes nothing. -/
theorem drainReleaseQueue_held {m : Machine} (held : Held u reservations m) :
    Meets (fun t => t = m) drainReleaseQueue (fun _ => Held u reservations)
      (fun t => t = m ∧ m.heap.evaluatorBoundaryDepth ≠ 0) := by
  unfold drainReleaseQueue
  refine meets_reading (fun s same => ?_)
  subst same
  by_cases busy : s.heap.evaluatorBoundaryDepth ≠ 0
  · unfold refuseIf
    rw [if_pos busy]
    rintro t rfl
    exact ⟨rfl, busy⟩
  · unfold refuseIf
    rw [if_neg busy]
    rintro t rfl
    exact (compact_held.bind (fun _ => meets_reading (fun m compacted =>
      drain_compacted compacted))) t held

theorem drainReleaseQueue_kept : Keeps (Held u reservations) drainReleaseQueue :=
  fun m held => ((drainReleaseQueue_held held).weaken (fun _ h => h) (fun _ _ h => h)
    (fun _ refused => refused.1 ▸ held)) m rfl

theorem detachHostReleases_held (external : Nat) :
    Meets (Held (onlyExternal external) reservations) detachHostReleases
      (fun r => Held (onlyExternal (external + externalOf r.1)) reservations)
      (Held (onlyExternal external) reservations) := by
  unfold detachHostReleases
  refine Meets.bind keeps_read (fun _ => Meets.bind (keeps_refuseIf _ _) (fun _ => ?_))
  refine Meets.bind keeps_read (fun _ => Meets.bind (keeps_refuseIf _ _) (fun _ => ?_))
  refine Meets.bind compact_held (fun _ => meets_reading (fun m compacted => ?_))
  refine Meets.bind (meets_modify _ (fun s same => ?_)) (fun _ => meets_pure _ (fun _ h => h))
  subst same
  obtain ⟨books, out⟩ := compacted.1
  have external := books.external
  rw [compacted.pending] at external
  refine ⟨⟨books.cells, books.bytes, books.strings, ?_, ⟨books.within.cells, books.within.bytes,
    books.within.strings, books.within.external⟩, books.word, Nat.le_refl _,
    fun _ => Nat.zero_le _⟩, out⟩
  show s.heap.externalBytes = s.heap.arena.total (fun cell => openCharge cell.data) + 0 +
    (_ + externalOf s.heap.releaseQueue)
  simp only [onlyExternal] at external
  omega

end Baas.Script
