import Baas.Script.HeapWrite

/-! The books of the heap: its counters against the charges recorded in live cells, and
its ledger of external memory against open handles and pending releases. -/
namespace Baas.Script

open Program

/-- What a handle holds of the external ledger while it is open. -/
def openCharge : CellData → Nat
  | .hostCell metadata => if metadata.closed then 0 else metadata.externalBytes
  | _ => 0

def externalOf (records : List HostReleaseRecord) : Nat :=
  (records.map HostReleaseRecord.externalBytes).sum

@[simp] theorem externalOf_nil : externalOf [] = 0 := rfl

@[simp] theorem externalOf_cons (record : HostReleaseRecord) (records : List HostReleaseRecord) :
    externalOf (record :: records) = record.externalBytes + externalOf records := by
  simp [externalOf]

@[simp] theorem externalOf_append (a b : List HostReleaseRecord) :
    externalOf (a ++ b) = externalOf a + externalOf b := by
  simp [externalOf]

def pendingExternal (h : Heap) : Nat := externalOf (h.releaseQueue.drop h.releaseHead)

/-- What the counters hold besides the live cells and the pending releases. -/
@[ext] structure Owed where
  cells : Nat
  bytes : Nat
  strings : Nat
  external : Nat

def Owed.plus (u : Owed) (charge : Charge) (cells : Nat) : Owed :=
  ⟨u.cells + cells, u.bytes + charge.bytes, u.strings + charge.strings,
    u.external + charge.external⟩

/-- External memory alone. -/
def onlyExternal (bytes : Nat) : Owed := ⟨0, 0, 0, bytes⟩

structure Within (h : Heap) : Prop where
  cells : h.stats.liveCells ≤ h.limits.maxCells
  bytes : h.stats.liveBytes ≤ h.limits.maxLiveBytes
  strings : h.stats.stringBytes ≤ h.limits.maxStringBytes
  external : h.externalBytes ≤ h.limits.maxExternalBytes

structure Books (u : Owed) (h : Heap) : Prop where
  cells : h.stats.liveCells = h.arena.total (fun _ => 1) + u.cells
  bytes : h.stats.liveBytes = h.arena.total Cell.accountedBytes + u.bytes
  strings : h.stats.stringBytes = h.arena.total Cell.accountedStringBytes + u.strings
  external : h.externalBytes =
    h.arena.total (fun cell => openCharge cell.data) + pendingExternal h + u.external
  within : Within h
  word : h.externalBytes ≤ sizeMax
  head : h.releaseHead ≤ h.releaseQueue.length
  lease : h.releaseLeaseActive = true → h.releaseHead ≤ h.activeReleaseIndex

/-- The same counters, cells and queue. -/
structure SameBooks (a b : Heap) : Prop where
  stats : b.stats = a.stats
  arena : b.arena = a.arena
  limits : b.limits = a.limits
  external : b.externalBytes = a.externalBytes
  queue : b.releaseQueue = a.releaseQueue
  head : b.releaseHead = a.releaseHead
  active : b.activeReleaseIndex = a.activeReleaseIndex
  lease : b.releaseLeaseActive = a.releaseLeaseActive

theorem Books.same {u : Owed} {a b : Heap} (books : Books u a) (same : SameBooks a b) :
    Books u b := by
  constructor
  · rw [same.stats, same.arena]
    exact books.cells
  · rw [same.stats, same.arena]
    exact books.bytes
  · rw [same.stats, same.arena]
    exact books.strings
  · rw [pendingExternal, same.external, same.arena, same.queue, same.head]
    exact books.external
  · refine ⟨?_, ?_, ?_, ?_⟩
    · rw [same.stats, same.limits]
      exact books.within.cells
    · rw [same.stats, same.limits]
      exact books.within.bytes
    · rw [same.stats, same.limits]
      exact books.within.strings
    · rw [same.external, same.limits]
      exact books.within.external
  · rw [same.external]
    exact books.word
  · rw [same.head, same.queue]
    exact books.head
  · rw [same.lease, same.head, same.active]
    exact books.lease

/-! The queue of releases. -/

/-- A release is queued before the head or at the end, and adds what the handle held. -/
theorem queueHostRelease_queues (metadata : HostHandleMetadata) (h : Heap) :
    ∃ queue head, queueHostRelease metadata h =
        { h with releaseQueue := queue, releaseHead := head } ∧ head ≤ h.releaseHead ∧
      (h.releaseHead ≤ h.releaseQueue.length → head ≤ queue.length ∧
        externalOf (queue.drop head) = pendingExternal h + openCharge (.hostCell metadata)) := by
  unfold queueHostRelease openCharge
  by_cases closed : metadata.closed = true
  · rw [if_pos closed]
    refine ⟨h.releaseQueue, h.releaseHead, rfl, Nat.le_refl _, fun inside => ⟨inside, ?_⟩⟩
    simp [closed, pendingExternal]
  · rw [if_neg closed]
    by_cases gap : h.releaseHead ≠ 0
    · rw [if_pos gap]
      refine ⟨_, _, rfl, Nat.sub_le _ _, fun inside => ?_⟩
      have free : h.releaseHead - 1 < (h.releaseQueue.set (h.releaseHead - 1)
          (releaseRecord metadata)).length := by
        rw [List.length_set]
        omega
      refine ⟨Nat.le_of_lt free, ?_⟩
      rw [List.drop_eq_getElem_cons free, List.getElem_set_self,
        List.drop_set_of_lt (by omega), show h.releaseHead - 1 + 1 = h.releaseHead by omega]
      simp [closed, pendingExternal, releaseRecord]
      omega
    · rw [if_neg gap]
      refine ⟨_, _, rfl, Nat.le_refl _, fun inside => ⟨?_, ?_⟩⟩
      · rw [List.length_append]
        omega
      · rw [List.drop_append_of_le_length inside]
        simp [closed, pendingExternal, releaseRecord]

theorem releaseCell_queues (cell : Cell) (h : Heap) :
    ∃ queue head, releaseCell cell h = { h with releaseQueue := queue, releaseHead := head } ∧
      head ≤ h.releaseHead ∧
      (h.releaseHead ≤ h.releaseQueue.length → head ≤ queue.length ∧
        externalOf (queue.drop head) = pendingExternal h + openCharge cell.data) := by
  unfold releaseCell
  split
  · rename_i metadata host
    rw [host]
    exact queueHostRelease_queues metadata h
  · rename_i other
    refine ⟨h.releaseQueue, h.releaseHead, rfl, Nat.le_refl _, fun inside => ⟨inside, ?_⟩⟩
    have none : openCharge cell.data = 0 := by
      unfold openCharge
      split
      · rename_i metadata host
        exact absurd host (other metadata)
      · rfl
    rw [none]
    rfl

/-! The sweep. -/

variable {u : Owed}

theorem Books.retireSlot {h : Heap} (books : Books u h) (reusable : Bool) (index : Nat) :
    Books u (retireSlot reusable h index) := by
  unfold Script.retireSlot
  split
  · rename_i cell generation found
    obtain ⟨queue, head, released, before, queued⟩ := releaseCell_queues cell h
    obtain ⟨inside, pending⟩ := queued books.head
    rw [released]
    generalize (if reusable = true then lastGeneration else generation) = last
    have one := Arena.total_retire (fun _ : Cell => 1) found last
    have bytes := Arena.total_retire Cell.accountedBytes found last
    have strings := Arena.total_retire Cell.accountedStringBytes found last
    have held := Arena.total_retire (fun cell : Cell => openCharge cell.data) found last
    have wasCells := books.cells
    have wasBytes := books.bytes
    have wasStrings := books.strings
    have wasExternal := books.external
    refine ⟨?_, ?_, ?_, ?_, ⟨?_, ?_, ?_, books.within.external⟩, books.word, inside, ?_⟩
    · show h.stats.liveCells - 1 = (h.arena.retire last index).total (fun _ => 1) + u.cells
      omega
    · show h.stats.liveBytes - cell.accountedBytes =
        (h.arena.retire last index).total Cell.accountedBytes + u.bytes
      omega
    · show h.stats.stringBytes - cell.accountedStringBytes =
        (h.arena.retire last index).total Cell.accountedStringBytes + u.strings
      omega
    · show h.externalBytes = (h.arena.retire last index).total (fun cell => openCharge cell.data) +
        externalOf (queue.drop head) + u.external
      omega
    · exact Nat.le_trans (Nat.sub_le _ _) books.within.cells
    · exact Nat.le_trans (Nat.sub_le _ _) books.within.bytes
    · exact Nat.le_trans (Nat.sub_le _ _) books.within.strings
    · exact fun active => Nat.le_trans before (books.lease active)
  · exact books

theorem retireSlot_reservations (reusable : Bool) (h : Heap) (index : Nat) :
    (retireSlot reusable h index).reservations = h.reservations := by
  unfold retireSlot
  split
  · rename_i cell generation found
    obtain ⟨queue, head, released, -⟩ := releaseCell_queues cell h
    rw [released]
  · rfl

theorem Books.sweepSlots {h : Heap} (books : Books u h) (keep : Nat → Bool) (reusable : Bool)
    (indices : List Nat) : Books u (sweepSlots keep reusable indices h) := by
  induction indices generalizing h with
  | nil => exact books
  | cons index indices ih =>
    unfold Script.sweepSlots at ih ⊢
    rw [List.foldl_cons]
    split
    · exact ih books
    · exact ih (books.retireSlot reusable index)

theorem sweepSlots_reservations (keep : Nat → Bool) (reusable : Bool) (indices : List Nat)
    (h : Heap) : (sweepSlots keep reusable indices h).reservations = h.reservations := by
  induction indices generalizing h with
  | nil => rfl
  | cons index indices ih =>
    unfold sweepSlots at ih ⊢
    rw [List.foldl_cons, ih]
    split
    · rfl
    · exact retireSlot_reservations reusable h index

theorem Books.sweep {h : Heap} (books : Books u h) (keep : Nat → Bool) :
    Books u (sweep keep h) := by
  refine Books.sweepSlots ?_ keep true _
  exact ⟨books.cells, books.bytes, books.strings, books.external,
    ⟨books.within.cells, books.within.bytes, books.within.strings, books.within.external⟩,
    books.word, books.head, books.lease⟩

/-- The books, and the reservations that are out. -/
def Held (u : Owed) (reservations : List Nat) (m : Machine) : Prop :=
  Books u m.heap ∧ m.heap.reservations = reservations

variable {reservations : List Nat}

theorem native_held (failure : HeapError) : Keeps (Held u reservations) (native failure) :=
  native_keeps failure (fun _ _ held => held)

theorem modify_held {f : Heap → Heap} (same : ∀ h, SameBooks h (f h))
    (out : ∀ h, (f h).reservations = h.reservations) :
    Keeps (Held u reservations) (modifyHeap f) :=
  keeps_modify (fun m held => ⟨held.1.same (same m.heap), (out m.heap).trans held.2⟩)

theorem collectUnrecorded_held : Keeps (Held u reservations) collectUnrecorded := by
  unfold collectUnrecorded
  refine keeps_read.andThen (fun _ => (keeps_refuseIf _ _).andThen (fun _ => ?_))
  refine (native_held _).andThen (fun _ => (keeps_query _).andThen (fun marked => ?_))
  refine (reserveSweepStorage_keeps _ _ (fun _ _ held => held)).andThen (fun _ => ?_)
  refine keeps_modify (fun m held => ⟨held.1.sweep _, ?_⟩)
  exact (sweepSlots_reservations _ _ _ _).trans held.2

theorem collect_held : Keeps (Held u reservations) collect := by
  intro m held
  have kept := collectUnrecorded_held m held
  unfold collect
  cases outcome : collectUnrecorded m with
  | mk result t =>
    rw [outcome] at kept
    cases result with
    | ok _ => exact kept
    | error _ => exact kept

/-! Charging. -/

/-- There is room for a charge. -/
structure Room (charge : Charge) (cells : Nat) (h : Heap) : Prop where
  cells : h.stats.liveCells + cells ≤ h.limits.maxCells
  bytes : h.stats.liveBytes + charge.bytes ≤ h.limits.maxLiveBytes
  strings : h.stats.stringBytes + charge.strings ≤ h.limits.maxStringBytes
  external : h.externalBytes + charge.external ≤ h.limits.maxExternalBytes
  word : h.externalBytes + charge.external ≤ sizeMax

theorem checkedAdd_within {left right limit : Nat}
    (fits : ¬(checkedAdd left right).all (· > limit) = true) :
    left + right ≤ limit ∧ (left ≤ sizeMax → left + right ≤ sizeMax) := by
  unfold checkedAdd at fits
  split at fits
  · exact absurd rfl fits
  · rename_i room
    simp only [Option.all_some, decide_eq_true_eq, Nat.not_lt] at fits
    exact ⟨fits, fun inside => by omega⟩

theorem preflightLimits_room {charge : Charge} {addCell : Bool} {h : Heap} (books : Books u h)
    (ok : preflightLimits charge addCell h = .ok ()) :
    Room charge (if addCell then 1 else 0) h := by
  unfold preflightLimits at ok
  split at ok
  · cases ok
  rename_i bytes
  split at ok
  · cases ok
  rename_i strings
  split at ok
  · cases ok
  rename_i external
  split at ok
  · cases ok
  rename_i cells
  refine ⟨?_, (checkedAdd_within bytes).1, (checkedAdd_within strings).1,
    (checkedAdd_within external).1, (checkedAdd_within external).2 books.word⟩
  have before := books.within.cells
  cases addCell with
  | false => exact before
  | true =>
    simp only [true_and, ge_iff_le, Nat.not_le] at cells
    exact cells

theorem preflight_held (charge : Charge) (allocationSize : Nat) (addCell : Bool) :
    Meets (Held u reservations) (preflight charge allocationSize addCell)
      (fun _ m => Held u reservations m ∧ Room charge (if addCell then 1 else 0) m.heap)
      (Held u reservations) := by
  unfold preflight
  refine Meets.bind keeps_read (fun m => Meets.bind (keeps_refuseIf _ _) (fun _ => ?_))
  refine Meets.bind (keeps_refuseIf _ _) (fun _ => ?_)
  split
  · exact meets_raise _ (fun _ held => held)
  · refine Meets.bind (keeps_runIf collect_held) (fun _ => ?_)
    exact meets_query (fun m _ held ok => ⟨held, preflightLimits_room held.1 ok⟩)
      (fun _ held => held)

theorem Books.charge {h : Heap} (books : Books u h) {charge : Charge} {cells : Nat}
    (room : Room charge cells h) : Books (u.plus charge cells) (chargeHeap charge cells h) := by
  have wasCells := books.cells
  have wasBytes := books.bytes
  have wasStrings := books.strings
  have wasExternal := books.external
  refine ⟨?_, ?_, ?_, ?_, ⟨room.cells, room.bytes, room.strings, room.external⟩, room.word,
    books.head, books.lease⟩
  · show h.stats.liveCells + cells = h.arena.total (fun _ => 1) + (u.cells + cells)
    omega
  · show h.stats.liveBytes + charge.bytes =
      h.arena.total Cell.accountedBytes + (u.bytes + charge.bytes)
    omega
  · show h.stats.stringBytes + charge.strings =
      h.arena.total Cell.accountedStringBytes + (u.strings + charge.strings)
    omega
  · show h.externalBytes + charge.external = h.arena.total (fun cell => openCharge cell.data) +
      pendingExternal h + (u.external + charge.external)
    omega

theorem Books.refund {h : Heap} {charge : Charge} {cells : Nat}
    (books : Books (u.plus charge cells) h) : Books u (refundHeap charge cells h) := by
  have wasCells := books.cells
  have wasBytes := books.bytes
  have wasStrings := books.strings
  have wasExternal := books.external
  simp only [Owed.plus] at wasCells wasBytes wasStrings wasExternal
  refine ⟨?_, ?_, ?_, ?_, ⟨?_, ?_, ?_, ?_⟩, ?_, books.head, books.lease⟩
  · show h.stats.liveCells - cells = h.arena.total (fun _ => 1) + u.cells
    omega
  · show h.stats.liveBytes - charge.bytes = h.arena.total Cell.accountedBytes + u.bytes
    omega
  · show h.stats.stringBytes - charge.strings =
      h.arena.total Cell.accountedStringBytes + u.strings
    omega
  · show h.externalBytes - charge.external =
      h.arena.total (fun cell => openCharge cell.data) + pendingExternal h + u.external
    omega
  · exact Nat.le_trans (Nat.sub_le _ _) books.within.cells
  · exact Nat.le_trans (Nat.sub_le _ _) books.within.bytes
  · exact Nat.le_trans (Nat.sub_le _ _) books.within.strings
  · exact Nat.le_trans (Nat.sub_le _ _) books.within.external
  · exact Nat.le_trans (Nat.sub_le _ _) books.word

theorem charge_held (charge : Charge) (cells : Nat) :
    Meets (fun m => Held u reservations m ∧ Room charge cells m.heap)
      (modifyHeap (chargeHeap charge cells))
      (fun _ => Held (u.plus charge cells) reservations) (Held u reservations) :=
  meets_modify _ (fun _ held => ⟨held.1.1.charge held.2, held.1.2⟩)

theorem refund_held {failed : Machine → Prop} (charge : Charge) (cells : Nat) :
    Meets (Held (u.plus charge cells) reservations) (modifyHeap (refundHeap charge cells))
      (fun _ => Held u reservations) failed :=
  meets_modify _ (fun _ held => ⟨held.1.refund, held.2⟩)

/-- A native allocation whose failure gives a charge back. -/
theorem native_refunded_held (failure : HeapError) (charge : Charge) :
    Meets (Held (u.plus charge 1) reservations)
      ((native failure).catching (fun e => do modifyHeap (refundHeap charge 1); raise e))
      (fun _ => Held (u.plus charge 1) reservations) (Held u reservations) :=
  (native_held failure).catching (fun _ =>
    (refund_held charge 1).bind (fun _ => meets_raise _ (fun _ held => held)))

/-! What an allocation charges. -/

theorem addBytes_external {charge charge' : Charge} {bytes : Nat}
    (ok : charge.addBytes bytes = .ok charge') : charge'.external = charge.external := by
  obtain ⟨sum, -, made⟩ := bind_ok ok
  cases Except.ok.inj made
  rfl

theorem addVector_external {charge charge' : Charge} {capacity itemSize : Nat}
    (ok : charge.addVector capacity itemSize = .ok charge') :
    charge'.external = charge.external := by
  obtain ⟨bytes, -, made⟩ := bind_ok ok
  exact addBytes_external made

theorem addText_external {charge charge' : Charge} {text : Text}
    (ok : charge.addText text = .ok charge') : charge'.external = charge.external := by
  obtain ⟨bytes, first, rest⟩ := bind_ok ok
  obtain ⟨sum, -, made⟩ := bind_ok rest
  cases Except.ok.inj made
  have same : bytes.external = charge.external := addBytes_external first
  exact same

theorem addTexts_external {texts : List Text} {charge charge' : Charge}
    (ok : charge.addTexts texts = .ok charge') : charge'.external = charge.external := by
  unfold Charge.addTexts at ok
  induction texts generalizing charge with
  | nil =>
    cases Except.ok.inj ok
    rfl
  | cons text texts ih =>
    rw [List.foldlM_cons] at ok
    obtain ⟨middle, first, rest⟩ := bind_ok ok
    exact (ih rest).trans (addText_external first)

theorem chargeFor_external {p : Platform} {data : CellData} {charge : Charge}
    (ok : chargeFor p data = .ok charge) : charge.external = openCharge data := by
  unfold chargeFor at ok
  cases data with
  | stringCell value => exact addText_external ok
  | byteCell value => exact addVector_external ok
  | listCell values => exact addVector_external ok
  | mapCell entries =>
    obtain ⟨vector, first, rest⟩ := bind_ok ok
    exact (addTexts_external rest).trans (addVector_external first)
  | functionCell metadata => exact addVector_external ok
  | moduleCell metadata =>
    obtain ⟨name, first, rest⟩ := bind_ok ok
    obtain ⟨vector, second, rest⟩ := bind_ok rest
    exact (addTexts_external rest).trans
      ((addVector_external second).trans (addText_external first))
  | errorCell metadata =>
    obtain ⟨message, one, rest⟩ := bind_ok ok
    obtain ⟨source, two, rest⟩ := bind_ok rest
    obtain ⟨stack, three, rest⟩ := bind_ok rest
    obtain ⟨frames, four, rest⟩ := bind_ok rest
    obtain ⟨suppressed, five, rest⟩ := bind_ok rest
    obtain ⟨details, six, rest⟩ := bind_ok rest
    obtain ⟨keys, seven, rest⟩ := bind_ok rest
    calc charge.external = keys.external := addTexts_external rest
      _ = details.external := addTexts_external seven
      _ = suppressed.external := addVector_external six
      _ = frames.external := addVector_external five
      _ = stack.external := addTexts_external four
      _ = source.external := addVector_external three
      _ = message.external := addTexts_external two
      _ = 0 := addText_external one
  | taskCell metadata => exact addVector_external ok
  | hostCell metadata =>
    cases Except.ok.inj ok
    rfl

/-- The counters that allocation charged go over to the placed cell. -/
theorem placeCell_held (cell : Cell) {failed : Machine → Prop} :
    Meets (Held (u.plus ⟨cell.accountedBytes, cell.accountedStringBytes, openCharge cell.data⟩ 1)
        reservations)
      (placeCell cell) (fun _ => Held u reservations) failed := by
  rintro m ⟨books, out⟩
  refine ⟨?_, out⟩
  have wasCells := books.cells
  have wasBytes := books.bytes
  have wasStrings := books.strings
  have wasExternal := books.external
  simp only [Owed.plus] at wasCells wasBytes wasStrings wasExternal
  refine ⟨?_, ?_, ?_, ?_, ⟨books.within.cells, books.within.bytes, books.within.strings,
    books.within.external⟩, books.word, books.head, books.lease⟩
  · show m.heap.stats.liveCells = (m.heap.arena.place cell).1.total (fun _ => 1) + u.cells
    rw [Arena.total_place]
    omega
  · show m.heap.stats.liveBytes =
      (m.heap.arena.place cell).1.total Cell.accountedBytes + u.bytes
    rw [Arena.total_place]
    omega
  · show m.heap.stats.stringBytes =
      (m.heap.arena.place cell).1.total Cell.accountedStringBytes + u.strings
    rw [Arena.total_place]
    omega
  · show m.heap.externalBytes = (m.heap.arena.place cell).1.total
      (fun cell => openCharge cell.data) + pendingExternal m.heap + u.external
    rw [Arena.total_place]
    omega

/-- The part of the external ledger that a reserved allocation takes over. -/
def reservedCharge (externalReserved : Bool) (data : CellData) : Charge :=
  ⟨0, 0, if externalReserved then openCharge data else 0⟩

theorem allocate_held (data : CellData) (externalReserved : Bool) :
    Meets (Held (u.plus (reservedCharge externalReserved data) 0) reservations)
      (allocate data externalReserved) (fun _ => Held u reservations)
      (Held (u.plus (reservedCharge externalReserved data) 0) reservations) := by
  unfold allocate
  refine Meets.bind (keeps_query _) (fun _ => ?_)
  refine Meets.bind (meets_query (fun m charge held ok =>
    (⟨held, chargeFor_external ok⟩ : Held (u.plus (reservedCharge externalReserved data) 0)
      reservations m ∧ charge.external = openCharge data)) (fun _ held => held)) (fun charge => ?_)
  refine meets_of_fact (fun _ held => held.2) (fun external => Meets.forget ?_)
  refine Meets.bind (preflight_held _ _ _) (fun _ => ?_)
  refine Meets.bind (keeps_read.weaken (fun _ h => h) (fun _ _ h => h) (fun _ held => held.1))
    (fun m => ?_)
  refine Meets.bind ((keeps_refuseIf _ _).weaken (fun _ h => h) (fun _ _ h => h)
    (fun _ held => held.1)) (fun _ => ?_)
  refine Meets.bind (charge_held _ 1) (fun _ => ?_)
  refine Meets.bind (native_refunded_held _ _) (fun _ => ?_)
  refine Meets.bind (meets_runIf (fun _ => native_refunded_held _ _) (fun _ _ h => h))
    (fun _ => ?_)
  refine (placeCell_held _).weaken (fun m held => ?_) (fun _ _ held => held) (fun _ held => held)
  refine ⟨?_, held.2⟩
  have same : (u.plus (reservedCharge externalReserved data) 0).plus
      ⟨charge.bytes, charge.strings, if externalReserved = true then 0 else charge.external⟩ 1 =
      u.plus ⟨charge.bytes, charge.strings, openCharge data⟩ 1 := by
    cases externalReserved <;> simp [Owed.plus, reservedCharge, external]
  exact same ▸ held.1

end Baas.Script
