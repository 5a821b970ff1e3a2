import Baas.Script.HeapBooks

/-! Every public operation of the heap keeps the books, whether it returns or throws. -/
namespace Baas.Script

open Program

variable {origin : Heap} {u : Owed} {reservations : List Nat}

/-! Roots. -/

theorem addTemporaryRoot_held (value : Value) :
    Keeps (Held u reservations) (addTemporaryRoot value) := by
  refine keeps_read.andThen (fun _ => (keeps_refuseIf _ _).andThen (fun _ => ?_))
  refine (keeps_query _).andThen (fun _ => (native_held _).andThen (fun _ => ?_))
  exact modify_held (fun _ => ⟨rfl, rfl, rfl, rfl, rfl, rfl, rfl, rfl⟩) (fun _ => rfl)

theorem popTemporaryRoots_held {m : Machine} (held : Held u reservations m) (marker : Nat) :
    Held u reservations { m with heap := popTemporaryRoots marker m.heap } :=
  ⟨held.1.same ⟨rfl, rfl, rfl, rfl, rfl, rfl, rfl, rfl⟩, held.2⟩

/-- Sound, with its books kept. -/
def Booked (origin : Heap) (u : Owed) (reservations : List Nat) (m : Machine) : Prop :=
  Trace origin m ∧ Held u reservations m

/-- The same while an anchor holds. -/
def Moving (origin anchor : Heap) (u : Owed) (reservations : List Nat) (m : Machine) : Prop :=
  Going origin anchor m ∧ Held u reservations m

theorem inRootScope_held {α : Type} {before : Machine → Prop} {body : HeapProgram α} {w v : Owed}
    (h : Meets before body (fun _ => Held w reservations) (Held v reservations)) :
    Meets before (inRootScope body) (fun _ => Held w reservations) (Held v reservations) := by
  have look : Meets before (Program.read : HeapProgram Machine) (fun _ => before)
      (Held v reservations) := meets_read (fun _ h => h)
  refine look.bind (fun m => h.ensuring ?_ ?_)
  · exact fun _ t held => popTemporaryRoots_held held _
  · exact fun t held => popTemporaryRoots_held held _

/-- A body that runs with its values rooted may rely on everything they reach. -/
theorem rooted_held {α : Type} {values : List Value} {body : HeapProgram α} {w : Owed}
    (h : ∀ anchor, Sound anchor → (∀ value ∈ values, value ∈ anchor.temporaryRoots) →
      Meets (Moving origin anchor u reservations) body (fun _ => Held w reservations)
        (Held u reservations)) :
    Meets (Booked origin u reservations) (rooted values body) (fun _ => Held w reservations)
      (Held u reservations) := by
  refine inRootScope_held ?_
  have roots : Keeps (Held u reservations) (values.forM addTemporaryRoot) :=
    keeps_forM _ _ (fun value _ => addTemporaryRoot_held value)
  refine Meets.bind (((addTemporaryRoots_holding values []).both roots).weaken
    (fun _ start => ⟨⟨start.1, by simp⟩, start.2⟩) (fun _ _ h => h) (fun _ h => h.2))
    (fun _ m holding => ?_)
  exact h m.heap holding.1.1.here (fun v hv => holding.1.2 v (List.mem_append_left _ hv)) m
    ⟨.start holding.1.1, holding.2⟩

theorem addRoot_held (value : Value) : Keeps (Held u reservations) (addRoot value) := by
  refine keeps_read.andThen (fun _ => (keeps_refuseIf _ _).andThen (fun _ => ?_))
  refine (keeps_query _).andThen (fun _ => keeps_read.andThen (fun _ => ?_))
  refine (keeps_refuseIf _ _).andThen (fun _ => Keeps.andThen ?_ (fun _ => ?_))
  · exact modify_held (fun _ => ⟨rfl, rfl, rfl, rfl, rfl, rfl, rfl, rfl⟩) (fun _ => rfl)
  refine (native_held _).andThen (fun _ => Keeps.andThen ?_ (fun _ => keeps_pure _))
  exact modify_held (fun _ => ⟨rfl, rfl, rfl, rfl, rfl, rfl, rfl, rfl⟩) (fun _ => rfl)

theorem updateRoot_held (id : Nat) (value : Value) :
    Keeps (Held u reservations) (updateRoot id value) := by
  refine keeps_read.andThen (fun _ => (keeps_refuseIf _ _).andThen (fun _ => ?_))
  refine (keeps_query _).andThen (fun _ => keeps_read.andThen (fun _ => ?_))
  refine meets_ite (fun _ => Keeps.andThen ?_ (fun _ => keeps_pure _)) (fun _ => keeps_pure _)
  exact modify_held (fun _ => ⟨rfl, rfl, rfl, rfl, rfl, rfl, rfl, rfl⟩) (fun _ => rfl)

theorem removeRoot_held (id : Nat) : Keeps (Held u reservations) (removeRoot id) := by
  refine keeps_read.andThen (fun _ => Keeps.andThen ?_ (fun _ => keeps_pure _))
  exact modify_held (fun _ => ⟨rfl, rfl, rfl, rfl, rfl, rfl, rfl, rfl⟩) (fun _ => rfl)

/-! Allocations. -/

theorem allocate_booked (data : CellData) :
    Keeps (Held u reservations) (allocate data false) :=
  allocate_held data false

theorem rooted_allocate_held (values : List Value) (data : CellData) :
    Meets (Booked origin u reservations) (rooted values (allocate data false))
      (fun _ => Held u reservations) (Held u reservations) :=
  rooted_held (fun _ _ _ => (allocate_booked data).weaken (fun _ h => h.2) (fun _ _ h => h)
    (fun _ h => h))

theorem requireUtf8_then {α : Type} {before : Machine → Prop} {bytes : Bytes} {message : String}
    {next : HeapProgram α} {after : α → Machine → Prop} {failed : Machine → Prop}
    (start : ∀ m, before m → failed m) (rest : Meets before next after failed) :
    Meets before (do requireUtf8 bytes message; next) after failed :=
  Meets.bind ((requireUtf8_keeps bytes message).weaken (fun _ h => h) (fun _ _ h => h) start)
    (fun _ => rest)

/-- The steps before a rooted allocation change nothing that matters to it. -/
theorem native_booked (failure : HeapError) :
    Meets (Booked origin u reservations) (native failure)
      (fun _ => Booked origin u reservations) (Held u reservations) :=
  ((native_trace failure).both (native_held failure)).weaken (fun _ h => h) (fun _ _ h => h)
    (fun _ h => h.2)

theorem query_booked {α : Type} (f : Heap → Except HeapError α) :
    Meets (Booked origin u reservations) (inspect f)
      (fun _ => Booked origin u reservations) (Held u reservations) :=
  (keeps_query _).weaken (fun _ h => h) (fun _ _ h => h) (fun _ h => h.2)

theorem read_booked : Meets (Booked origin u reservations) (read : HeapProgram Machine)
    (fun _ => Booked origin u reservations) (Held u reservations) :=
  keeps_read.weaken (fun _ h => h) (fun _ _ h => h) (fun _ h => h.2)

theorem allocateMap_held (entries : List (Text × Value)) :
    Meets (Booked origin u reservations) (allocateMap entries) (fun _ => Held u reservations)
      (Held u reservations) :=
  (native_booked _).bind (fun _ => (query_booked _).bind (fun _ => read_booked.bind (fun _ =>
    rooted_allocate_held _ _)))

theorem convertingBadAlloc_held {α : Type} {before : Machine → Prop} (message : String)
    {body : HeapProgram α} {after : α → Machine → Prop} {failed : Machine → Prop}
    (h : Meets before body after failed) :
    Meets before (convertingBadAlloc message body) after failed :=
  h.catching (fun _ => meets_raise _ (fun _ held => held))

theorem allocateError_held (metadata : ErrorMetadata) :
    Meets (Booked origin u reservations) (allocateError metadata) (fun _ => Held u reservations)
      (Held u reservations) :=
  convertingBadAlloc_held _ ((native_booked _).bind (fun _ => (query_booked _).bind (fun _ =>
    rooted_allocate_held _ _)))

theorem deriveError_held (primary : HeapRef) (additions : ErrorDerivation) :
    Meets (Booked origin u reservations) (deriveError primary additions)
      (fun _ => Held u reservations) (Held u reservations) :=
  convertingBadAlloc_held _ ((native_booked _).bind (fun _ => (query_booked _).bind (fun _ =>
    allocateError_held _)))

theorem allocateModule_held (metadata : ModuleMetadata) :
    Keeps (Held u reservations) (allocateModule metadata) := by
  refine (requireUtf8_keeps _ _).andThen (fun _ => inRootScope_held ?_)
  refine Keeps.andThen (keeps_forM _ _ (fun entry _ => ?_)) (fun _ => allocate_booked _)
  exact (requireUtf8_keeps _ _).andThen (fun _ => addTemporaryRoot_held _)

/-! Writes into live cells. -/

/-- A write moves what was charged for it into the cell. -/
theorem Books.write {h : Heap} {reference : HeapRef} {cell new : Cell} {c : Charge}
    (books : Books (u.plus c 0) h) (deref : dereference reference h = .ok cell)
    (bytes : new.accountedBytes = cell.accountedBytes + c.bytes)
    (strings : new.accountedStringBytes = cell.accountedStringBytes + c.strings)
    (external : openCharge new.data = openCharge cell.data + c.external) :
    Books u { h with arena := h.arena.update reference.slot new } := by
  have found := Arena.slot_of_get? (dereference_ok.mp deref).2
  have wasCells := books.cells
  have wasBytes := books.bytes
  have wasStrings := books.strings
  have wasExternal := books.external
  have one := Arena.total_update (fun _ : Cell => 1) found new
  have more := Arena.total_update Cell.accountedBytes found new
  have text := Arena.total_update Cell.accountedStringBytes found new
  have open' := Arena.total_update (fun cell : Cell => openCharge cell.data) found new
  simp only [Owed.plus] at wasCells wasBytes wasStrings wasExternal
  simp only [HeapRef.handle] at one more text open'
  refine ⟨?_, ?_, ?_, ?_, ⟨books.within.cells, books.within.bytes, books.within.strings,
    books.within.external⟩, books.word, books.head, books.lease⟩
  · show h.stats.liveCells = (h.arena.update reference.slot new).total (fun _ => 1) + u.cells
    omega
  · show h.stats.liveBytes =
      (h.arena.update reference.slot new).total Cell.accountedBytes + u.bytes
    omega
  · show h.stats.stringBytes =
      (h.arena.update reference.slot new).total Cell.accountedStringBytes + u.strings
    omega
  · show h.externalBytes = (h.arena.update reference.slot new).total
      (fun cell => openCharge cell.data) + pendingExternal h + u.external
    omega

theorem dereference_of_expected {α : Type} {pick : CellData → Option α} {reference : HeapRef}
    {h : Heap} {contents : α} (ok : expected pick reference h = .ok contents)
    {data : CellData} (kind : ∀ old, pick old = some contents → openCharge data = openCharge old) :
    ∃ cell, dereference reference h = .ok cell ∧ openCharge data = openCharge cell.data := by
  obtain ⟨cell, deref, picked⟩ := expected_ok ok
  exact ⟨cell, deref, kind _ picked⟩

/-- A write over a cell of the same kind; it cannot fail. -/
theorem writeCell_held (reference : HeapRef) (data : CellData) (bytes strings : Nat)
    {failed : Machine → Prop} :
    Meets (fun m => Held (u.plus ⟨bytes, strings, 0⟩ 0) reservations m ∧
        ∃ cell, dereference reference m.heap = .ok cell ∧ openCharge data = openCharge cell.data)
      (writeCell reference data bytes strings) (fun _ => Held u reservations) failed := by
  rintro m ⟨held, cell, deref, same⟩
  let new : Cell := { cell with
    data
    accountedBytes := cell.accountedBytes + bytes
    accountedStringBytes := cell.accountedStringBytes + strings }
  have ran : writeCell reference data bytes strings m =
      (.ok (), { m with heap :=
        { m.heap with arena := m.heap.arena.update reference.slot new } }) := by
    show andThen (inspect (dereference reference)) _ m = _
    simp only [andThen, inspect, query, deref]
    rfl
  rw [ran]
  exact ⟨held.1.write deref rfl rfl same, held.2⟩

theorem owed_nothing (u : Owed) : u.plus ⟨0, 0, 0⟩ 0 = u := rfl

theorem listSet_held (reference : HeapRef) (index : Nat) (value : Value) :
    Keeps (Held u reservations) (listSet reference index value) := by
  unfold listSet
  refine (keeps_query _).andThen (fun _ => ?_)
  refine Meets.bind (meets_query
    (fun (m : Machine) values held (ok : expected CellData.list? reference m.heap = .ok values) =>
      (⟨held, ok⟩ : Held u reservations m ∧ expected CellData.list? reference m.heap = .ok values))
    (fun _ held => held)) (fun values => ?_)
  split
  · refine (writeCell_held _ _ 0 0).weaken (fun m held => ⟨held.1, ?_⟩) (fun _ _ h => h)
      (fun _ h => h)
    refine dereference_of_expected held.2 (fun old picked => ?_)
    rw [list?_some picked]
    rfl
  · exact meets_raise _ (fun _ held => held.1)

/-! Growth. -/

theorem settle_held (reserved actual : Charge) (allocationSize : Nat)
    (none : reserved.external = 0) (none' : actual.external = 0) :
    Meets (Held (u.plus reserved 0) reservations) (settle reserved actual allocationSize)
      (fun _ => Held (u.plus actual 0) reservations) (Held (u.plus reserved 0) reservations) := by
  unfold settle
  have paid (m : Machine) (held : Held ((u.plus reserved 0).plus
      ⟨actual.bytes - reserved.bytes, actual.strings - reserved.strings, 0⟩ 0) reservations m) :
      Held ((u.plus actual 0).plus
        ⟨reserved.bytes - actual.bytes, reserved.strings - actual.strings, 0⟩ 0) reservations m := by
    have same : (u.plus reserved 0).plus
        ⟨actual.bytes - reserved.bytes, actual.strings - reserved.strings, 0⟩ 0 =
        (u.plus actual 0).plus
          ⟨reserved.bytes - actual.bytes, reserved.strings - actual.strings, 0⟩ 0 := by
      ext <;> simp only [Owed.plus] <;> omega
    exact ⟨same ▸ held.1, held.2⟩
  refine Meets.bind (meets_runIf (fun _ => ?_) (fun fits m held => ?_))
    (fun _ => refund_held _ 0)
  · refine Meets.bind (preflight_held _ _ false) (fun _ => ?_)
    exact (charge_held _ 0).weaken (fun _ h => h) (fun _ m held => paid m held) (fun _ h => h)
  · refine paid m ⟨?_, held.2⟩
    have bytes : actual.bytes - reserved.bytes = 0 := by omega
    have strings : actual.strings - reserved.strings = 0 := by omega
    rw [bytes, strings]
    exact held.1

theorem refunding_held {α : Type} {charge : Charge} {message : String} {body : HeapProgram α}
    {before : Machine → Prop} {after : α → Machine → Prop}
    (h : Meets before body after (Held (u.plus charge 0) reservations)) :
    Meets before (refunding charge message body) after (Held u reservations) :=
  h.catching (fun _ => (refund_held charge 0).bind (fun _ => meets_raise _ (fun _ held => held)))

theorem growList_held (reference : HeapRef) (value : Value) (desired oldVectorBytes bytes : Nat) :
    Meets (Held (u.plus ⟨bytes, 0, 0⟩ 0) reservations)
      (growList reference value desired oldVectorBytes ⟨bytes, 0, 0⟩)
      (fun grown => Held (u.plus ⟨grown.2, 0, 0⟩ 0) reservations) (Held u reservations) := by
  refine refunding_held (Meets.bind (native_held _) (fun _ => Meets.bind keeps_read (fun m => ?_)))
  refine Meets.bind (keeps_query _) (fun current => Meets.bind (keeps_query _) (fun actual => ?_))
  refine Meets.bind (settle_held _ _ _ rfl rfl) (fun _ => meets_pure _ (fun _ held => held))

theorem growMap_held (reference : HeapRef) (key : Text) (value : Value)
    (desired oldVector bytes strings : Nat) :
    Meets (Held (u.plus ⟨bytes, strings, 0⟩ 0) reservations)
      (growMap reference key value desired oldVector ⟨bytes, strings, 0⟩)
      (fun grown m => Held (u.plus grown.2 0) reservations m ∧ grown.2.external = 0)
      (Held u reservations) := by
  refine refunding_held (Meets.bind (native_held _) (fun _ => Meets.bind keeps_read (fun m => ?_)))
  refine Meets.bind (keeps_query _) (fun current => Meets.bind (keeps_query _) (fun actual => ?_))
  refine Meets.bind (keeps_query _) (fun bytes => Meets.bind (keeps_query _)
    (fun allocation => ?_))
  refine Meets.bind (settle_held _ _ _ rfl rfl) (fun _ => meets_pure _ (fun _ held => ⟨held, rfl⟩))

/-- What the anchor holds at a rooted reference is still there. -/
theorem Going.still {anchor : Heap} {m : Machine} (going : Going origin anchor m)
    {reference : HeapRef} (held : .ref reference ∈ anchor.temporaryRoots) {cell : Cell}
    (deref : dereference reference anchor = .ok cell) :
    dereference reference m.heap = .ok cell :=
  going.2.cells reference cell (.root (List.mem_append_right _ held)) deref

/-- The last look at a rooted cell finds it, so the write that follows happens. -/
theorem write_moving {α : Type} {anchor : Heap} {pick : CellData → Option α} {contents : α}
    {reference : HeapRef} {data : CellData} {bytes strings : Nat} {cell : Cell}
    {failed : Machine → Prop} (held : .ref reference ∈ anchor.temporaryRoots)
    (deref : dereference reference anchor = .ok cell) (picked : pick cell.data = some contents)
    (same : openCharge data = openCharge cell.data) :
    Meets (Moving origin anchor (u.plus ⟨bytes, strings, 0⟩ 0) reservations)
      (do let _ ← inspect (expected pick reference); writeCell reference data bytes strings)
      (fun _ => Held u reservations) failed := by
  intro m moving
  have here : expected pick reference m.heap = .ok contents := by
    unfold expected
    rw [moving.1.still held deref]
    simp only [bind, Except.bind, picked]
  have seen : (do let _ ← inspect (expected pick reference)
                  writeCell reference data bytes strings : HeapProgram Unit) m =
      writeCell reference data bytes strings m := by
    show andThen (inspect (expected pick reference)) _ m = _
    simp only [andThen, inspect, query, here]
  rw [seen]
  exact writeCell_held reference data bytes strings m
    ⟨moving.2, cell, moving.1.still held deref, same⟩

section Growth

variable {anchor : Heap}

theorem moving_keep {α : Type} {m : HeapProgram α} (going : Keeps (Going origin anchor) m)
    (held : Keeps (Held u reservations) m) :
    Meets (Moving origin anchor u reservations) m
      (fun _ => Moving origin anchor u reservations) (Held u reservations) :=
  (going.both held).weaken (fun _ h => h) (fun _ _ h => h) (fun _ h => h.2)

theorem inspect_moving {α : Type} (f : Heap → Except HeapError α) :
    Meets (Moving origin anchor u reservations) (inspect f)
      (fun a m => Moving origin anchor u reservations m ∧ f m.heap = .ok a)
      (Held u reservations) :=
  meets_query (fun _ _ moving ok => ⟨moving, ok⟩) (fun _ moving => moving.2)

theorem preflight_moving (charge : Charge) (allocationSize : Nat) :
    Meets (Moving origin anchor u reservations) (preflight charge allocationSize false)
      (fun _ m => Moving origin anchor u reservations m ∧ Room charge 0 m.heap)
      (Held u reservations) :=
  ((preflight_going charge allocationSize false).both
    (preflight_held charge allocationSize false)).weaken (fun _ h => h)
    (fun _ _ h => ⟨⟨h.1, h.2.1⟩, h.2.2⟩) (fun _ h => h.2)

theorem charge_moving (charge : Charge) :
    Meets (fun m => Moving origin anchor u reservations m ∧ Room charge 0 m.heap)
      (modifyHeap (chargeHeap charge 0))
      (fun _ => Moving origin anchor (u.plus charge 0) reservations) (Held u reservations) :=
  ((charge_going charge 0).both (charge_held charge 0)).weaken
    (fun _ h => ⟨h.1.1, h.1.2, h.2⟩) (fun _ _ h => h) (fun _ h => h.2)

/-- What an inspection of a rooted cell finds is what the anchor holds there. -/
theorem inspect_moving_pinned {α β : Type} {pick : CellData → Option α} {reference : HeapRef}
    {next : α → HeapProgram β} {after : β → Machine → Prop} (sound : Sound anchor)
    (held : .ref reference ∈ anchor.temporaryRoots)
    (rest : ∀ contents cell, dereference reference anchor = .ok cell →
      pick cell.data = some contents →
      Meets (Moving origin anchor u reservations) (next contents) after (Held u reservations)) :
    Meets (Moving origin anchor u reservations) (inspect (expected pick reference) >>= next) after
      (Held u reservations) := by
  refine Meets.bind (inspect_moving _) (fun contents m h => ?_)
  obtain ⟨cell, deref, picked⟩ := expected_ok h.2
  exact rest contents cell (h.1.1.pinned sound held deref) picked m h.1

theorem listAppend_held (reference : HeapRef) (value : Value) :
    Meets (Booked origin u reservations) (listAppend reference value)
      (fun _ => Held u reservations) (Held u reservations) := by
  refine rooted_held (fun anchor sound held => ?_)
  have heldList : .ref reference ∈ anchor.temporaryRoots := held _ List.mem_cons_self
  have heldValue : value ∈ anchor.temporaryRoots :=
    held _ (List.mem_cons_of_mem _ List.mem_cons_self)
  refine Meets.bind (moving_keep (keeps_query _) (keeps_query _)) (fun _ => ?_)
  refine inspect_moving_pinned sound heldList (fun before cell deref picked => ?_)
  refine Meets.bind (moving_keep keeps_read keeps_read) (fun m => ?_)
  refine Meets.bind (moving_keep (keeps_query _) (keeps_query _)) (fun newVectorBytes => ?_)
  refine Meets.bind (moving_keep (keeps_query _) (keeps_query _)) (fun oldVectorBytes => ?_)
  refine Meets.bind (preflight_moving _ _) (fun _ => Meets.bind (charge_moving _) (fun _ => ?_))
  refine Meets.bind (((growList_going sound heldList heldValue deref).both
    (growList_held _ _ _ _ _)).weaken (fun _ h => h)
    (fun grown _ h => (⟨h.1.1, h.2⟩ : Moving origin anchor (u.plus ⟨grown.2, 0, 0⟩ 0)
      reservations _)) (fun _ h => h.2)) (fun grown => ?_)
  refine write_moving heldList deref picked ?_
  rw [list?_some picked]
  rfl

theorem mapAppend_held {reference : HeapRef} {key : Text} {value : Value} (sound : Sound anchor)
    (heldMap : .ref reference ∈ anchor.temporaryRoots)
    (heldValue : value ∈ anchor.temporaryRoots) :
    Meets (Moving origin anchor u reservations) (mapAppend reference key value)
      (fun _ => Held u reservations) (Held u reservations) := by
  refine inspect_moving_pinned sound heldMap (fun before cell deref picked => ?_)
  refine Meets.bind (moving_keep keeps_read keeps_read) (fun m => ?_)
  refine Meets.bind (moving_keep (keeps_query _) (keeps_query _)) (fun oldVector => ?_)
  refine Meets.bind (moving_keep (keeps_query _) (keeps_query _)) (fun newVector => ?_)
  refine Meets.bind (moving_keep (keeps_query _) (keeps_query _)) (fun deltaBytes => ?_)
  refine Meets.bind (moving_keep (keeps_query _) (keeps_query _)) (fun allocationSize => ?_)
  refine Meets.bind (preflight_moving _ _) (fun _ => Meets.bind (charge_moving _) (fun _ => ?_))
  refine Meets.bind (((growMap_going sound heldMap heldValue deref).both
    (growMap_held _ _ _ _ _ _ _)).weaken (fun _ h => h)
    (fun grown _ h => (⟨⟨h.1.1, h.2.1⟩, h.2.2⟩ : Moving origin anchor (u.plus grown.2 0)
      reservations _ ∧ grown.2.external = 0)) (fun _ h => h.2)) (fun grown => ?_)
  refine meets_of_fact (fun _ h => h.2) (fun none => Meets.forget ?_)
  have whole : grown.2 = ⟨grown.2.bytes, grown.2.strings, 0⟩ := by
    rw [← none]
  rw [whole]
  refine write_moving heldMap deref picked ?_
  rw [map?_some picked]
  rfl

theorem mapSet_held (reference : HeapRef) (key : Text) (value : Value) :
    Meets (Booked origin u reservations) (mapSet reference key value)
      (fun _ => Held u reservations) (Held u reservations) := by
  refine requireUtf8_then (fun _ h => h.2) (rooted_held (fun anchor sound held => ?_))
  have heldMap : .ref reference ∈ anchor.temporaryRoots := held _ List.mem_cons_self
  have heldValue : value ∈ anchor.temporaryRoots :=
    held _ (List.mem_cons_of_mem _ List.mem_cons_self)
  refine Meets.bind (moving_keep (keeps_query _) (keeps_query _)) (fun _ => ?_)
  refine inspect_moving_pinned sound heldMap (fun entries cell deref picked => ?_)
  refine meets_ite (fun _ => ?_) (fun _ => mapAppend_held sound heldMap heldValue)
  refine (writeCell_held _ _ 0 0).weaken (fun m moving => ⟨moving.2, cell, ?_, ?_⟩)
    (fun _ _ h => h) (fun _ h => h)
  · exact moving.1.still heldMap deref
  · rw [map?_some picked]
    rfl

end Growth

end Baas.Script
