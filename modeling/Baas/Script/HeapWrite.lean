import Baas.Script.HeapSound

/-! Writes into live cells: the new contents refer to live cells only, even when the
growth of the cell collected in between. -/
namespace Baas.Script

open Program

variable {origin : Heap}

/-- The heap with new contents in a live cell. -/
def rewritten (h : Heap) (reference : HeapRef) (cell : Cell) : Heap :=
  { h with arena := h.arena.update reference.slot cell }

theorem dereference_rewritten {h : Heap} {reference : HeapRef} {old : Cell}
    (live : dereference reference h = .ok old) (cell : Cell) (r : HeapRef) (content : Cell) :
    dereference r (rewritten h reference cell) = .ok content ↔
      (if r = reference then cell = content else dereference r h = .ok content) := by
  obtain ⟨own, found⟩ := dereference_ok.mp live
  rw [dereference_ok]
  show r.heapIdentity = h.heapIdentity ∧
    (h.arena.update reference.handle.index cell).get? r.handle = some content ↔ _
  rw [Arena.get?_update found]
  by_cases same : r = reference
  · subst same
    simp [own]
  · rw [if_neg same, dereference_ok]
    by_cases owner : r.heapIdentity = h.heapIdentity
    · have other : r.handle ≠ reference.handle := by
        intro handles
        apply same
        obtain ⟨_, _, _⟩ := r
        obtain ⟨_, _, _⟩ := reference
        simp_all [HeapRef.handle]
      rw [if_neg other]
    · simp [owner]

theorem live_rewritten {h : Heap} {reference : HeapRef} {old : Cell}
    (live : dereference reference h = .ok old) (cell : Cell) {r : HeapRef} (alive : Live h r) :
    Live (rewritten h reference cell) r := by
  obtain ⟨content, deref⟩ := alive
  by_cases same : r = reference
  · exact ⟨cell, (dereference_rewritten live cell r cell).mpr (by simp [same])⟩
  · exact ⟨content, (dereference_rewritten live cell r content).mpr (by rw [if_neg same]; exact deref)⟩

theorem Trace.rewrite {m : Machine} {reference : HeapRef} {old cell : Cell}
    (trace : Trace origin m) (live : dereference reference m.heap = .ok old)
    (valid : ∀ value ∈ visitChildren cell.data, Valid m.heap value) :
    Trace origin { m with heap := rewritten m.heap reference cell } := by
  have alive : ∀ r, Live m.heap r → Live (rewritten m.heap reference cell) r :=
    fun _ => live_rewritten live cell
  refine trace.advance rfl ⟨?_, ?_⟩ ⟨rfl, Arena.older_update _ _ _⟩
  · intro r content deref value member
    have deref := (dereference_rewritten live cell r content).mp deref
    split at deref
    · subst deref
      exact (valid value member).mono alive
    · exact (trace.here.edges r content deref value member).mono alive
  · exact fun value member => (trace.here.roots value member).mono alive

/-- The trace, with contents that are ready to be written. -/
def Ready (origin : Heap) (data : CellData) (m : Machine) : Prop :=
  Trace origin m ∧ ∀ value ∈ visitChildren data, Valid m.heap value

theorem writeCell_trace (reference : HeapRef) (data : CellData) (bytes strings : Nat) :
    Meets (Ready origin data) (writeCell reference data bytes strings) (fun _ => Trace origin)
      (Trace origin) := by
  unfold writeCell
  refine Meets.bind (meets_query
    (fun (m : Machine) cell ready (ok : dereference reference m.heap = .ok cell) =>
      (⟨ready, ok⟩ : Ready origin data m ∧ dereference reference m.heap = .ok cell))
    (fun _ ready => ready.1)) (fun cell => ?_)
  exact meets_modify _ (fun m ready => ready.1.1.rewrite ready.2 ready.1.2)

theorem expected_ok {α : Type} {pick : CellData → Option α} {reference : HeapRef} {h : Heap}
    {contents : α} (ok : expected pick reference h = .ok contents) :
    ∃ cell, dereference reference h = .ok cell ∧ pick cell.data = some contents := by
  obtain ⟨cell, deref, ok⟩ := bind_ok ok
  refine ⟨cell, deref, ?_⟩
  cases picked : pick cell.data with
  | none => rw [picked] at ok; cases ok
  | some found => rw [picked] at ok; cases Except.ok.inj ok; rfl

theorem list?_some {data : CellData} {values : Buffer Value} (h : data.list? = some values) :
    data = .listCell values := by
  cases data <;> simp_all [CellData.list?]

theorem map?_some {data : CellData} {entries : Buffer (Text × Value)}
    (h : data.map? = some entries) : data = .mapCell entries := by
  cases data <;> simp_all [CellData.map?]

theorem host?_some {data : CellData} {metadata : HostHandleMetadata}
    (h : data.host? = some metadata) : data = .hostCell metadata := by
  cases data <;> simp_all [CellData.host?]

/-- A rooted cell reads the same for as long as its anchor holds. -/
theorem Going.pinned {anchor : Heap} {m : Machine} (going : Going origin anchor m)
    (sound : Sound anchor) {reference : HeapRef}
    (held : .ref reference ∈ anchor.temporaryRoots) {cell : Cell}
    (deref : dereference reference m.heap = .ok cell) :
    dereference reference anchor = .ok cell := by
  have root : .ref reference ∈ rootValues anchor := List.mem_append_right _ held
  obtain ⟨content, found⟩ := sound.roots _ root reference rfl
  have same := going.2.cells reference content (.root root) found
  rw [deref] at same
  cases Except.ok.inj same
  exact found

/-- Values read from a rooted cell, and rooted values, stay valid. -/
theorem Going.valid {anchor : Heap} {m : Machine} (going : Going origin anchor m)
    {reference : HeapRef} (held : .ref reference ∈ anchor.temporaryRoots) {cell : Cell}
    (deref : dereference reference anchor = .ok cell) {value : Value}
    (known : value ∈ anchor.temporaryRoots ∨ value ∈ visitChildren cell.data) :
    Valid m.heap value := by
  rcases known with rooted | child
  · refine going.1.here.roots value (List.mem_append_right _ ?_)
    rw [going.2.roots.temporary]
    exact rooted
  · have root : .ref reference ∈ rootValues anchor := List.mem_append_right _ held
    exact going.1.here.edges reference cell (going.2.cells reference cell (.root root) deref)
      value child

variable {anchor : Heap}

theorem settle_going (reserved actual : Charge) (allocationSize : Nat) :
    Keeps (Going origin anchor) (settle reserved actual allocationSize) :=
  (keeps_runIf ((preflight_going _ _ _).andThen (fun _ => charge_going _ _))).andThen
    (fun _ => refund_going _ _)

theorem refunding_going {α : Type} {charge : Charge} {message : String} {body : HeapProgram α}
    {after : α → Machine → Prop}
    (h : Meets (Going origin anchor) body after (Going origin anchor)) :
    Meets (Going origin anchor) (refunding charge message body) after (Going origin anchor) :=
  h.catching (fun _ => (refund_going charge 0).bind (fun _ => meets_raise _ (fun _ going => going)))

/-- What a grown container may hold: rooted values and the values of the old contents. -/
def Known (anchor : Heap) (cell : Cell) (values : List Value) : Prop :=
  ∀ value ∈ values, value ∈ anchor.temporaryRoots ∨ value ∈ visitChildren cell.data

/-- What an inspection of a rooted cell finds is what the anchor holds there. -/
theorem inspect_pinned {α β : Type} {pick : CellData → Option α} {reference : HeapRef}
    {next : α → HeapProgram β} {after : β → Machine → Prop} {failed : Machine → Prop}
    (sound : Sound anchor) (held : .ref reference ∈ anchor.temporaryRoots)
    (err : ∀ m, Going origin anchor m → failed m)
    (rest : ∀ contents cell, dereference reference anchor = .ok cell →
      pick cell.data = some contents →
      Meets (Going origin anchor) (next contents) after failed) :
    Meets (Going origin anchor) (inspect (expected pick reference) >>= next) after failed := by
  refine Meets.bind ((inspect_going _).weaken (fun _ h => h) (fun _ _ h => h) err)
    (fun contents m h => ?_)
  obtain ⟨cell, deref, picked⟩ := expected_ok h.2
  exact rest contents cell (h.1.pinned sound held deref) picked m h.1

theorem growList_going {reference : HeapRef} {value : Value} {desired oldVectorBytes : Nat}
    {delta : Charge} {cell : Cell} (sound : Sound anchor)
    (heldList : .ref reference ∈ anchor.temporaryRoots)
    (heldValue : value ∈ anchor.temporaryRoots)
    (deref : dereference reference anchor = .ok cell) :
    Meets (Going origin anchor) (growList reference value desired oldVectorBytes delta)
      (fun grown m => Going origin anchor m ∧ Known anchor cell grown.1.items)
      (Going origin anchor) := by
  refine refunding_going ((native_going _).bind (fun _ => keeps_read.bind (fun m => ?_)))
  refine inspect_pinned sound heldList (fun _ h => h) (fun current cell' deref' picked => ?_)
  rw [deref] at deref'
  cases Except.ok.inj deref'
  refine (keeps_query _).bind (fun actual => (settle_going _ _ _).bind (fun _ => ?_))
  refine meets_pure _ (fun m going => ⟨going, fun v member => ?_⟩)
  rcases List.mem_append.mp member with old | new
  · exact .inr (by rw [list?_some picked]; exact old)
  · exact .inl (List.mem_singleton.mp new ▸ heldValue)

theorem growMap_going {reference : HeapRef} {key : Text} {value : Value}
    {desired oldVector : Nat} {delta : Charge} {cell : Cell} (sound : Sound anchor)
    (heldMap : .ref reference ∈ anchor.temporaryRoots)
    (heldValue : value ∈ anchor.temporaryRoots)
    (deref : dereference reference anchor = .ok cell) :
    Meets (Going origin anchor) (growMap reference key value desired oldVector delta)
      (fun grown m => Going origin anchor m ∧
        Known anchor cell (grown.1.items.map Prod.snd))
      (Going origin anchor) := by
  refine refunding_going ((native_going _).bind (fun _ => keeps_read.bind (fun m => ?_)))
  refine inspect_pinned sound heldMap (fun _ h => h) (fun current cell' deref' picked => ?_)
  rw [deref] at deref'
  cases Except.ok.inj deref'
  refine (keeps_query _).bind (fun actualVector => (keeps_query _).bind (fun actualBytes => ?_))
  refine (keeps_query _).bind (fun allocation => (settle_going _ _ _).bind (fun _ => ?_))
  refine meets_pure _ (fun m going => ⟨going, fun v member => ?_⟩)
  simp only [Platform.reserve, List.map_append, List.map_map, List.map_cons, List.map_nil] at member
  rcases List.mem_append.mp member with old | new
  · exact .inr (by rw [map?_some picked]; exact old)
  · exact .inl (List.mem_singleton.mp new ▸ heldValue)

/-- A write whose contents are known, after a last look at the cell. -/
theorem write_known {α : Type} {pick : CellData → Option α} {reference : HeapRef}
    {data : CellData} {bytes strings : Nat} {cell : Cell}
    (held : .ref reference ∈ anchor.temporaryRoots)
    (deref : dereference reference anchor = .ok cell)
    (known : Known anchor cell (visitChildren data)) :
    Meets (Going origin anchor)
      (do let _ ← inspect (expected pick reference); writeCell reference data bytes strings)
      (fun _ => Trace origin) (Trace origin) := by
  refine Meets.bind ((keeps_query _).weaken (fun _ h => h) (fun _ _ h => h) (fun _ h => h.1))
    (fun _ => ?_)
  refine (writeCell_trace reference data bytes strings).weaken (fun m going => ?_)
    (fun _ _ h => h) (fun _ h => h)
  exact ⟨going.1, fun v member => going.valid held deref (known v member)⟩

theorem listAppend_trace (reference : HeapRef) (value : Value) :
    Keeps (Trace origin) (listAppend reference value) := by
  refine rooted_trace (fun anchor sound held => ?_)
  have heldList : .ref reference ∈ anchor.temporaryRoots := held _ List.mem_cons_self
  have heldValue : value ∈ anchor.temporaryRoots :=
    held _ (List.mem_cons_of_mem _ List.mem_cons_self)
  have drop : ∀ m, Going origin anchor m → Trace origin m := fun _ going => going.1
  have keep {α : Type} {m : HeapProgram α} (h : Keeps (Going origin anchor) m) :
      Meets (Going origin anchor) m (fun _ => Going origin anchor) (Trace origin) :=
    h.weaken (fun _ h => h) (fun _ _ h => h) drop
  refine (keep (keeps_query _)).bind (fun _ => ?_)
  refine inspect_pinned sound heldList drop (fun before cell deref picked => ?_)
  refine (keep keeps_read).bind (fun m => (keep (keeps_query _)).bind (fun _ => ?_))
  refine (keep (keeps_query _)).bind (fun _ => (keep (preflight_going _ _ _)).bind (fun _ => ?_))
  refine (keep (charge_going _ _)).bind (fun _ => ?_)
  refine Meets.bind ((growList_going sound heldList heldValue deref).weaken (fun _ h => h)
    (fun _ _ h => h) drop) (fun grown => ?_)
  refine meets_of_fact (fun _ h => h.2) (fun known => ?_)
  refine Meets.forget ?_
  exact write_known heldList deref known

theorem listSet_trace (reference : HeapRef) (index : Nat) (value : Value) :
    Keeps (Trace origin) (listSet reference index value) := by
  unfold listSet
  refine (validate_checked value).bind (fun _ => ?_)
  refine Meets.bind (meets_query
    (fun (m : Machine) values checked (ok : expected CellData.list? reference m.heap = .ok values) =>
      (⟨checked, ok⟩ : Checked origin value m ∧ expected CellData.list? reference m.heap = .ok values))
    (fun _ checked => checked.1)) (fun values => ?_)
  split
  · refine (writeCell_trace _ _ 0 0).weaken (fun m h => ⟨h.1.1, fun v member => ?_⟩)
      (fun _ _ h => h) (fun _ h => h)
    obtain ⟨cell, deref, picked⟩ := expected_ok h.2
    rcases List.mem_or_eq_of_mem_set member with old | rfl
    · refine h.1.1.here.edges reference cell deref v ?_
      rw [list?_some picked]
      exact old
    · exact h.1.2
  · exact meets_raise _ (fun _ h => h.1.1)

theorem mem_assign {key : Bytes} {value v : Value} {entries : List (Text × Value)}
    (member : v ∈ (assign key value entries).map Prod.snd) :
    v = value ∨ v ∈ entries.map Prod.snd := by
  simp only [assign, List.map_map] at member
  obtain ⟨entry, listed, same⟩ := List.mem_map.mp member
  simp only [Function.comp_apply] at same
  split at same
  · exact .inl same.symm
  · exact .inr (List.mem_map.mpr ⟨entry, listed, same⟩)

theorem mapAppend_trace {reference : HeapRef} {key : Text} {value : Value}
    (sound : Sound anchor) (heldMap : .ref reference ∈ anchor.temporaryRoots)
    (heldValue : value ∈ anchor.temporaryRoots) :
    Meets (Going origin anchor) (mapAppend reference key value) (fun _ => Trace origin)
      (Trace origin) := by
  have drop : ∀ m, Going origin anchor m → Trace origin m := fun _ going => going.1
  have keep {α : Type} {m : HeapProgram α} (h : Keeps (Going origin anchor) m) :
      Meets (Going origin anchor) m (fun _ => Going origin anchor) (Trace origin) :=
    h.weaken (fun _ h => h) (fun _ _ h => h) drop
  refine inspect_pinned sound heldMap drop (fun before cell deref picked => ?_)
  refine (keep keeps_read).bind (fun m => (keep (keeps_query _)).bind (fun _ => ?_))
  refine (keep (keeps_query _)).bind (fun _ => (keep (keeps_query _)).bind (fun _ => ?_))
  refine (keep (keeps_query _)).bind (fun _ => (keep (preflight_going _ _ _)).bind (fun _ => ?_))
  refine (keep (charge_going _ _)).bind (fun _ => ?_)
  refine Meets.bind ((growMap_going sound heldMap heldValue deref).weaken (fun _ h => h)
    (fun _ _ h => h) drop) (fun grown => ?_)
  refine meets_of_fact (fun _ h => h.2) (fun known => ?_)
  refine Meets.forget ?_
  exact write_known heldMap deref known

theorem mapSet_trace (reference : HeapRef) (key : Text) (value : Value) :
    Keeps (Trace origin) (mapSet reference key value) := by
  refine (requireUtf8_keeps _ _).andThen (fun _ => rooted_trace (fun anchor sound held => ?_))
  have heldMap : .ref reference ∈ anchor.temporaryRoots := held _ List.mem_cons_self
  have heldValue : value ∈ anchor.temporaryRoots :=
    held _ (List.mem_cons_of_mem _ List.mem_cons_self)
  have drop : ∀ m, Going origin anchor m → Trace origin m := fun _ going => going.1
  refine Meets.bind ((keeps_query _).weaken (fun _ h => h) (fun _ _ h => h) drop) (fun _ => ?_)
  refine inspect_pinned sound heldMap drop (fun entries cell deref picked => ?_)
  refine meets_ite (fun _ => ?_) (fun _ => mapAppend_trace sound heldMap heldValue)
  refine (writeCell_trace _ _ 0 0).weaken (fun m going => ⟨going.1, fun v member => ?_⟩)
    (fun _ _ h => h) (fun _ h => h)
  refine going.valid heldMap deref ?_
  rcases mem_assign member with rfl | old
  · exact .inl heldValue
  · exact .inr (by rw [map?_some picked]; exact old)

/-! Host handles and their releases. -/

theorem closeHostHandle_trace (reference : HeapRef) :
    Keeps (Trace origin) (closeHostHandle reference) := by
  unfold closeHostHandle
  refine Meets.bind (meets_query
    (fun (m : Machine) cell trace (ok : dereference reference m.heap = .ok cell) =>
      (⟨trace, cell, ok⟩ : Trace origin m ∧ Live m.heap reference))
    (fun _ trace => trace)) (fun cell => ?_)
  have drop : ∀ m, Trace origin m ∧ Live m.heap reference → Trace origin m := fun _ h => h.1
  have keep {α : Type} {m : HeapProgram α}
      (h : Keeps (fun m => Trace origin m ∧ Live m.heap reference) m) :
      Meets (fun m => Trace origin m ∧ Live m.heap reference) m
        (fun _ m => Trace origin m ∧ Live m.heap reference) (Trace origin) :=
    h.weaken (fun _ h => h) (fun _ _ h => h) drop
  refine (keep (keeps_query _)).bind (fun metadata => ?_)
  refine meets_ite (fun _ => meets_pure _ drop) (fun _ => (keep keeps_read).bind (fun m => ?_))
  dsimp only
  split
  · exact meets_raise _ drop
  · refine (keep (keeps_refuseIf _ _)).bind (fun _ => Meets.bind (keep ?_) (fun _ => ?_))
    · exact native_keeps _ (fun _ faults h => ⟨(Going.start h.1).faults faults |>.1, h.2⟩)
    refine Meets.bind (keep (keeps_modify (fun m h => ?_))) (fun _ => ?_)
    · obtain ⟨arena, roots⟩ := queueHostRelease_quiet metadata m.heap
      obtain ⟨cell, deref⟩ := h.2
      have going := (Going.start h.1).quiet
        (t := { m with heap := queueHostRelease metadata m.heap }) rfl roots arena
      exact ⟨going.1, cell,
        (dereference_congr roots.identity arena reference).trans deref⟩
    · refine Meets.bind (meets_modify _ (fun m h => ?_)) (fun _ => meets_pure _ (fun _ h => h))
      obtain ⟨old, deref⟩ := h.2
      exact h.1.rewrite deref (by simp [visitChildren])

/-- A change that touches neither the arena nor the roots. -/
def Unseen (a b : Heap) : Prop := SameRoots a b ∧ b.arena = a.arena

theorem Unseen.refl (a : Heap) : Unseen a a := ⟨.refl a, rfl⟩

theorem Unseen.trans {a b c : Heap} (first : Unseen a b) (second : Unseen b c) : Unseen a c :=
  ⟨first.1.trans second.1, second.2.trans first.2⟩

/-- An operation on the release queue only. -/
theorem release_trace {f : Heap → Heap} (unseen : ∀ h, Unseen h (f h)) :
    Keeps (Trace origin) (modifyHeap f) :=
  quiet_trace (fun h => (unseen h).1) (fun h => (unseen h).2)

theorem compactReleaseQueue_unseen (h : Heap) : Unseen h (compactReleaseQueue h) := by
  unfold compactReleaseQueue
  split
  · exact .refl h
  split <;> exact ⟨⟨rfl, rfl, rfl⟩, rfl⟩

theorem endLease_compact_unseen (h : Heap) : Unseen h (compactReleaseQueue (endLease h)) :=
  (show Unseen h (endLease h) from ⟨⟨rfl, rfl, rfl⟩, rfl⟩).trans (compactReleaseQueue_unseen _)

theorem leaseHostRelease_unseen (h : Heap) : Unseen h (leaseHostReleaseForDispatcher h).1 := by
  unfold leaseHostReleaseForDispatcher
  split <;> exact ⟨⟨rfl, rfl, rfl⟩, rfl⟩

theorem acknowledgeHostRelease_unseen (leaseId : Nat) (h : Heap) :
    Unseen h (acknowledgeHostReleaseForDispatcher leaseId h).1 := by
  unfold acknowledgeHostReleaseForDispatcher
  split
  · exact .refl h
  split
  · exact .refl h
  dsimp only
  split
  · refine Unseen.trans ?_ (compactReleaseQueue_unseen _)
    exact ⟨⟨rfl, rfl, rfl⟩, rfl⟩
  · exact ⟨⟨rfl, rfl, rfl⟩, rfl⟩

theorem retryHostRelease_unseen (leaseId : Nat) (h : Heap) :
    Unseen h (retryHostReleaseForDispatcher leaseId h).1 := by
  unfold retryHostReleaseForDispatcher
  split <;> exact ⟨⟨rfl, rfl, rfl⟩, rfl⟩

theorem deferHostRelease_unseen (leaseId : Nat) (h : Heap) :
    Unseen h (deferHostReleaseForDispatcher leaseId h).1 := by
  unfold deferHostReleaseForDispatcher
  split <;> exact ⟨⟨rfl, rfl, rfl⟩, rfl⟩

theorem drainReleaseQueue_trace : Keeps (Trace origin) drainReleaseQueue := by
  refine keeps_read.andThen (fun _ => (keeps_refuseIf _ _).andThen (fun _ => ?_))
  refine (release_trace endLease_compact_unseen).andThen (fun _ => keeps_read.andThen (fun _ => ?_))
  refine Keeps.andThen (release_trace ?_) (fun _ => (keeps_query _).andThen (fun _ => ?_))
  · exact fun _ => ⟨⟨rfl, rfl, rfl⟩, rfl⟩
  refine keeps_read.andThen (fun _ => (keeps_refuseIf _ _).andThen (fun _ => ?_))
  refine Keeps.andThen (release_trace ?_) (fun _ => keeps_pure _)
  exact fun _ => ⟨⟨rfl, rfl, rfl⟩, rfl⟩

theorem detachHostReleases_trace : Keeps (Trace origin) detachHostReleases := by
  refine keeps_read.andThen (fun _ => (keeps_refuseIf _ _).andThen (fun _ => ?_))
  refine keeps_read.andThen (fun _ => (keeps_refuseIf _ _).andThen (fun _ => ?_))
  refine (release_trace endLease_compact_unseen).andThen (fun _ => keeps_read.andThen (fun _ => ?_))
  refine Keeps.andThen (release_trace ?_) (fun _ => keeps_pure _)
  exact fun _ => ⟨⟨rfl, rfl, rfl⟩, rfl⟩

/-- Nothing is live after teardown. -/
theorem teardownForDispatcher_trace : Keeps (Trace origin) teardownForDispatcher := by
  refine keeps_read.andThen (fun m => (keeps_refuseIf _ _).andThen (fun _ => ?_))
  refine meets_ite (fun _ => keeps_pure _) (fun _ => ?_)
  refine Keeps.andThen ?_ (fun _ => keeps_modify (fun m trace => ?_))
  · exact reserveSweepStorage_keeps _ _ (fun _ faults trace =>
      (Going.start trace).faults faults |>.1)
  have dead (reference : HeapRef) (cell : Cell) : dereference reference
      ({ sweepSlots (fun _ => false) false (List.range m.heap.arena.slots.length) m.heap with
        explicitRoots := .empty, temporaryRoots := [], tornDown := true } : Heap) ≠ .ok cell := by
    intro deref
    have found := (dereference_ok.mp deref).2
    simp only [get?_sweepSlots] at found
    split at found
    · cases found
    · rename_i kept
      have inside := (List.getElem?_eq_some_iff.mp (Arena.slot_of_get? found)).1
      exact kept ⟨List.mem_range.mpr inside, trivial⟩
  have roots := sweepSlots_roots (fun _ => false) false
    (List.range m.heap.arena.slots.length) m.heap
  refine trace.advance rfl ⟨?_, ?_⟩ ⟨roots.identity, older_sweepSlots _ _ _ _⟩
  · exact fun reference cell deref => absurd deref (dead reference cell)
  · intro value member
    simp [rootValues] at member

theorem teardown_trace : Keeps (Trace origin) teardown :=
  teardownForDispatcher_trace.andThen (fun _ => drainReleaseQueue_trace)

end Baas.Script
