import Baas.Script.HeapRelease

/-! An operation that throws leaves the roots, and every cell they reach, as they were, and
adds nothing. -/
namespace Baas.Script

open Program

variable {origin : Heap} {u : Owed} {reservations : List Nat}

/-- The roots and what they reach are as they were, and every cell left was there before. -/
structure Spared (start h : Heap) : Prop extends Kept start h where
  only : ∀ reference cell, dereference reference h = .ok cell →
    dereference reference start = .ok cell

theorem Spared.refl (h : Heap) : Spared h h := ⟨.refl h, fun _ _ h => h⟩

def Only (start : Heap) (m : Machine) : Prop :=
  ∀ reference cell, dereference reference m.heap = .ok cell →
    dereference reference start = .ok cell

/-- The machine came here and nothing but garbage has gone. -/
def Steady (origin start : Heap) (m : Machine) : Prop := Trace origin m ∧ Spared start m.heap

section Steady

variable {start : Heap}

theorem Steady.going {m : Machine} (steady : Steady origin start m) : Going origin start m :=
  ⟨steady.1, steady.2.toKept⟩

theorem steady_here {m : Machine} (trace : Trace origin m) : Steady origin m.heap m :=
  ⟨trace, .refl _⟩

theorem keeps_steady {α : Type} {m : HeapProgram α} (going : Keeps (Going origin start) m)
    (only : Keeps (Only start) m) : Keeps (Steady origin start) m :=
  (going.both only).weaken (fun _ h => ⟨h.going, h.2.only⟩) (fun _ _ h => ⟨h.1.1, h.1.2, h.2⟩)
    (fun _ h => ⟨h.1.1, h.1.2, h.2⟩)

theorem native_only (failure : HeapError) : Keeps (Only start) (native failure) :=
  native_keeps failure (fun _ _ only => only)

theorem native_steady (failure : HeapError) : Keeps (Steady origin start) (native failure) :=
  keeps_steady (native_going failure) (native_only failure)

theorem modifyHeap_only {f : Heap → Heap} (owner : ∀ h, (f h).heapIdentity = h.heapIdentity)
    (arena : ∀ h, (f h).arena = h.arena) : Keeps (Only start) (modifyHeap f) :=
  keeps_modify (fun m only reference cell deref =>
    only reference cell ((dereference_congr (owner m.heap) (arena m.heap) reference).symm.trans deref))

theorem modifyHeap_steady {f : Heap → Heap} (roots : ∀ h, SameRoots h (f h))
    (arena : ∀ h, (f h).arena = h.arena) : Keeps (Steady origin start) (modifyHeap f) :=
  keeps_steady (modifyHeap_going roots arena)
    (modifyHeap_only (fun h => (roots h).identity) arena)

theorem collect_only : Keeps (Only start) collect := by
  intro m only
  have spec := collectUnrecorded_meets m.heap m.collections m ⟨rfl, rfl⟩
  unfold collect
  cases outcome : collectUnrecorded m with
  | mk result t =>
    rw [outcome] at spec
    cases result with
    | ok _ =>
      intro reference cell deref
      exact only reference cell ((spec.2.1.retired rfl reference cell).mp deref).1
    | error e =>
      intro reference cell deref
      refine only reference cell ?_
      rw [← spec.1]
      exact deref

theorem preflight_only (charge : Charge) (allocationSize : Nat) (addCell : Bool) :
    Keeps (Only start) (preflight charge allocationSize addCell) := by
  unfold preflight
  refine keeps_read.andThen (fun m => ?_)
  refine (keeps_refuseIf _ _).andThen (fun _ => (keeps_refuseIf _ _).andThen (fun _ => ?_))
  split
  · exact keeps_raise _
  · exact (keeps_runIf collect_only).andThen (fun _ => keeps_query _)

theorem preflight_steady (charge : Charge) (allocationSize : Nat) (addCell : Bool) :
    Keeps (Steady origin start) (preflight charge allocationSize addCell) :=
  keeps_steady (preflight_going _ _ _) (preflight_only _ _ _)

theorem charge_only (charge : Charge) (cells : Nat) :
    Keeps (Only start) (modifyHeap (chargeHeap charge cells)) :=
  modifyHeap_only (fun _ => rfl) (fun _ => rfl)

theorem refund_only (charge : Charge) (cells : Nat) :
    Keeps (Only start) (modifyHeap (refundHeap charge cells)) :=
  modifyHeap_only (fun _ => rfl) (fun _ => rfl)

theorem charge_steady (charge : Charge) (cells : Nat) :
    Keeps (Steady origin start) (modifyHeap (chargeHeap charge cells)) :=
  keeps_steady (charge_going _ _) (charge_only _ _)

theorem native_refunded_only (failure : HeapError) (charge : Charge) :
    Keeps (Only start)
      ((native failure).catching (fun e => do modifyHeap (refundHeap charge 1); raise e)) :=
  (native_only failure).rescue (fun _ => (refund_only charge 1).andThen (fun _ => keeps_raise _))

/-- An allocation places its cell last. -/
theorem allocate_only (data : CellData) (externalReserved : Bool) :
    Meets (Only start) (allocate data externalReserved) (fun _ _ => True) (Only start) := by
  unfold allocate
  refine Meets.bind (keeps_query _) (fun _ => Meets.bind (keeps_query _) (fun charge => ?_))
  refine Meets.bind (preflight_only _ _ _) (fun _ => Meets.bind keeps_read (fun m => ?_))
  refine Meets.bind (keeps_refuseIf _ _) (fun _ => Meets.bind (charge_only _ _) (fun _ => ?_))
  refine Meets.bind (native_refunded_only _ _) (fun _ => ?_)
  exact Meets.bind (keeps_runIf (native_refunded_only _ _)) (fun _ _ _ => trivial)

theorem allocate_steady {data : CellData} (externalReserved : Bool)
    (rooted : ∀ value ∈ visitChildren data, value ∈ start.temporaryRoots) :
    Meets (Steady origin start) (allocate data externalReserved) (fun _ _ => True)
      (fun t => Spared start t.heap) :=
  ((allocate_going externalReserved rooted).both (allocate_only data externalReserved)).weaken
    (fun _ h => ⟨h.going, h.2.only⟩) (fun _ _ _ => trivial) (fun _ h => ⟨h.1.2, h.2⟩)

theorem settle_only (reserved actual : Charge) (allocationSize : Nat) :
    Keeps (Only start) (settle reserved actual allocationSize) :=
  (keeps_runIf ((preflight_only _ _ _).andThen (fun _ => charge_only _ _))).andThen
    (fun _ => refund_only _ _)

theorem refunding_only {α : Type} {charge : Charge} {message : String} {body : HeapProgram α}
    (h : Keeps (Only start) body) : Keeps (Only start) (refunding charge message body) :=
  h.rescue (fun _ => (refund_only charge 0).andThen (fun _ => keeps_raise _))

theorem growList_only (reference : HeapRef) (value : Value) (desired oldVectorBytes : Nat)
    (delta : Charge) : Keeps (Only start) (growList reference value desired oldVectorBytes delta) := by
  refine refunding_only ((native_only _).andThen (fun _ => keeps_read.andThen (fun m => ?_)))
  refine (keeps_query _).andThen (fun _ => (keeps_query _).andThen (fun _ => ?_))
  exact (settle_only _ _ _).andThen (fun _ => keeps_pure _)

theorem growMap_only (reference : HeapRef) (key : Text) (value : Value) (desired oldVector : Nat)
    (delta : Charge) : Keeps (Only start) (growMap reference key value desired oldVector delta) := by
  refine refunding_only ((native_only _).andThen (fun _ => keeps_read.andThen (fun m => ?_)))
  refine (keeps_query _).andThen (fun _ => (keeps_query _).andThen (fun _ => ?_))
  refine (keeps_query _).andThen (fun _ => (keeps_query _).andThen (fun _ => ?_))
  exact (settle_only _ _ _).andThen (fun _ => keeps_pure _)

/-- What an inspection of a rooted cell finds is what the start holds there. -/
theorem inspect_steady {α β : Type} {pick : CellData → Option α} {reference : HeapRef}
    {next : α → HeapProgram β} {after : β → Machine → Prop}
    (rest : ∀ contents cell, dereference reference start = .ok cell →
      pick cell.data = some contents →
      Meets (Steady origin start) (next contents) after (fun t => Spared start t.heap)) :
    Meets (Steady origin start) (inspect (expected pick reference) >>= next) after
      (fun t => Spared start t.heap) := by
  refine Meets.bind (meets_query (fun m contents steady ok =>
    (⟨steady, ok⟩ : Steady origin start m ∧ expected pick reference m.heap = .ok contents))
    (fun _ steady => steady.2)) (fun contents m h => ?_)
  obtain ⟨cell, deref, picked⟩ := expected_ok h.2
  exact rest contents cell (h.1.2.only reference cell deref) picked m h.1

end Steady

/-- Where it fails, its start is spared. -/
def Spares {α : Type} (origin : Heap) (m : HeapProgram α) : Prop :=
  ∀ start, Meets (Steady origin start) m (fun _ _ => True) (fun t => Spared start t.heap)

theorem Spares.of_keeps {α : Type} {m : HeapProgram α}
    (keeps : ∀ start, Keeps (Steady origin start) m) : Spares origin m :=
  fun start => (keeps start).weaken (fun _ h => h) (fun _ _ _ => trivial) (fun _ h => h.2)

theorem Spares.after {α β : Type} {m : HeapProgram α} {next : α → HeapProgram β}
    (first : ∀ start, Keeps (Steady origin start) m) (rest : ∀ a, Spares origin (next a)) :
    Spares origin (m >>= next) :=
  fun start => Meets.bind ((first start).weaken (fun _ h => h) (fun _ _ h => h) (fun _ h => h.2))
    (fun a => rest a start)

/-- The last step of an operation cannot fail. -/
theorem Spares.last {α : Type} (f : Heap → Heap) (a : α) :
    Spares origin (modifyHeap f >>= fun _ => pure a) :=
  fun _ _ _ => trivial

/-! Rooted bodies. -/

/-- The start with more temporary roots: everything it reached is there. -/
structure Under (start h : Heap) : Prop where
  identity : h.heapIdentity = start.heapIdentity
  explicit : h.explicitRoots = start.explicitRoots
  temporary : start.temporaryRoots <+: h.temporaryRoots
  cells : ∀ reference cell, Reaches start reference → dereference reference start = .ok cell →
    dereference reference h = .ok cell
  only : ∀ reference cell, dereference reference h = .ok cell →
    dereference reference start = .ok cell

theorem Spared.under {start h : Heap} (kept : Spared start h) : Under start h :=
  ⟨kept.roots.identity, kept.roots.explicit, kept.roots.temporary ▸ List.prefix_rfl, kept.cells,
    kept.only⟩

theorem Under.reaches {start h : Heap} (under : Under start h) {reference : HeapRef}
    (reached : Reaches start reference) : Reaches h reference := by
  refine Reach.mono ?_ ?_ reached
  · intro r root
    rcases List.mem_append.mp root with explicit | temporary
    · refine List.mem_append_left _ ?_
      rw [under.explicit]
      exact explicit
    · exact List.mem_append_right _ (under.temporary.subset temporary)
  · rintro parent child above ⟨cell, deref, listed⟩
    exact ⟨cell, under.cells parent cell above deref, listed⟩

theorem Under.trans {start anchor h : Heap} (under : Under start anchor)
    (kept : Spared anchor h) : Under start h :=
  ⟨kept.roots.identity.trans under.identity, kept.roots.explicit.trans under.explicit,
    kept.roots.temporary ▸ under.temporary, fun r cell reached deref =>
      kept.cells r cell (under.reaches reached) (under.cells r cell reached deref),
    fun r cell deref => under.only r cell (kept.only r cell deref)⟩

/-- Popping the added roots gives the roots of the start back. -/
theorem Under.popped {start h : Heap} (under : Under start h) :
    Spared start (popTemporaryRoots start.temporaryRoots.length h) := by
  obtain ⟨added, grown⟩ := under.temporary
  refine ⟨⟨⟨under.identity, under.explicit, ?_⟩, under.cells⟩, under.only⟩
  show h.temporaryRoots.take start.temporaryRoots.length = start.temporaryRoots
  rw [← grown, List.take_left]

theorem addTemporaryRoot_under (start : Heap) (value : Value) :
    Keeps (fun m => Under start m.heap) (addTemporaryRoot value) := by
  refine keeps_read.andThen (fun _ => (keeps_refuseIf _ _).andThen (fun _ => ?_))
  refine (keeps_query _).andThen (fun _ => Keeps.andThen ?_ (fun _ => ?_))
  · exact native_keeps _ (fun _ _ under => under)
  · refine keeps_modify (fun m under => ?_)
    refine ⟨under.identity, under.explicit, ?_, under.cells, under.only⟩
    exact under.temporary.trans (List.prefix_append _ _)

theorem inRootScope_spares {α : Type} {body : HeapProgram α}
    (h : ∀ start m, Steady origin start m →
      Meets (fun t => t = m) body (fun _ _ => True) (fun t => Under start t.heap)) :
    Spares origin (inRootScope body) := by
  intro start
  refine meets_reading (fun m going => ?_)
  refine (h start m going).ensuring (fun _ _ _ => trivial) (fun t under => ?_)
  have same : m.heap.temporaryRoots = start.temporaryRoots := going.2.roots.temporary
  rw [same]
  exact under.popped

/-- A body that fails where its anchor is kept may be rooted. -/
theorem rooted_spares {α : Type} {values : List Value} {body : HeapProgram α}
    (h : ∀ anchor, Sound anchor → (∀ value ∈ values, value ∈ anchor.temporaryRoots) →
      Meets (Steady origin anchor) body (fun _ _ => True) (fun t => Spared anchor t.heap)) :
    Spares origin (rooted values body) := by
  refine inRootScope_spares (fun start m going => ?_)
  have roots : Keeps (fun m => Under start m.heap) (values.forM addTemporaryRoot) :=
    keeps_forM _ _ (fun value _ => addTemporaryRoot_under start value)
  have added := ((@addTemporaryRoots_holding origin values []).both roots)
  refine Meets.bind (added.weaken ?_ (fun _ _ h => h) (fun _ h => h.2)) (fun _ t holding => ?_)
  · rintro t rfl
    exact ⟨⟨going.1, by simp⟩, going.2.under⟩
  · refine ((h t.heap holding.1.1.here (fun v hv => holding.1.2 v
      (List.mem_append_left _ hv))).weaken (fun _ h => h) (fun _ _ h => h)
      (fun _ kept => holding.2.trans kept)) t (steady_here holding.1.1)

/-! The operations. -/

theorem addRoot_spares (value : Value) : Spares origin (addRoot value) := by
  refine .after (fun _ => keeps_read) (fun _ => .after (fun _ => keeps_refuseIf _ _) (fun _ => ?_))
  refine .after (fun _ => keeps_query _) (fun _ => .after (fun _ => keeps_read) (fun _ => ?_))
  refine .after (fun _ => keeps_refuseIf _ _) (fun _ => .after (fun _ => ?_) (fun _ => ?_))
  · exact modifyHeap_steady (fun _ => ⟨rfl, rfl, rfl⟩) (fun _ => rfl)
  · exact .after (fun _ => native_steady _) (fun _ => .last _ _)

theorem updateRoot_spares (id : Nat) (value : Value) : Spares origin (updateRoot id value) := by
  refine .after (fun _ => keeps_read) (fun _ => .after (fun _ => keeps_refuseIf _ _) (fun _ => ?_))
  refine .after (fun _ => keeps_query _) (fun _ => .after (fun _ => keeps_read) (fun _ => ?_))
  exact fun start => meets_ite (fun _ => Spares.last _ _ start)
    (fun _ => meets_pure _ (fun _ _ => trivial))

theorem addTemporaryRoot_spares (value : Value) : Spares origin (addTemporaryRoot value) := by
  refine .after (fun _ => keeps_read) (fun _ => .after (fun _ => keeps_refuseIf _ _) (fun _ => ?_))
  refine .after (fun _ => keeps_query _) (fun _ => .after (fun _ => native_steady _) (fun _ => ?_))
  exact fun start => meets_modify _ (fun _ _ => trivial)

theorem allocate_leaf_spares {data : CellData} (externalReserved : Bool)
    (leaf : visitChildren data = []) : Spares origin (allocate data externalReserved) :=
  fun _ => allocate_steady externalReserved (by simp [leaf])

theorem rooted_allocate_spares {values : List Value} (data : CellData) (externalReserved : Bool)
    (children : ∀ value ∈ visitChildren data, value ∈ values) :
    Spares origin (rooted values (allocate data externalReserved)) :=
  rooted_spares (fun _ _ held =>
    allocate_steady externalReserved (fun v hv => held v (children v hv)))

theorem allocateString_spares (value : Text) : Spares origin (allocateString value) :=
  .after (fun _ => requireUtf8_keeps _ _) (fun _ => allocate_leaf_spares false rfl)

theorem allocateMap_spares (entries : List (Text × Value)) :
    Spares origin (allocateMap entries) :=
  .after (fun _ => native_steady _) (fun _ => .after (fun _ => keeps_query _) (fun _ =>
    .after (fun _ => keeps_read) (fun _ => rooted_allocate_spares _ false (fun _ h => h))))

theorem convertingBadAlloc_spares {α : Type} (message : String) {body : HeapProgram α}
    (h : Spares origin body) : Spares origin (convertingBadAlloc message body) :=
  fun start => (h start).catching (fun _ => meets_raise _ (fun _ kept => kept))

theorem allocateError_spares (metadata : ErrorMetadata) : Spares origin (allocateError metadata) :=
  convertingBadAlloc_spares _ (.after (fun _ => native_steady _) (fun _ =>
    .after (fun _ => keeps_query _) (fun _ => rooted_allocate_spares _ false (fun _ h => h))))

theorem deriveError_spares (primary : HeapRef) (additions : ErrorDerivation) :
    Spares origin (deriveError primary additions) :=
  convertingBadAlloc_spares _ (.after (fun _ => native_steady _) (fun _ =>
    .after (fun _ => keeps_query _) (fun _ => allocateError_spares _)))

theorem allocateModule_spares (metadata : ModuleMetadata) :
    Spares origin (allocateModule metadata) := by
  refine .after (fun _ => requireUtf8_keeps _ _) (fun _ =>
    inRootScope_spares (fun start m going => ?_))
  have exports : Keeps (fun m => Under start m.heap) (metadata.exports.items.forM (fun entry => do
      requireUtf8 entry.1.items "module export is not valid UTF-8"
      addTemporaryRoot entry.2)) :=
    keeps_forM _ _ (fun entry _ => (requireUtf8_keeps _ _).andThen
      (fun _ => addTemporaryRoot_under start entry.2))
  have added := (@addExports_holding origin metadata.exports.items
    "module export is not valid UTF-8" []).both exports
  refine Meets.bind (added.weaken ?_ (fun _ _ h => h) (fun _ h => h.2)) (fun _ t holding => ?_)
  · rintro t rfl
    exact ⟨⟨going.1, by simp⟩, going.2.under⟩
  · have held : ∀ v ∈ visitChildren (.moduleCell metadata), v ∈ t.heap.temporaryRoots :=
      fun v hv => holding.1.2 v (List.mem_append_left _ hv)
    exact ((allocate_steady false held).weaken (fun _ h => h) (fun _ _ _ => trivial)
      (fun _ spared => holding.2.trans spared)) t (steady_here holding.1.1)

theorem reserveHostExternal_spares (externalBytes : Nat) :
    Spares origin (reserveHostExternal externalBytes) :=
  .after (fun _ => preflight_steady _ _ _) (fun _ _ => meets_modify _ (fun _ _ => trivial))

theorem allocateReservedHostHandle_spares (metadata : HostHandleMetadata)
    (reservation : Option Nat) :
    Spares origin (allocateReservedHostHandle metadata reservation) := by
  refine .after (fun _ => keeps_read) (fun _ => .after (fun _ => keeps_refuseIf _ _) (fun _ => ?_))
  exact fun start => Meets.bind (allocate_steady true (by simp [visitChildren]))
    (fun _ _ _ => trivial)

theorem ensureHostReleaseCapacity_spares (totalRecords : Nat) :
    Spares origin (ensureHostReleaseCapacity totalRecords) :=
  .of_keeps (fun _ => keeps_read.andThen (fun _ => (keeps_refuseIf _ _).andThen (fun _ =>
    (keeps_refuseIf _ _).andThen (fun _ => native_steady _))))

theorem writeCell_spares (reference : HeapRef) (data : CellData) (bytes strings : Nat) :
    Spares origin (writeCell reference data bytes strings) :=
  .after (fun _ => keeps_query _) (fun _ _ => meets_modify _ (fun _ _ => trivial))

theorem listAppend_spares (reference : HeapRef) (value : Value) :
    Spares origin (listAppend reference value) := by
  refine rooted_spares (fun anchor sound held => ?_)
  have heldList : .ref reference ∈ anchor.temporaryRoots := held _ List.mem_cons_self
  have heldValue : value ∈ anchor.temporaryRoots :=
    held _ (List.mem_cons_of_mem _ List.mem_cons_self)
  have keep {α : Type} {m : HeapProgram α} (h : Keeps (Steady origin anchor) m) :
      Meets (Steady origin anchor) m (fun _ => Steady origin anchor)
        (fun t => Spared anchor t.heap) :=
    h.weaken (fun _ h => h) (fun _ _ h => h) (fun _ h => h.2)
  refine (keep (keeps_query _)).bind (fun _ => ?_)
  refine inspect_steady (fun before cell deref picked => ?_)
  refine (keep keeps_read).bind (fun m => (keep (keeps_query _)).bind (fun _ => ?_))
  refine (keep (keeps_query _)).bind (fun _ => (keep (preflight_steady _ _ _)).bind (fun _ => ?_))
  refine (keep (charge_steady _ _)).bind (fun _ => ?_)
  refine (keep (keeps_steady ((growList_going sound heldList heldValue deref).weaken
    (fun _ h => h) (fun _ _ h => h.1) (fun _ h => h)) (growList_only _ _ _ _ _))).bind
    (fun grown => ?_)
  exact (keep (keeps_query _)).bind (fun _ => writeCell_spares _ _ _ _ anchor)

theorem listSet_spares (reference : HeapRef) (index : Nat) (value : Value) :
    Spares origin (listSet reference index value) := by
  refine .after (fun _ => keeps_query _) (fun _ => .after (fun _ => keeps_query _) (fun values => ?_))
  intro start
  split
  · exact writeCell_spares _ _ 0 0 start
  · exact meets_raise _ (fun _ going => going.2)

theorem mapAppend_spares {anchor : Heap} {reference : HeapRef} {key : Text} {value : Value}
    (sound : Sound anchor) (heldMap : .ref reference ∈ anchor.temporaryRoots)
    (heldValue : value ∈ anchor.temporaryRoots) :
    Meets (Steady origin anchor) (mapAppend reference key value) (fun _ _ => True)
      (fun t => Spared anchor t.heap) := by
  have keep {α : Type} {m : HeapProgram α} (h : Keeps (Steady origin anchor) m) :
      Meets (Steady origin anchor) m (fun _ => Steady origin anchor)
        (fun t => Spared anchor t.heap) :=
    h.weaken (fun _ h => h) (fun _ _ h => h) (fun _ h => h.2)
  refine inspect_steady (fun before cell deref picked => ?_)
  refine (keep keeps_read).bind (fun m => (keep (keeps_query _)).bind (fun _ => ?_))
  refine (keep (keeps_query _)).bind (fun _ => (keep (keeps_query _)).bind (fun _ => ?_))
  refine (keep (keeps_query _)).bind (fun _ => (keep (preflight_steady _ _ _)).bind (fun _ => ?_))
  refine (keep (charge_steady _ _)).bind (fun _ => ?_)
  refine (keep (keeps_steady ((growMap_going sound heldMap heldValue deref).weaken
    (fun _ h => h) (fun _ _ h => h.1) (fun _ h => h)) (growMap_only _ _ _ _ _ _))).bind
    (fun grown => ?_)
  exact (keep (keeps_query _)).bind (fun _ => writeCell_spares _ _ _ _ anchor)

theorem mapSet_spares (reference : HeapRef) (key : Text) (value : Value) :
    Spares origin (mapSet reference key value) := by
  refine .after (fun _ => requireUtf8_keeps _ _) (fun _ =>
    rooted_spares (fun anchor sound held => ?_))
  have heldMap : .ref reference ∈ anchor.temporaryRoots := held _ List.mem_cons_self
  have heldValue : value ∈ anchor.temporaryRoots :=
    held _ (List.mem_cons_of_mem _ List.mem_cons_self)
  refine Meets.bind ((keeps_query _).weaken (fun _ h => h) (fun _ _ h => h) (fun _ h => h.2))
    (fun _ => ?_)
  refine inspect_steady (fun entries cell deref picked => ?_)
  exact meets_ite (fun _ => writeCell_spares _ _ 0 0 anchor)
    (fun _ => mapAppend_spares sound heldMap heldValue)

theorem closeHostHandle_spares (reference : HeapRef) :
    Spares origin (closeHostHandle reference) := by
  refine .after (fun _ => keeps_query _) (fun cell => .after (fun _ => keeps_query _)
    (fun metadata start => meets_ite (fun _ => meets_pure _ (fun _ _ => trivial)) (fun _ => ?_)))
  refine Spares.after (fun _ => keeps_read) (fun m start => ?_) start
  dsimp only
  split
  · exact meets_raise _ (fun _ going => going.2)
  · exact Spares.after (fun _ => keeps_refuseIf _ _) (fun _ => .after (fun _ => native_steady _)
      (fun _ _ _ _ => trivial)) start

theorem collect_spares : Spares origin collect :=
  .of_keeps (fun _ => keeps_steady collect_going collect_only)

theorem detachHostReleases_spares : Spares origin detachHostReleases := by
  refine .after (fun _ => keeps_read) (fun _ => .after (fun _ => keeps_refuseIf _ _) (fun _ => ?_))
  exact .after (fun _ => keeps_read) (fun _ => .after (fun _ => keeps_refuseIf _ _)
    (fun _ _ _ _ => trivial))

/-! The end of the heap. -/

theorem sweepSlots_boundary (keep : Nat → Bool) (reusable : Bool) (indices : List Nat) (h : Heap) :
    (sweepSlots keep reusable indices h).evaluatorBoundaryDepth = h.evaluatorBoundaryDepth := by
  induction indices generalizing h with
  | nil => rfl
  | cons index indices ih =>
    unfold sweepSlots at ih ⊢
    rw [List.foldl_cons, ih]
    split
    · rfl
    · unfold retireSlot
      split
      · rename_i cell generation found
        obtain ⟨queue, head, released, -⟩ := releaseCell_queues cell h
        rw [released]
      · rfl

theorem drainReleaseQueue_spares (start : Heap) :
    Meets (fun m => Steady origin start m ∧ Held u reservations m) drainReleaseQueue
      (fun _ _ => True) (fun t => Spared start t.heap) := by
  rintro m ⟨going, held⟩
  exact ((drainReleaseQueue_held held).weaken (fun _ h => h) (fun _ _ _ => trivial)
    (fun t refused => refused.1 ▸ going.2)) m rfl

theorem teardownForDispatcher_spares (start : Heap) :
    Meets (fun m => Steady origin start m ∧ Held u reservations m) teardownForDispatcher
      (fun _ m => Held u reservations m ∧ m.heap.evaluatorBoundaryDepth = 0)
      (fun t => Spared start t.heap) := by
  refine meets_reading (fun m before => ?_)
  dsimp only
  have outside : Meets (fun t => t = m) (refuseIf (m.heap.evaluatorBoundaryDepth ≠ 0)
      (HeapError.runtime .heapBusy
        "heap teardown is forbidden during an active evaluator boundary"))
      (fun _ t => (Steady origin start t ∧ Held u reservations t) ∧
        t.heap.evaluatorBoundaryDepth = 0) (fun t => Spared start t.heap) := by
    refine meets_refuseIf (fun t same => same ▸ before.1.2) (fun idle t same => ⟨same ▸ before, ?_⟩)
    rw [same]
    exact not_not.mp idle
  refine outside.bind (fun _ => ?_)
  refine meets_ite (fun _ => meets_pure _ (fun _ h => ⟨h.1.2, h.2⟩)) (fun _ => ?_)
  have faultless : ∀ (m : Machine) (faults : List Bool),
      ((Steady origin start m ∧ Held u reservations m) ∧ m.heap.evaluatorBoundaryDepth = 0) →
      (Steady origin start { m with faults } ∧ Held u reservations { m with faults }) ∧
        ({ m with faults } : Machine).heap.evaluatorBoundaryDepth = 0 :=
    fun m faults h => ⟨⟨⟨(h.1.1.going.faults faults).1, h.1.1.2⟩, h.1.2⟩, h.2⟩
  refine Meets.bind ((reserveSweepStorage_keeps _ _ faultless).weaken (fun _ h => h)
    (fun _ _ h => h) (fun _ h => h.1.1.2)) (fun _ => meets_modify _ (fun t h => ⟨⟨?_, ?_⟩, ?_⟩))
  · exact (h.1.2.1.sweepSlots _ _ _).same ⟨rfl, rfl, rfl, rfl, rfl, rfl, rfl, rfl⟩
  · exact (sweepSlots_reservations _ _ _ _).trans h.1.2.2
  · exact (sweepSlots_boundary _ _ _ _).trans h.2

theorem teardown_spares (start : Heap) :
    Meets (fun m => Steady origin start m ∧ Held u reservations m) teardown
      (fun _ _ => True) (fun t => Spared start t.heap) := by
  refine Meets.bind (teardownForDispatcher_spares start) (fun _ m torn => ?_)
  exact ((drainReleaseQueue_held torn.1).weaken (fun _ h => h) (fun _ _ _ => trivial)
    (fun _ refused => absurd torn.2 refused.2)) m rfl

end Baas.Script
