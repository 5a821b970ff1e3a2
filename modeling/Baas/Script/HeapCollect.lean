import Baas.Script.HeapMark

/-! A collection retires exactly the unreachable cells and leaves the others as they
were; programs that only collect and account keep everything the roots reach. -/
namespace Baas.Script

open Program

/-! The sweep. -/

/-- Same owner and same roots. -/
structure SameRoots (a b : Heap) : Prop where
  identity : b.heapIdentity = a.heapIdentity
  explicit : b.explicitRoots = a.explicitRoots
  temporary : b.temporaryRoots = a.temporaryRoots

theorem SameRoots.refl (a : Heap) : SameRoots a a := ⟨rfl, rfl, rfl⟩

theorem SameRoots.trans {a b c : Heap} (first : SameRoots a b) (second : SameRoots b c) :
    SameRoots a c :=
  ⟨second.identity.trans first.identity, second.explicit.trans first.explicit,
    second.temporary.trans first.temporary⟩

theorem SameRoots.rootValues {a b : Heap} (same : SameRoots a b) :
    rootValues b = rootValues a := by
  unfold Script.rootValues
  rw [same.explicit, same.temporary]

/-- Queueing a release touches neither the arena nor the roots. -/
theorem queueHostRelease_quiet (metadata : HostHandleMetadata) (h : Heap) :
    (queueHostRelease metadata h).arena = h.arena ∧
      SameRoots h (queueHostRelease metadata h) := by
  unfold queueHostRelease
  split
  · exact ⟨rfl, .refl h⟩
  split <;> exact ⟨rfl, rfl, rfl, rfl⟩

theorem releaseCell_quiet (cell : Cell) (h : Heap) :
    (releaseCell cell h).arena = h.arena ∧ SameRoots h (releaseCell cell h) := by
  unfold releaseCell
  split
  · exact queueHostRelease_quiet _ h
  · exact ⟨rfl, .refl h⟩

theorem retireSlot_roots (reusable : Bool) (h : Heap) (index : Nat) :
    SameRoots h (retireSlot reusable h index) := by
  unfold retireSlot
  split
  · obtain ⟨owner, explicit, temporary⟩ := (releaseCell_quiet _ h).2
    exact ⟨owner, explicit, temporary⟩
  · exact .refl h

theorem get?_retireSlot (reusable : Bool) (h : Heap) (index : Nat) (handle : Handle) :
    (retireSlot reusable h index).arena.get? handle =
      if handle.index = index then none else h.arena.get? handle := by
  unfold retireSlot
  split
  · simp only [(releaseCell_quiet _ h).1]
    exact Arena.get?_retire _ _ _ _
  · rename_i missing
    split
    · rename_i same
      subst same
      unfold Arena.get?
      cases found : h.arena.slots[handle.index]? with
      | none => rfl
      | some slot =>
        obtain ⟨stored, generation⟩ := slot
        cases stored with
        | none => simp
        | some cell => exact absurd found (missing cell generation)
    · rfl

theorem older_retireSlot (reusable : Bool) (h : Heap) (index : Nat) :
    Arena.Older h.arena (retireSlot reusable h index).arena := by
  unfold retireSlot
  split
  · simp only [(releaseCell_quiet _ h).1]
    exact Arena.older_retire _ _ _
  · exact .refl _

theorem sweepSlots_roots (keep : Nat → Bool) (reusable : Bool) (indices : List Nat) (h : Heap) :
    SameRoots h (sweepSlots keep reusable indices h) := by
  induction indices generalizing h with
  | nil => exact .refl h
  | cons index indices ih =>
    unfold sweepSlots at ih ⊢
    rw [List.foldl_cons]
    split
    · exact ih h
    · exact (retireSlot_roots reusable h index).trans (ih _)

theorem get?_sweepSlots (keep : Nat → Bool) (reusable : Bool) (indices : List Nat) (h : Heap)
    (handle : Handle) :
    (sweepSlots keep reusable indices h).arena.get? handle =
      if handle.index ∈ indices ∧ keep handle.index = false then none
      else h.arena.get? handle := by
  induction indices generalizing h with
  | nil => simp [sweepSlots]
  | cons index indices ih =>
    unfold sweepSlots at ih ⊢
    rw [List.foldl_cons, ih]
    by_cases kept : keep index = true
    · rw [if_pos kept]
      by_cases here : handle.index = index
      · simp [here, kept]
      · simp [here]
    · rw [if_neg kept, get?_retireSlot]
      by_cases here : handle.index = index
      · simp [here, kept]
      · simp [here]

theorem older_sweepSlots (keep : Nat → Bool) (reusable : Bool) (indices : List Nat) (h : Heap) :
    Arena.Older h.arena (sweepSlots keep reusable indices h).arena := by
  induction indices generalizing h with
  | nil => exact .refl _
  | cons index indices ih =>
    unfold sweepSlots at ih ⊢
    rw [List.foldl_cons]
    split
    · exact ih h
    · exact (older_retireSlot reusable h index).trans (ih _)

/-- A swept heap dereferences what it kept, with the same contents. -/
theorem dereference_sweep {h : Heap} {keep : Nat → Bool} {reference : HeapRef} {cell : Cell} :
    dereference reference (sweep keep h) = .ok cell ↔
      dereference reference h = .ok cell ∧ keep reference.slot = true := by
  unfold sweep
  rw [dereference_ok, dereference_ok, get?_sweepSlots, (sweepSlots_roots _ _ _ _).identity]
  constructor
  · rintro ⟨own, found⟩
    split at found
    · cases found
    · rename_i kept
      refine ⟨⟨own, found⟩, ?_⟩
      have inside := (List.getElem?_eq_some_iff.mp (Arena.slot_of_get? found)).1
      by_contra unkept
      exact kept ⟨List.mem_range.mpr inside, by simpa [HeapRef.handle] using unkept⟩
  · rintro ⟨⟨own, found⟩, kept⟩
    refine ⟨own, ?_⟩
    rw [if_neg]
    · exact found
    · rintro ⟨_, unkept⟩
      exact absurd (kept.symm.trans unkept) (by decide)

/-! One collection. -/

/-- What a call of the collector did: everything or nothing. -/
structure Exact (c : Collection) : Prop where
  roots : SameRoots c.source c.target
  retired : c.completed = true → ∀ reference cell,
    dereference reference c.target = .ok cell ↔
      dereference reference c.source = .ok cell ∧ Reaches c.source reference
  aborted : c.completed = false → ∀ reference,
    dereference reference c.target = dereference reference c.source

/-- Same owner and roots, and every cell the roots reach is still there unchanged. -/
structure Kept (a b : Heap) : Prop where
  roots : SameRoots a b
  cells : ∀ reference cell, Reaches a reference → dereference reference a = .ok cell →
    dereference reference b = .ok cell

theorem Kept.refl (a : Heap) : Kept a a := ⟨.refl a, fun _ _ _ h => h⟩

theorem Kept.reaches {a b : Heap} (kept : Kept a b) {reference : HeapRef}
    (reached : Reaches a reference) : Reaches b reference := by
  refine Reach.mono ?_ ?_ reached
  · intro r root
    rwa [IsRoot, kept.roots.rootValues]
  · rintro parent child above ⟨cell, deref, listed⟩
    exact ⟨cell, kept.cells parent cell above deref, listed⟩

theorem Kept.trans {a b c : Heap} (first : Kept a b) (second : Kept b c) : Kept a c :=
  ⟨first.roots.trans second.roots, fun r cell reached deref =>
    second.cells r cell (first.reaches reached) (first.cells r cell reached deref)⟩

theorem Exact.kept {c : Collection} (exact : Exact c) : Kept c.source c.target := by
  refine ⟨exact.roots, fun r cell reached deref => ?_⟩
  cases completed : c.completed with
  | true => exact (exact.retired completed r cell).mpr ⟨deref, reached⟩
  | false => rw [exact.aborted completed r]; exact deref

/-- Dereferencing reads the arena and the owner only. -/
theorem dereference_congr {a b : Heap} (owner : b.heapIdentity = a.heapIdentity)
    (arena : b.arena = a.arena) (reference : HeapRef) :
    dereference reference b = dereference reference a := by
  unfold dereference
  rw [owner, arena]

theorem Valid.mono {a b : Heap} (live : ∀ r, Live a r → Live b r) {value : Value}
    (valid : Valid a value) : Valid b value :=
  fun r same => live r (valid r same)

theorem Sound.congr {a b : Heap} (sound : Sound a) (roots : SameRoots a b)
    (same : ∀ r, dereference r b = dereference r a) : Sound b := by
  have live : ∀ r, Live a r → Live b r := by
    rintro r ⟨cell, deref⟩
    exact ⟨cell, (same r).trans deref⟩
  constructor
  · intro r cell deref value member
    exact (sound.edges r cell ((same r).symm.trans deref) value member).mono live
  · intro value member
    rw [roots.rootValues] at member
    exact (sound.roots value member).mono live

theorem Exact.sound {c : Collection} (exact : Exact c) (sound : Sound c.source) :
    Sound c.target := by
  cases completed : c.completed with
  | false => exact sound.congr exact.roots (exact.aborted completed)
  | true =>
    have retired := exact.retired completed
    constructor
    · intro parent cell deref value member child same
      obtain ⟨before, reached⟩ := (retired parent cell).mp deref
      obtain ⟨content, live⟩ := sound.edges parent cell before value member child same
      exact ⟨content, (retired child content).mpr
        ⟨live, .step reached ⟨cell, before, same ▸ member⟩⟩⟩
    · intro value member r same
      rw [exact.roots.rootValues] at member
      obtain ⟨cell, live⟩ := sound.roots value member r same
      exact ⟨cell, (retired r cell).mpr ⟨live, .root (show .ref r ∈ rootValues c.source from same ▸ member)⟩⟩

/-- Older in time: same owner, and no slot has grown younger. -/
structure Earlier (a b : Heap) : Prop where
  identity : b.heapIdentity = a.heapIdentity
  arena : Arena.Older a.arena b.arena

theorem Earlier.refl (a : Heap) : Earlier a a := ⟨rfl, .refl _⟩

theorem Earlier.trans {a b c : Heap} (first : Earlier a b) (second : Earlier b c) :
    Earlier a c :=
  ⟨second.identity.trans first.identity, first.arena.trans second.arena⟩

theorem Earlier.of_arena {a b : Heap} (identity : b.heapIdentity = a.heapIdentity)
    (arena : b.arena = a.arena) : Earlier a b :=
  ⟨identity, arena ▸ .refl _⟩

/-- A reference that was live once and is not now is dead for good. -/
theorem Earlier.retired {a b c : Heap} (first : Earlier a b) (second : Earlier b c)
    {reference : HeapRef} (live : Live a reference) (gone : ¬Live b reference) :
    ¬Live c reference := by
  rintro ⟨cell, deref⟩
  obtain ⟨old, before⟩ := live
  obtain ⟨own, get⟩ := dereference_ok.mp before
  have empty : b.arena.get? reference.handle = none := by
    cases found : b.arena.get? reference.handle with
    | none => rfl
    | some content =>
      exact absurd ⟨content, dereference_ok.mpr ⟨own.trans first.identity.symm, found⟩⟩ gone
  have valid : (a.arena.get? reference.handle).isSome = true := by rw [get]; rfl
  have never := first.arena.retired second.arena valid empty
  rw [(dereference_ok.mp deref).2] at never
  cases never

/-! The record of a machine: every collection so far, in order. -/

def moments (collections : List Collection) : List Heap :=
  collections.flatMap (fun c => [c.source, c.target])

/-- The machine got from `origin` to its heap through the recorded collections. -/
structure Trace (origin : Heap) (m : Machine) : Prop where
  sound : ∀ h ∈ moments m.collections ++ [m.heap], Sound h
  exact : ∀ c ∈ m.collections, Exact c
  ordered : (origin :: moments m.collections ++ [m.heap]).Pairwise Earlier

theorem Trace.here {origin : Heap} {m : Machine} (trace : Trace origin m) : Sound m.heap :=
  trace.sound _ (List.mem_append_right _ (List.mem_singleton_self _))

theorem Trace.start {h : Heap} (sound : Sound h) (faults : List Bool) :
    Trace h ⟨h, faults, []⟩ := by
  refine ⟨by simpa [moments] using sound, by simp, ?_⟩
  simpa [moments] using Earlier.refl h

theorem pairwise_extend {l : List Heap} {a b : Heap} (ordered : (l ++ [a]).Pairwise Earlier)
    (later : Earlier a b) : (l ++ [a, b]).Pairwise Earlier := by
  rw [List.pairwise_append] at ordered ⊢
  obtain ⟨before, _, last⟩ := ordered
  refine ⟨before, by simpa using later, ?_⟩
  intro x hx y hy
  rcases List.mem_cons.mp hy with rfl | hy
  · exact last x hx y (List.mem_singleton_self _)
  · cases List.mem_singleton.mp hy
    exact (last x hx a (List.mem_singleton_self _)).trans later

theorem pairwise_replace {l : List Heap} {a b : Heap} (ordered : (l ++ [a]).Pairwise Earlier)
    (later : Earlier a b) : (l ++ [b]).Pairwise Earlier := by
  refine (pairwise_extend ordered later).sublist ?_
  exact List.Sublist.append_left (List.sublist_cons_self a [b]) l

/-- A change of the heap outside the collector. -/
theorem Trace.advance {origin : Heap} {m t : Machine} (trace : Trace origin m)
    (collections : t.collections = m.collections) (sound : Sound t.heap)
    (later : Earlier m.heap t.heap) : Trace origin t := by
  constructor
  · rw [collections]
    intro h member
    rcases List.mem_append.mp member with old | new
    · exact trace.sound h (List.mem_append_left _ old)
    · cases List.mem_singleton.mp new
      exact sound
  · rw [collections]; exact trace.exact
  · rw [collections]; exact pairwise_replace trace.ordered later

theorem Trace.collected {origin : Heap} {m t : Machine} (trace : Trace origin m)
    {completed : Bool} (exact : Exact ⟨m.heap, t.heap, completed⟩)
    (later : Earlier m.heap t.heap)
    (collections : t.collections = m.collections ++ [⟨m.heap, t.heap, completed⟩]) :
    Trace origin t := by
  have sound : Sound t.heap := exact.sound trace.here
  constructor
  · rw [collections]
    intro h member
    simp only [moments, List.flatMap_append, List.flatMap_singleton, List.mem_append,
      List.mem_cons, List.not_mem_nil, or_false] at member
    rcases member with (old | rfl | rfl) | rfl
    · exact trace.sound h (List.mem_append_left _ old)
    · exact trace.here
    · exact sound
    · exact sound
  · rw [collections]
    intro c member
    rcases List.mem_append.mp member with old | new
    · exact trace.exact c old
    · cases List.mem_singleton.mp new
      exact exact
  · have once := pairwise_extend trace.ordered later
    rw [show origin :: moments m.collections ++ [m.heap, t.heap] =
      (origin :: moments m.collections ++ [m.heap]) ++ [t.heap] by simp] at once
    have twice := pairwise_extend once (.refl t.heap)
    rw [collections]
    simpa [moments] using twice

/-- The machine came here and still has everything `anchor` reached, under its roots. -/
def Going (origin anchor : Heap) (m : Machine) : Prop := Trace origin m ∧ Kept anchor m.heap

theorem Going.start {origin : Heap} {m : Machine} (trace : Trace origin m) :
    Going origin m.heap m :=
  ⟨trace, .refl _⟩

/-- A change that dereferencing and the roots do not see. -/
theorem Going.quiet {origin anchor : Heap} {m t : Machine} (going : Going origin anchor m)
    (collections : t.collections = m.collections) (roots : SameRoots m.heap t.heap)
    (arena : t.heap.arena = m.heap.arena) : Going origin anchor t := by
  have same := dereference_congr roots.identity arena
  refine ⟨going.1.advance collections (going.1.here.congr roots same)
    (.of_arena roots.identity arena), going.2.trans ⟨roots, fun r cell _ deref => ?_⟩⟩
  exact (same r).trans deref

variable {origin anchor : Heap}

theorem native_keeps (failure : HeapError) {inv : Machine → Prop}
    (faultless : ∀ m faults, inv m → inv { m with faults }) : Keeps inv (native failure) := by
  intro m h
  unfold native
  cases faults : m.faults with
  | nil => exact h
  | cons refused rest =>
    cases refused with
    | true => exact faultless m rest h
    | false => exact faultless m rest h

theorem Going.faults {m : Machine} (going : Going origin anchor m) (faults : List Bool) :
    Going origin anchor { m with faults } :=
  going.quiet rfl (.refl _) rfl

theorem native_going (failure : HeapError) : Keeps (Going origin anchor) (native failure) :=
  native_keeps failure (fun _ faults going => going.faults faults)

theorem reserveSweepStorage_keeps (keep : Nat → Bool) (onlyUnmarked : Bool)
    {inv : Machine → Prop} (faultless : ∀ m faults, inv m → inv { m with faults }) :
    Keeps inv (reserveSweepStorage keep onlyUnmarked) := by
  unfold reserveSweepStorage
  refine keeps_read.andThen (fun m => ?_)
  dsimp only
  split
  · exact keeps_raise _
  · refine meets_ite (fun _ => keeps_raise _) (fun _ => ?_)
    split
    · exact keeps_raise _
    · exact (keeps_runIf (native_keeps _ faultless)).andThen (fun _ => native_keeps _ faultless)

theorem sweep_earlier (keep : Nat → Bool) (h : Heap) :
    SameRoots h (sweep keep h) ∧ Earlier h (sweep keep h) := by
  have counted : SameRoots h
      { h with stats.collections := saturatingAdd h.stats.collections 1 } := ⟨rfl, rfl, rfl⟩
  have roots : SameRoots h (sweep keep h) := counted.trans (sweepSlots_roots _ _ _ _)
  exact ⟨roots, roots.identity, older_sweepSlots keep true (List.range h.arena.slots.length)
    { h with stats.collections := saturatingAdd h.stats.collections 1 }⟩

theorem sweep_exact {h : Heap} {marked : List Nat} (ok : mark h = .ok marked) :
    Exact ⟨h, sweep (fun index => decide (index ∈ marked)) h, true⟩ := by
  refine ⟨(sweep_earlier _ h).1, fun _ reference cell => ?_, nofun⟩
  rw [dereference_sweep]
  constructor
  · rintro ⟨deref, kept⟩
    exact ⟨deref, (mark_exact ok ⟨cell, deref⟩).mp (of_decide_eq_true kept)⟩
  · rintro ⟨deref, reached⟩
    exact ⟨deref, decide_eq_true ((mark_exact ok ⟨cell, deref⟩).mpr reached)⟩

theorem collectUnrecorded_meets (h : Heap) (past : List Collection) :
    Meets (fun m => m.heap = h ∧ m.collections = past) collectUnrecorded
      (fun _ m => m.collections = past ∧ Exact ⟨h, m.heap, true⟩ ∧ Earlier h m.heap)
      (fun m => m.heap = h ∧ m.collections = past) := by
  have faultless (m : Machine) (faults : List Bool) (same : m.heap = h ∧ m.collections = past) :
      ({ m with faults } : Machine).heap = h ∧ ({ m with faults } : Machine).collections = past :=
    same
  unfold collectUnrecorded
  refine Meets.bind keeps_read (fun m => (keeps_refuseIf _ _).bind (fun _ => ?_))
  refine (native_keeps _ faultless).bind (fun _ => ?_)
  refine Meets.bind (meets_query
    (fun (m : Machine) marked same (ok : mark m.heap = .ok marked) =>
      (⟨same, same.1 ▸ ok⟩ : (m.heap = h ∧ m.collections = past) ∧ mark h = .ok marked))
    (fun _ same => same)) (fun marked => ?_)
  refine meets_of_fact (fun _ same => same.2) (fun ok => ?_)
  refine Meets.bind ((reserveSweepStorage_keeps _ true faultless).weaken
    (fun _ same => same.1) (fun _ _ same => same) (fun _ same => same)) (fun _ => ?_)
  refine meets_modify _ ?_
  rintro m ⟨rfl, rfl⟩
  exact ⟨rfl, sweep_exact ok, (sweep_earlier _ _).2⟩

/-- Every call of the collector, completed or not, is recorded and exact. -/
theorem collect_going : Keeps (Going origin anchor) collect := by
  intro m going
  have spec := collectUnrecorded_meets m.heap m.collections m ⟨rfl, rfl⟩
  unfold collect
  cases outcome : collectUnrecorded m with
  | mk result t =>
    rw [outcome] at spec
    cases result with
    | ok _ =>
      obtain ⟨past, exact, later⟩ := spec
      exact ⟨going.1.collected exact later (by simp [past]), going.2.trans exact.kept⟩
    | error e =>
      obtain ⟨same, past⟩ := spec
      have aborted : Exact ⟨m.heap, t.heap, false⟩ := by
        rw [same]
        exact ⟨.refl _, nofun, fun _ _ => rfl⟩
      refine ⟨going.1.collected aborted ?_ (by simp [past]), going.2.trans aborted.kept⟩
      rw [same]
      exact .refl _

theorem inspect_going {α : Type} (f : Heap → Except HeapError α) :
    Meets (Going origin anchor) (inspect f)
      (fun a m => Going origin anchor m ∧ f m.heap = .ok a) (Going origin anchor) :=
  meets_query (fun _ _ going ok => ⟨going, ok⟩) (fun _ going => going)

theorem modifyHeap_going {f : Heap → Heap} (roots : ∀ h, SameRoots h (f h))
    (arena : ∀ h, (f h).arena = h.arena) : Keeps (Going origin anchor) (modifyHeap f) :=
  meets_modify _ (fun m going => going.quiet rfl (roots m.heap) (arena m.heap))

theorem charge_going (charge : Charge) (cells : Nat) :
    Keeps (Going origin anchor) (modifyHeap (chargeHeap charge cells)) :=
  modifyHeap_going (fun _ => ⟨rfl, rfl, rfl⟩) (fun _ => rfl)

theorem refund_going (charge : Charge) (cells : Nat) :
    Keeps (Going origin anchor) (modifyHeap (refundHeap charge cells)) :=
  modifyHeap_going (fun _ => ⟨rfl, rfl, rfl⟩) (fun _ => rfl)

theorem preflight_going (charge : Charge) (allocationSize : Nat) (addCell : Bool) :
    Keeps (Going origin anchor) (preflight charge allocationSize addCell) := by
  unfold preflight
  refine keeps_read.andThen (fun m => ?_)
  refine (keeps_refuseIf _ _).andThen (fun _ => (keeps_refuseIf _ _).andThen (fun _ => ?_))
  split
  · exact keeps_raise _
  · exact (keeps_runIf collect_going).andThen (fun _ => keeps_query _)

/-- A native allocation whose failure gives a charge back. -/
theorem native_refunded (failure : HeapError) (charge : Charge) :
    Keeps (Going origin anchor)
      ((native failure).catching (fun e => do modifyHeap (refundHeap charge 1); raise e)) :=
  (native_going failure).rescue (fun _ => (refund_going charge 1).andThen (fun _ => keeps_raise _))

/-- A cell whose children are rooted can be placed anywhere. -/
theorem placeCell_going {cell : Cell}
    (rooted : ∀ value ∈ visitChildren cell.data, value ∈ anchor.temporaryRoots) :
    Keeps (Going origin anchor) (placeCell cell) := by
  intro m going
  have sound := going.1.here
  have placed (reference : HeapRef) (content : Cell) :
      dereference reference ({ m.heap with arena := (m.heap.arena.place cell).1 } : Heap) =
          .ok content ↔
        reference.heapIdentity = m.heap.heapIdentity ∧
          (if reference.handle = (m.heap.arena.place cell).2 then some cell
            else m.heap.arena.get? reference.handle) = some content := by
    rw [dereference_ok, Arena.get?_place]
  have kept (reference : HeapRef) (content : Cell)
      (deref : dereference reference m.heap = .ok content) :
      dereference reference ({ m.heap with arena := (m.heap.arena.place cell).1 } : Heap) =
        .ok content := by
    obtain ⟨own, found⟩ := dereference_ok.mp deref
    refine (placed reference content).mpr ⟨own, ?_⟩
    rw [if_neg]
    · exact found
    · intro new
      have fresh := Arena.place_fresh m.heap.arena cell
      rw [← new, found] at fresh
      cases fresh
  have live : ∀ r, Live m.heap r → Live
      ({ m.heap with arena := (m.heap.arena.place cell).1 } : Heap) r :=
    fun r ⟨content, deref⟩ => ⟨content, kept r content deref⟩
  have after : Sound ({ m.heap with arena := (m.heap.arena.place cell).1 } : Heap) := by
    constructor
    · intro reference content deref value member
      obtain ⟨own, found⟩ := (placed reference content).mp deref
      split at found
      · cases Option.some.inj found
        have root : value ∈ rootValues m.heap := by
          refine List.mem_append_right _ ?_
          rw [going.2.roots.temporary]
          exact rooted value member
        exact (sound.roots value root).mono live
      · exact (sound.edges reference content (dereference_ok.mpr ⟨own, found⟩) value member).mono
          live
    · exact fun value member => (sound.roots value member).mono live
  refine ⟨going.1.advance rfl after ⟨rfl, Arena.older_place _ _⟩, going.2.trans ⟨⟨rfl, rfl, rfl⟩, ?_⟩⟩
  exact fun reference content _ deref => kept reference content deref

theorem allocate_going {data : CellData} (externalReserved : Bool)
    (rooted : ∀ value ∈ visitChildren data, value ∈ anchor.temporaryRoots) :
    Keeps (Going origin anchor) (allocate data externalReserved) := by
  unfold allocate
  refine (keeps_query _).andThen (fun _ => (keeps_query _).andThen (fun charge => ?_))
  refine (preflight_going _ _ _).andThen (fun _ => keeps_read.andThen (fun m => ?_))
  refine (keeps_refuseIf _ _).andThen (fun _ => (charge_going _ _).andThen (fun _ => ?_))
  refine (native_refunded _ _).andThen (fun _ => ?_)
  exact (keeps_runIf (native_refunded _ _)).andThen (fun _ => placeCell_going rooted)

end Baas.Script
