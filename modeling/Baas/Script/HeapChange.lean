import Baas.Script.Equality
import Baas.Script.HeapRun
import Baas.Script.HeapThrow

/-! What one call adds to the cells of the heap: at most cells that were placed, which refer
to what was there before, and lists, maps and host handles that were written. -/
namespace Baas.Script

open Program Transition

variable {start : Heap}

/-- A cell that the start did not hold like this. -/
structure Made (start : Heap) (reference : HeapRef) (data : CellData) : Prop where
  keyed : ∀ entries, data = .mapCell entries → (keys entries.items).Nodup
  source : (¬ Live start reference ∧ ∀ value ∈ visitChildren data, Valid start value) ∨
    dataKind data ≠ .error ∧ ∃ old, dereference reference start = .ok old ∧
      dataKind old.data = dataKind data

def Added (start h : Heap) : Prop :=
  ∀ reference cell, dereference reference h = .ok cell →
    dereference reference start = .ok cell ∨ Made start reference cell.data

/-- Nothing has been added so far. -/
def Thinned (start : Heap) (m : Machine) : Prop := Trace start m ∧ Only start m

/-- However it ends, the call adds only cells of its own. -/
abbrev Adds {α : Type} (start : Heap) (m : HeapProgram α) : Prop :=
  Meets (Thinned start) m (fun _ m => Added start m.heap) (fun m => Added start m.heap)

theorem Only.added {m : Machine} (only : Only start m) : Added start m.heap :=
  fun reference cell deref => .inl (only reference cell deref)

theorem Only.of_arena {m t : Machine} (only : Only start m)
    (owner : t.heap.heapIdentity = m.heap.heapIdentity) (arena : t.heap.arena = m.heap.arena) :
    Only start t :=
  fun reference cell deref =>
    only reference cell ((dereference_congr owner arena reference).symm.trans deref)

theorem Added.of_arena {h t : Heap} (added : Added start h)
    (owner : t.heapIdentity = h.heapIdentity) (arena : t.arena = h.arena) : Added start t :=
  fun reference cell deref =>
    added reference cell ((dereference_congr owner arena reference).symm.trans deref)

theorem adds_of_only {α : Type} {m : HeapProgram α} (only : Keeps (Only start) m) :
    Adds start m :=
  only.weaken (fun _ h => h.2) (fun _ _ h => h.added) (fun _ h => h.added)

theorem keeps_thinned {α : Type} {m : HeapProgram α}
    (going : ∀ anchor, Keeps (Going start anchor) m) (only : Keeps (Only start) m) :
    Keeps (Thinned start) m :=
  (keeps_trace going).both only

theorem thinned_then {α β : Type} {m : HeapProgram α} {next : α → HeapProgram β}
    (first : Keeps (Thinned start) m) (rest : ∀ a, Adds start (next a)) :
    Adds start (m >>= next) :=
  Meets.bind (first.weaken (fun _ h => h) (fun _ _ h => h) (fun _ h => h.2.added)) rest

/-! Placing a cell. -/

/-- A new reference was not live at the start: what was live and is not now is dead for good. -/
theorem placed_fresh {m : Machine} (trace : Trace start m) (cell : Cell) {reference : HeapRef}
    (own : reference.heapIdentity = m.heap.heapIdentity)
    (here : reference.handle = (m.heap.arena.place cell).2) : ¬ Live start reference := by
  intro live
  have earlier : Earlier start m.heap :=
    (List.pairwise_cons.mp trace.ordered).1 m.heap (List.mem_append_right _ List.mem_cons_self)
  have later : Earlier m.heap { m.heap with arena := (m.heap.arena.place cell).1 } :=
    ⟨rfl, Arena.older_place _ _⟩
  have gone : ¬ Live m.heap reference := by
    rintro ⟨content, deref⟩
    have found := (dereference_ok.mp deref).2
    rw [here, Arena.place_fresh] at found
    exact absurd found nofun
  refine earlier.retired later live gone ⟨cell, dereference_ok.mpr ⟨own, ?_⟩⟩
  rw [Arena.get?_place, if_pos here]

theorem placeCell_adds {cell : Cell}
    (keyed : ∀ entries, cell.data = .mapCell entries → (keys entries.items).Nodup)
    (children : ∀ value ∈ visitChildren cell.data, Valid start value) :
    Adds start (placeCell cell) := by
  intro m thinned reference content deref
  obtain ⟨own, found⟩ := dereference_ok.mp deref
  rw [Arena.get?_place] at found
  by_cases new : reference.handle = (m.heap.arena.place cell).2
  · rw [if_pos new] at found
    obtain rfl := Option.some_inj.mp found
    exact .inr ⟨keyed, .inl ⟨placed_fresh thinned.1 cell own new, children⟩⟩
  · rw [if_neg new] at found
    exact .inl (thinned.2 reference content (dereference_ok.mpr ⟨own, found⟩))

theorem Valid.of_only {m : Machine} (only : Only start m) {value : Value}
    (valid : Valid m.heap value) : Valid start value :=
  valid.mono fun r ⟨cell, deref⟩ => ⟨cell, only r cell deref⟩

theorem validateEdges_valid {data : CellData} {h : Heap} (ok : validateEdges data h = .ok ()) :
    ∀ value ∈ visitChildren data, Valid h value := by
  unfold validateEdges at ok
  generalize visitChildren data = values at ok
  induction values with
  | nil => exact fun _ i => nomatch i
  | cons first rest ih =>
    obtain ⟨_, head, tail⟩ := bind_ok ok
    intro value inside
    obtain rfl | later := List.mem_cons.mp inside
    · exact validateEdge_valid head
    · exact ih tail value later

theorem allocate_adds {data : CellData} (externalReserved : Bool)
    (keyed : ∀ entries, data = .mapCell entries → (keys entries.items).Nodup) :
    Adds start (allocate data externalReserved) := by
  unfold allocate
  have fine {α : Type} {m : HeapProgram α} (h : Keeps (Thinned start) m) :
      Meets (Thinned start) m (fun _ => Thinned start) (fun m => Added start m.heap) :=
    h.weaken (fun _ h => h) (fun _ _ h => h) (fun _ h => h.2.added)
  refine Meets.bind (meets_query
    (fun (m : Machine) _ thinned (ok : validateEdges data m.heap = .ok ()) =>
      (⟨thinned, fun value inside => (validateEdges_valid ok value inside).of_only thinned.2⟩ :
        Thinned start m ∧ ∀ value ∈ visitChildren data, Valid start value))
    (fun _ thinned => thinned.2.added)) (fun _ => ?_)
  refine meets_of_fact (fun _ h => h.2) (fun children => Meets.forget ?_)
  refine (fine (keeps_query _)).bind (fun charge => ?_)
  refine (fine (keeps_thinned (fun _ => preflight_going _ _ _) (preflight_only _ _ _))).bind
    (fun _ => (fine keeps_read).bind (fun m => ?_))
  refine (fine (keeps_refuseIf _ _)).bind (fun _ => ?_)
  refine (fine (keeps_thinned (fun _ => charge_going _ _) (charge_only _ _))).bind (fun _ => ?_)
  have refunded (failure : HeapError) (charge : Charge) :
      Keeps (Thinned start) ((native failure).catching
        (fun e => do modifyHeap (refundHeap charge 1); raise e)) :=
    keeps_thinned (fun _ => native_refunded _ _) (native_refunded_only _ _)
  refine (fine (refunded _ _)).bind (fun _ => (fine (keeps_runIf (refunded _ _))).bind fun _ => ?_)
  exact placeCell_adds keyed children

/-! Rooted bodies. -/

theorem addTemporaryRoot_only (value : Value) : Keeps (Only start) (addTemporaryRoot value) :=
  keeps_read.andThen fun _ => (keeps_refuseIf _ _).andThen fun _ =>
    (keeps_query _).andThen fun _ => (native_only _).andThen fun _ =>
      modifyHeap_only (fun _ => rfl) (fun _ => rfl)

theorem addTemporaryRoot_thinned (value : Value) :
    Keeps (Thinned start) (addTemporaryRoot value) :=
  (addTemporaryRoot_trace value).both (addTemporaryRoot_only value)

theorem inRootScope_adds {α : Type} {body : HeapProgram α} (h : Adds start body) :
    Adds start (inRootScope body) := by
  have fine : Keeps (Thinned start) (read : HeapProgram Machine) := keeps_read
  refine thinned_then fine (fun m => Meets.ensuring h ?_ ?_)
  · exact fun _ _ added => added.of_arena rfl rfl
  · exact fun _ added => added.of_arena rfl rfl

theorem rooted_adds {α : Type} (values : List Value) {body : HeapProgram α}
    (h : Adds start body) : Adds start (rooted values body) :=
  inRootScope_adds
    (thinned_then (keeps_forM _ _ fun value _ => addTemporaryRoot_thinned value) fun _ => h)

/-! Allocation. -/

theorem unkeyed {data : CellData} (other : dataKind data ≠ .orderedMap) :
    ∀ entries, data = .mapCell entries → (keys entries.items).Nodup := by
  rintro entries rfl
  exact absurd rfl other

theorem requireUtf8_adds {α : Type} {bytes : Bytes} {message : String}
    {next : Unit → HeapProgram α} (rest : ∀ a, Adds start (next a)) :
    Adds start (requireUtf8 bytes message >>= next) :=
  thinned_then (requireUtf8_keeps _ _) rest

theorem native_thinned (failure : HeapError) : Keeps (Thinned start) (native failure) :=
  keeps_thinned (fun _ => native_going _) (native_only _)

theorem keys_assign (key : Bytes) (value : Value) (entries : List (Text × Value)) :
    keys (assign key value entries) = keys entries := by
  rw [keys, keys, assign, List.map_map]
  refine List.map_congr_left fun entry _ => ?_
  simp only [Function.comp_apply]
  split
  · rfl
  · rfl

theorem hasKey_iff {key : Bytes} {entries : List (Text × Value)} :
    hasKey key entries = true ↔ key ∈ keys entries := by
  rw [hasKey, List.any_eq_true, keys, List.mem_map]
  simp only [decide_eq_true_eq]

theorem keys_append_nodup {entries : List (Text × Value)} {entry : Text × Value}
    (once : (keys entries).Nodup) (new : ¬ hasKey entry.1.items entries = true) :
    (keys (entries ++ [entry])).Nodup := by
  rw [hasKey_iff] at new
  rw [keys, List.map_append]
  exact List.nodup_append'.mpr ⟨once, List.nodup_singleton _,
    List.disjoint_singleton.mpr new⟩

theorem keys_copied (p : Platform) (entries : List (Text × Value)) (entry : Text × Value) :
    keys (entries.map (fun entry => (p.text entry.1.items, entry.2)) ++
      [(p.moved entry.1, entry.2)]) = keys (entries ++ [entry]) := by
  rw [keys, keys, List.map_append, List.map_append, List.map_map]
  rfl

/-- A map is allocated with every key once. -/
theorem normalized_nodup {entries before normalized : List (Text × Value)}
    (once : (keys before).Nodup) (ok : entries.foldlM normalizeEntry before = .ok normalized) :
    (keys normalized).Nodup := by
  induction entries generalizing before with
  | nil => exact Except.ok.inj ok ▸ once
  | cons entry rest ih =>
    rw [List.foldlM_cons] at ok
    obtain ⟨next, shape, ok⟩ := bind_ok ok
    refine ih ?_ ok
    unfold normalizeEntry at shape
    split at shape
    · exact absurd shape nofun
    split at shape
    · rw [← Except.ok.inj shape, keys_assign]
      exact once
    · rename_i new
      rw [← Except.ok.inj shape]
      exact keys_append_nodup once new

theorem allocateMap_adds (entries : List (Text × Value)) : Adds start (allocateMap entries) := by
  have empty : (keys []).Nodup := List.nodup_nil
  refine thinned_then (native_thinned _) (fun _ => ?_)
  refine Meets.bind (meets_query (fun (m : Machine) normalized thinned
    (ok : entries.foldlM normalizeEntry [] = .ok normalized) =>
      (⟨thinned, normalized_nodup empty ok⟩ : Thinned start m ∧ (keys normalized).Nodup))
    (fun _ thinned => thinned.2.added)) (fun normalized => ?_)
  refine meets_of_fact (fun _ h => h.2) (fun once => Meets.forget ?_)
  refine thinned_then keeps_read (fun m => rooted_adds _ (allocate_adds false ?_))
  intro placed same
  rw [← CellData.mapCell.inj same]
  exact once

theorem allocateModule_adds (metadata : ModuleMetadata) :
    Adds start (allocateModule metadata) := by
  refine requireUtf8_adds (fun _ => inRootScope_adds (thinned_then ?_ fun _ =>
    allocate_adds false (unkeyed nofun)))
  exact keeps_forM _ _ fun entry _ =>
    (requireUtf8_keeps _ _).andThen fun _ => addTemporaryRoot_thinned entry.2

theorem convertingBadAlloc_adds {α : Type} (message : String) {body : HeapProgram α}
    (h : Adds start body) : Adds start (convertingBadAlloc message body) :=
  h.catching fun _ => meets_raise _ fun _ added => added

theorem allocateError_adds (metadata : ErrorMetadata) : Adds start (allocateError metadata) :=
  convertingBadAlloc_adds _ (thinned_then (native_thinned _) fun _ =>
    thinned_then (keeps_query _) fun _ =>
      rooted_adds _ (allocate_adds false (unkeyed nofun)))

theorem deriveError_adds (primary : HeapRef) (additions : ErrorDerivation) :
    Adds start (deriveError primary additions) :=
  convertingBadAlloc_adds _ (thinned_then (native_thinned _) fun _ =>
    thinned_then (keeps_query _) fun _ => allocateError_adds _)

theorem allocateReservedHostHandle_adds (metadata : HostHandleMetadata)
    (reservation : Option Nat) :
    Adds start (allocateReservedHostHandle metadata reservation) := by
  refine thinned_then keeps_read fun _ => thinned_then (keeps_refuseIf _ _) fun _ => ?_
  refine Meets.bind (allocate_adds true (unkeyed nofun)) fun _ => ?_
  refine Meets.bind (meets_modify _ fun _ added => ?_) fun _ => meets_pure _ fun _ h => h
  exact added.of_arena rfl rfl

/-! Writes. -/

/-- What an inspection finds was there at the start. -/
theorem inspect_only {α β : Type} {pick : CellData → Option α} {reference : HeapRef}
    {next : α → HeapProgram β} {after : β → Machine → Prop} {failed : Machine → Prop}
    (err : ∀ m, Only start m → failed m)
    (rest : ∀ contents cell, dereference reference start = .ok cell →
      pick cell.data = some contents → Meets (Only start) (next contents) after failed) :
    Meets (Only start) (inspect (expected pick reference) >>= next) after failed := by
  refine Meets.bind (meets_query (fun m contents only ok =>
    (⟨only, ok⟩ : Only start m ∧ expected pick reference m.heap = .ok contents))
    (fun _ only => err _ only)) (fun contents m h => ?_)
  obtain ⟨cell, deref, picked⟩ := expected_ok h.2
  exact rest contents cell (h.1 reference cell deref) picked m h.1

/-- A written cell has the kind it had. -/
theorem written_adds {m : Machine} (only : Only start m) {reference : HeapRef} {old cell : Cell}
    (deref : dereference reference m.heap = .ok old)
    (same : dataKind old.data = dataKind cell.data) (other : dataKind cell.data ≠ .error)
    (keyed : ∀ entries, cell.data = .mapCell entries → (keys entries.items).Nodup) :
    Added start (rewritten m.heap reference cell) := by
  intro r content found
  have before := (dereference_rewritten deref cell r content).mp found
  by_cases here : r = reference
  · rw [if_pos here] at before
    rw [← before, here]
    exact .inr ⟨keyed, .inr ⟨other, old, only reference old deref, same⟩⟩
  · rw [if_neg here] at before
    exact .inl (only r content before)

theorem writeCell_adds {reference : HeapRef} {data : CellData} {old : Cell} (bytes strings : Nat)
    (deref : dereference reference start = .ok old) (same : dataKind old.data = dataKind data)
    (other : dataKind data ≠ .error)
    (keyed : ∀ entries, data = .mapCell entries → (keys entries.items).Nodup) :
    Meets (Only start) (writeCell reference data bytes strings) (fun _ m => Added start m.heap)
      (fun m => Added start m.heap) := by
  refine Meets.bind (meets_query (fun m cell only ok =>
    (⟨only, ok⟩ : Only start m ∧ dereference reference m.heap = .ok cell))
    (fun _ only => only.added)) (fun cell => ?_)
  refine meets_modify _ fun m h => ?_
  have found := h.1 reference cell h.2
  rw [deref] at found
  obtain rfl := Except.ok.inj found
  exact written_adds h.1 h.2 same other keyed

theorem only_then {α β : Type} {m : HeapProgram α} {next : α → HeapProgram β}
    (first : Keeps (Only start) m)
    (rest : ∀ a, Meets (Only start) (next a) (fun _ m => Added start m.heap)
      (fun m => Added start m.heap)) :
    Meets (Only start) (m >>= next) (fun _ m => Added start m.heap)
      (fun m => Added start m.heap) :=
  Meets.bind (first.weaken (fun _ h => h) (fun _ _ h => h) (fun _ h => h.added)) rest

theorem adds_from_only {α : Type} {m : HeapProgram α}
    (h : Meets (Only start) m (fun _ m => Added start m.heap) (fun m => Added start m.heap)) :
    Adds start m :=
  h.weaken (fun _ h => h.2) (fun _ _ h => h) (fun _ h => h)

theorem listAppend_adds (reference : HeapRef) (value : Value) :
    Adds start (listAppend reference value) := by
  refine rooted_adds _ (adds_from_only (only_then (keeps_query _) fun _ => ?_))
  refine inspect_only (fun _ only => only.added) fun before cell deref picked => ?_
  refine only_then keeps_read fun m => only_then (keeps_query _) fun _ => ?_
  refine only_then (keeps_query _) fun _ => only_then (preflight_only _ _ _) fun _ => ?_
  refine only_then (charge_only _ _) fun _ => only_then (growList_only _ _ _ _ _) fun grown => ?_
  refine only_then (keeps_query _) fun _ => ?_
  refine writeCell_adds _ _ deref ?_ nofun nofun
  rw [list?_some picked]
  rfl

theorem listSet_adds (reference : HeapRef) (index : Nat) (value : Value) :
    Adds start (listSet reference index value) := by
  refine adds_from_only (only_then (keeps_query _) fun _ => ?_)
  refine inspect_only (fun _ only => only.added) fun values cell deref picked => ?_
  split
  · refine writeCell_adds 0 0 deref ?_ (by rintro ⟨⟩) (by rintro _ ⟨⟩)
    rw [list?_some picked]
    rfl
  · exact meets_raise _ fun _ only => only.added

theorem refunding_adds {α : Type} {charge : Charge} {message : String} {body : HeapProgram α}
    {after : α → Machine → Prop} (h : Meets (Only start) body after (Only start)) :
    Meets (Only start) (refunding charge message body) after (Only start) :=
  h.catching fun _ => (refund_only charge 0).bind fun _ => meets_raise _ fun _ only => only

/-- The longer map has the keys of the old one and the new key. -/
theorem growMap_keyed {reference : HeapRef} {key : Text} {value : Value}
    {desired oldVector : Nat} {delta : Charge} {cell : Cell} {before : Buffer (Text × Value)}
    (deref : dereference reference start = .ok cell)
    (picked : cell.data.map? = some before) (once : (keys before.items).Nodup)
    (new : ¬ hasKey key.items before.items = true) :
    Meets (Only start) (growMap reference key value desired oldVector delta)
      (fun grown m => Only start m ∧ (keys grown.1.items).Nodup) (Only start) := by
  refine refunding_adds ((native_only _).bind fun _ => keeps_read.bind fun m => ?_)
  refine inspect_only (fun _ only => only) fun current found deref' picked' => ?_
  rw [deref] at deref'
  obtain rfl := Except.ok.inj deref'
  rw [picked] at picked'
  obtain rfl := Option.some_inj.mp picked'
  refine (keeps_query _).bind fun actualVector => (keeps_query _).bind fun actualBytes => ?_
  refine (keeps_query _).bind fun allocation => (settle_only _ _ _).bind fun _ => ?_
  refine meets_pure _ fun t only => ⟨only, ?_⟩
  have grown := keys_copied m.heap.platform before.items (key, value)
  exact grown ▸ keys_append_nodup once new

theorem mapAppend_adds {reference : HeapRef} {key : Text} {value : Value} {cell : Cell}
    {before : Buffer (Text × Value)} (keyed : Keyed start)
    (deref : dereference reference start = .ok cell)
    (picked : cell.data.map? = some before) (new : ¬ hasKey key.items before.items = true) :
    Meets (Only start) (mapAppend reference key value) (fun _ m => Added start m.heap)
      (fun m => Added start m.heap) := by
  have once := keyed reference cell before deref (map?_some picked)
  refine inspect_only (fun _ only => only.added) fun _ _ _ _ => ?_
  refine only_then keeps_read fun m => only_then (keeps_query _) fun _ => ?_
  refine only_then (keeps_query _) fun _ => only_then (keeps_query _) fun _ => ?_
  refine only_then (keeps_query _) fun _ => only_then (preflight_only _ _ _) fun _ => ?_
  refine only_then (charge_only _ _) fun _ => ?_
  refine Meets.bind ((growMap_keyed deref picked once new).weaken (fun _ h => h)
    (fun _ _ h => h) (fun _ only => only.added)) (fun grown => ?_)
  refine meets_of_fact (fun _ h => h.2) (fun nodup => Meets.forget ?_)
  refine only_then (keeps_query _) fun _ => ?_
  refine writeCell_adds _ _ deref ?_ nofun ?_
  · rw [map?_some picked]
    rfl
  · rintro entries same
    rw [← CellData.mapCell.inj same]
    exact nodup

theorem mapSet_adds (keyed : Keyed start) (reference : HeapRef) (key : Text) (value : Value) :
    Adds start (mapSet reference key value) := by
  refine requireUtf8_adds fun _ => rooted_adds _ (adds_from_only ?_)
  refine only_then (keeps_query _) fun _ => ?_
  refine inspect_only (fun _ only => only.added) fun entries cell deref picked => ?_
  refine meets_ite (fun _ => ?_) (fun new => mapAppend_adds keyed deref picked new)
  refine writeCell_adds 0 0 deref ?_ nofun ?_
  · rw [map?_some picked]
    rfl
  · rintro written same
    rw [← CellData.mapCell.inj same, keys_assign]
    exact keyed reference cell entries deref (map?_some picked)

theorem closeHostHandle_adds (reference : HeapRef) : Adds start (closeHostHandle reference) := by
  refine adds_from_only ?_
  refine Meets.bind (meets_query (fun m cell only ok =>
    (⟨only, ok⟩ : Only start m ∧ dereference reference m.heap = .ok cell))
    (fun _ only => only.added)) (fun cell => ?_)
  have drop : ∀ m, Only start m ∧ dereference reference m.heap = .ok cell → Added start m.heap :=
    fun _ h => h.1.added
  have keep {α : Type} {m : HeapProgram α}
      (h : Keeps (fun m => Only start m ∧ dereference reference m.heap = .ok cell) m) :
      Meets (fun m => Only start m ∧ dereference reference m.heap = .ok cell) m
        (fun _ m => Only start m ∧ dereference reference m.heap = .ok cell)
        (fun m => Added start m.heap) :=
    h.weaken (fun _ h => h) (fun _ _ h => h) drop
  refine Meets.bind (meets_query (fun m metadata h ok => (⟨h, ok⟩ :
    (Only start m ∧ dereference reference m.heap = .ok cell) ∧
      expected CellData.host? reference m.heap = .ok metadata)) drop) (fun metadata => ?_)
  refine meets_of_fact (p := cell.data = .hostCell metadata) ?_ (fun host => Meets.forget ?_)
  · rintro m ⟨⟨only, deref⟩, ok⟩
    obtain ⟨found, deref', picked⟩ := expected_ok ok
    rw [deref] at deref'
    obtain rfl := Except.ok.inj deref'
    exact host?_some picked
  refine meets_ite (fun _ => meets_pure _ drop) (fun _ => (keep keeps_read).bind fun m => ?_)
  dsimp only
  split
  · exact meets_raise _ drop
  · refine (keep (keeps_refuseIf _ _)).bind fun _ => ?_
    refine (keep (native_keeps _ fun _ _ h => h)).bind fun _ => ?_
    refine Meets.bind (keep (keeps_modify fun m h => ?_)) fun _ => ?_
    · obtain ⟨arena, roots⟩ := queueHostRelease_quiet metadata m.heap
      exact ⟨h.1.of_arena roots.identity arena,
        (dereference_congr roots.identity arena reference).trans h.2⟩
    · refine Meets.bind (meets_modify _ fun m h => ?_) fun _ => meets_pure _ fun _ h => h
      refine written_adds h.1 h.2 ?_ (by rintro ⟨⟩) (by rintro _ ⟨⟩)
      rw [host]
      rfl

/-! The other operations add nothing. -/

theorem addRoot_only (value : Value) : Keeps (Only start) (addRoot value) := by
  refine keeps_read.andThen fun _ => (keeps_refuseIf _ _).andThen fun _ => ?_
  refine (keeps_query _).andThen fun _ => keeps_read.andThen fun _ => ?_
  refine (keeps_refuseIf _ _).andThen fun _ => Keeps.andThen ?_ fun _ => ?_
  · exact modifyHeap_only (fun _ => rfl) (fun _ => rfl)
  · refine (native_only _).andThen fun _ => Keeps.andThen ?_ fun _ => keeps_pure _
    exact modifyHeap_only (fun _ => rfl) (fun _ => rfl)

theorem updateRoot_only (id : Nat) (value : Value) : Keeps (Only start) (updateRoot id value) := by
  refine keeps_read.andThen fun _ => (keeps_refuseIf _ _).andThen fun _ => ?_
  refine (keeps_query _).andThen fun _ => keeps_read.andThen fun _ => ?_
  refine meets_ite (fun _ => Keeps.andThen ?_ fun _ => keeps_pure _) (fun _ => keeps_pure _)
  exact modifyHeap_only (fun _ => rfl) (fun _ => rfl)

theorem removeRoot_only (id : Nat) : Keeps (Only start) (removeRoot id) := by
  refine keeps_read.andThen fun _ => Keeps.andThen ?_ fun _ => keeps_pure _
  exact modifyHeap_only (fun _ => rfl) (fun _ => rfl)

theorem reserveHostExternal_only (externalBytes : Nat) :
    Keeps (Only start) (reserveHostExternal externalBytes) :=
  (preflight_only _ _ _).andThen fun _ => modifyHeap_only (fun _ => rfl) (fun _ => rfl)

theorem ensureHostReleaseCapacity_only (totalRecords : Nat) :
    Keeps (Only start) (ensureHostReleaseCapacity totalRecords) :=
  keeps_read.andThen fun _ => (keeps_refuseIf _ _).andThen fun _ =>
    (keeps_refuseIf _ _).andThen fun _ => native_only _

theorem releaseQueue_only {f : Heap → Heap} (unseen : ∀ h, Unseen h (f h)) :
    Keeps (Only start) (modifyHeap f) :=
  modifyHeap_only (fun h => (unseen h).1.identity) (fun h => (unseen h).2)

theorem releaseOperation_only {α : Type} {dispatcher : Bool} {refused : α}
    {operation : Heap → Heap × α} (unseen : ∀ h, Unseen h (operation h).1) :
    Keeps (Only start) (releaseOperation dispatcher refused operation) := by
  intro m only
  have same : Unseen m.heap
      (if dispatcher then operation m.heap else outsideBoundary refused operation m.heap).1 := by
    split
    · exact unseen m.heap
    · unfold outsideBoundary
      split
      · exact .refl _
      · exact unseen m.heap
  exact only.of_arena same.1.identity same.2

theorem drainReleaseQueue_only : Keeps (Only start) drainReleaseQueue := by
  refine keeps_read.andThen fun _ => (keeps_refuseIf _ _).andThen fun _ => ?_
  refine (releaseQueue_only endLease_compact_unseen).andThen fun _ => keeps_read.andThen fun _ => ?_
  refine Keeps.andThen ?_ fun _ => (keeps_query _).andThen fun _ => ?_
  · exact modifyHeap_only (fun _ => rfl) (fun _ => rfl)
  refine keeps_read.andThen fun _ => (keeps_refuseIf _ _).andThen fun _ => ?_
  refine Keeps.andThen ?_ fun _ => keeps_pure _
  exact modifyHeap_only (fun _ => rfl) (fun _ => rfl)

theorem detachHostReleases_only : Keeps (Only start) detachHostReleases := by
  refine keeps_read.andThen fun _ => (keeps_refuseIf _ _).andThen fun _ => ?_
  refine keeps_read.andThen fun _ => (keeps_refuseIf _ _).andThen fun _ => ?_
  refine (releaseQueue_only endLease_compact_unseen).andThen fun _ => keeps_read.andThen fun _ => ?_
  refine Keeps.andThen ?_ fun _ => keeps_pure _
  exact modifyHeap_only (fun _ => rfl) (fun _ => rfl)

theorem teardownForDispatcher_only : Keeps (Only start) teardownForDispatcher := by
  refine keeps_read.andThen fun m => (keeps_refuseIf _ _).andThen fun _ => ?_
  refine meets_ite (fun _ => keeps_pure _) (fun _ => ?_)
  refine Keeps.andThen (reserveSweepStorage_keeps _ _ fun _ _ h => h) fun _ => ?_
  refine keeps_modify fun m only reference cell deref => only reference cell ?_
  obtain ⟨own, found⟩ := dereference_ok.mp deref
  have roots := sweepSlots_roots (fun _ => false) false
    (List.range m.heap.arena.slots.length) m.heap
  refine dereference_ok.mpr ⟨own.trans roots.identity, ?_⟩
  simp only [get?_sweepSlots] at found
  split at found
  · cases found
  · exact found

theorem teardown_only : Keeps (Only start) teardown :=
  teardownForDispatcher_only.andThen fun _ => drainReleaseQueue_only

/-! Every call. -/

theorem returning_adds {α : Type} {wrap : α → HeapResult} {m : HeapProgram α}
    (h : Adds start m) : Adds start (returning wrap m) :=
  Meets.bind h fun _ => meets_pure _ fun _ h => h

theorem returning_only {α : Type} {wrap : α → HeapResult} {m : HeapProgram α}
    (h : Keeps (Only start) m) : Adds start (returning wrap m) :=
  returning_adds (adds_of_only h)

theorem runOp_adds (keyed : Keyed start) (op : HeapOp) : Adds start (runOp op) := by
  cases op with
  | addRoot value => exact returning_only (addRoot_only value)
  | updateRoot id value => exact returning_only (updateRoot_only id value)
  | removeRoot id => exact returning_only (removeRoot_only id)
  | addTemporaryRoot value => exact returning_only (addTemporaryRoot_only value)
  | popTemporaryRoots marker =>
    exact returning_only (modifyHeap_only (fun _ => rfl) (fun _ => rfl))
  | allocateString value =>
    exact returning_adds (requireUtf8_adds fun _ => allocate_adds false (unkeyed nofun))
  | allocateBytes value => exact returning_adds (allocate_adds false (unkeyed nofun))
  | allocateList values =>
    exact returning_adds (rooted_adds _ (allocate_adds false (unkeyed nofun)))
  | allocateMap entries => exact returning_adds (allocateMap_adds entries)
  | allocateFunction metadata =>
    exact returning_adds (rooted_adds _ (allocate_adds false (unkeyed nofun)))
  | allocateModule metadata => exact returning_adds (allocateModule_adds metadata)
  | allocateError metadata => exact returning_adds (allocateError_adds metadata)
  | deriveError primary additions => exact returning_adds (deriveError_adds primary additions)
  | allocateTask metadata =>
    exact returning_adds (rooted_adds _ (allocate_adds false (unkeyed nofun)))
  | allocateHostHandle metadata => exact returning_adds (allocate_adds false (unkeyed nofun))
  | reserveHostExternal externalBytes =>
    exact returning_only (reserveHostExternal_only externalBytes)
  | dropReservation index =>
    exact returning_only (modifyHeap_only (fun _ => rfl) (fun _ => rfl))
  | allocateReservedHostHandle metadata reservation =>
    exact returning_adds (allocateReservedHostHandle_adds metadata reservation)
  | ensureHostReleaseCapacity totalRecords =>
    exact returning_only (ensureHostReleaseCapacity_only totalRecords)
  | listAppend reference value => exact returning_adds (listAppend_adds reference value)
  | listSet reference index value => exact returning_adds (listSet_adds reference index value)
  | mapSet reference key value => exact returning_adds (mapSet_adds keyed reference key value)
  | closeHostHandle reference => exact returning_adds (closeHostHandle_adds reference)
  | collect => exact returning_only collect_only
  | leaseHostRelease dispatcher =>
    exact returning_only (releaseOperation_only leaseHostRelease_unseen)
  | acknowledgeHostRelease dispatcher leaseId =>
    exact returning_only (releaseOperation_only (acknowledgeHostRelease_unseen leaseId))
  | retryHostRelease dispatcher leaseId =>
    exact returning_only (releaseOperation_only (retryHostRelease_unseen leaseId))
  | deferHostRelease dispatcher leaseId =>
    exact returning_only (releaseOperation_only (deferHostRelease_unseen leaseId))
  | drainReleaseQueue => exact returning_only drainReleaseQueue_only
  | teardownForDispatcher => exact returning_only teardownForDispatcher_only
  | teardown => exact returning_only teardown_only
  | detachHostReleases => exact returning_only detachHostReleases_only
  | enterEvaluatorBoundary | leaveEvaluatorBoundary =>
    exact returning_only (modifyHeap_only (fun _ => rfl) (fun _ => rfl))

theorem step_added {h t : Heap} {call : HeapCall} (step : heapSystem.step h call t)
    (sound : Sound h) (keyed : Keyed h) : Added h t := by
  obtain ⟨_, performed⟩ := step
  have nothing : Thinned h ⟨h, call.faults, []⟩ := ⟨.start sound call.faults, fun _ _ h => h⟩
  have adds := runOp_adds keyed call.op ⟨h, call.faults, []⟩ nothing
  unfold performOp at performed
  cases outcome : runOp call.op ⟨h, call.faults, []⟩ with
  | mk result m =>
    rw [outcome] at adds performed
    simp only [Prod.mk.injEq] at performed
    obtain ⟨-, rfl⟩ := performed
    cases result with
    | ok _ => exact adds
    | error _ => exact adds

theorem Added.keyed {h t : Heap} (keyed : Keyed h) (added : Added h t) : Keyed t := by
  intro reference cell entries deref same
  obtain old | made := added reference cell deref
  · exact keyed reference cell entries old same
  · exact made.keyed entries same

theorem sound_of_run {es : HeapHistory} {h : Heap} (run : Run heapSystem es h) : Sound h :=
  (timeline_of_run run).1 h (List.mem_append_right _ List.mem_cons_self)

/-- No map of a reachable heap has a key twice. -/
theorem keyed_of_run {es : HeapHistory} {h : Heap} (run : Run heapSystem es h) : Keyed h := by
  refine run.history (fun _ h => Keyed h) ?_ ?_
  · rintro h ⟨platform, canonicalModuleKind, limits, heapIdentity, rfl⟩ reference cell entries deref
    have found := (dereference_ok.mp deref).2
    simp [freshHeap] at found
  · intro es h call t past keyed step
    exact (step_added step (sound_of_run past) keyed).keyed keyed

end Baas.Script
