import Baas.Script.HeapCollect
import Baas.Script.HeapError

/-! Every public operation keeps the heap sound and its collections exact, whether it
returns or throws. -/
namespace Baas.Script

open Program

variable {origin : Heap}

/-- A program that keeps every anchor keeps the trace. -/
theorem keeps_trace {α : Type} {m : HeapProgram α}
    (h : ∀ anchor, Keeps (Going origin anchor) m) : Keeps (Trace origin) m := by
  intro s trace
  have result := h s.heap s (.start trace)
  split at result
  · exact result.1
  · exact result.1

theorem native_trace (failure : HeapError) : Keeps (Trace origin) (native failure) :=
  keeps_trace (fun _ => native_going failure)

/-- A change that dereferencing and the roots do not see. -/
theorem quiet_trace {f : Heap → Heap} (roots : ∀ h, SameRoots h (f h))
    (arena : ∀ h, (f h).arena = h.arena) : Keeps (Trace origin) (modifyHeap f) :=
  keeps_trace (fun _ => modifyHeap_going roots arena)

/-! Roots. -/

theorem validateEdge_valid {value : Value} {h : Heap} (ok : validateEdge value h = .ok ()) :
    Valid h value := by
  rintro reference rfl
  obtain ⟨cell, deref, _⟩ := bind_ok ok
  exact ⟨cell, deref⟩

/-- Other roots, all of them valid. -/
theorem Trace.reroot {m t : Machine} (trace : Trace origin m)
    (collections : t.collections = m.collections) (owner : t.heap.heapIdentity = m.heap.heapIdentity)
    (arena : t.heap.arena = m.heap.arena)
    (valid : ∀ value ∈ rootValues t.heap, Valid m.heap value) : Trace origin t := by
  have same := dereference_congr owner arena
  have live : ∀ r, Live m.heap r → Live t.heap r := fun r ⟨cell, deref⟩ =>
    ⟨cell, (same r).trans deref⟩
  refine trace.advance collections ⟨?_, ?_⟩ (.of_arena owner arena)
  · intro r cell deref value member
    exact (trace.here.edges r cell ((same r).symm.trans deref) value member).mono live
  · exact fun value member => (valid value member).mono live

theorem mem_insert_values {m : OrderedMap Nat Value} {id : Nat} {value v : Value}
    (member : v ∈ (m.insert id value).toList.map Prod.snd) :
    v = value ∨ v ∈ m.toList.map Prod.snd := by
  obtain ⟨⟨k, v'⟩, listed, rfl⟩ := List.mem_map.mp member
  have found := OrderedMap.mem_toList_iff.mp listed
  rw [OrderedMap.find?_insert] at found
  split at found
  · exact .inl (Option.some.inj found).symm
  · exact .inr (List.mem_map.mpr ⟨(k, v'), OrderedMap.mem_toList_iff.mpr found, rfl⟩)

theorem mem_erase_values {m : OrderedMap Nat Value} {id : Nat} {v : Value}
    (member : v ∈ (m.erase id).toList.map Prod.snd) : v ∈ m.toList.map Prod.snd := by
  obtain ⟨⟨k, v'⟩, listed, rfl⟩ := List.mem_map.mp member
  have found := OrderedMap.mem_toList_iff.mp listed
  rw [OrderedMap.find?_erase] at found
  split at found
  · cases found
  · exact List.mem_map.mpr ⟨(k, v'), OrderedMap.mem_toList_iff.mpr found, rfl⟩

theorem Trace.setRoot {m : Machine} (trace : Trace origin m) (id : Nat) {value : Value}
    (valid : Valid m.heap value) :
    Trace origin { m with heap :=
      { m.heap with explicitRoots := m.heap.explicitRoots.insert id value } } := by
  refine trace.reroot rfl rfl rfl (fun v member => ?_)
  rcases List.mem_append.mp member with explicit | temporary
  · rcases mem_insert_values explicit with rfl | old
    · exact valid
    · exact trace.here.roots v (List.mem_append_left _ old)
  · exact trace.here.roots v (List.mem_append_right _ temporary)

/-- The trace, and a value known to be valid. -/
def Checked (origin : Heap) (value : Value) (m : Machine) : Prop :=
  Trace origin m ∧ Valid m.heap value

theorem validate_checked (value : Value) :
    Meets (Trace origin) (inspect (validateEdge value)) (fun _ => Checked origin value)
      (Trace origin) :=
  meets_query (fun _ _ trace ok => ⟨trace, validateEdge_valid ok⟩) (fun _ trace => trace)

theorem native_checked (failure : HeapError) (value : Value) :
    Keeps (Checked origin value) (native failure) :=
  native_keeps failure (fun _ faults checked =>
    ⟨(Going.start checked.1).faults faults |>.1, checked.2⟩)

theorem addRoot_trace (value : Value) : Keeps (Trace origin) (addRoot value) := by
  unfold addRoot
  refine keeps_read.andThen (fun _ => (keeps_refuseIf _ _).andThen (fun _ => ?_))
  refine (validate_checked value).bind (fun _ => ?_)
  refine Meets.weaken (Keeps.andThen keeps_read (fun m => ?_)) (fun _ h => h)
    (fun _ _ h => h.1) (fun _ (h : Checked origin value _) => h.1)
  refine (keeps_refuseIf _ _).andThen (fun _ => ?_)
  refine Keeps.andThen (keeps_modify (fun m checked => ⟨?_, checked.2⟩)) (fun _ => ?_)
  · exact checked.1.reroot rfl rfl rfl checked.1.here.roots
  refine (native_checked _ value).andThen (fun _ => ?_)
  refine Keeps.andThen (keeps_modify (fun m checked => ⟨checked.1.setRoot _ checked.2, ?_⟩))
    (fun _ => keeps_pure _)
  exact checked.2.mono (fun r live => live)

theorem updateRoot_trace (id : Nat) (value : Value) :
    Keeps (Trace origin) (updateRoot id value) := by
  unfold updateRoot
  refine keeps_read.andThen (fun _ => (keeps_refuseIf _ _).andThen (fun _ => ?_))
  refine (validate_checked value).bind (fun _ => ?_)
  refine Meets.bind keeps_read (fun m => ?_) |>.weaken (fun _ h => h) (fun _ _ h => h)
    (fun _ (h : Checked origin value _) => h.1)
  refine meets_ite (fun _ => ?_) (fun _ => meets_pure _ (fun _ h => h.1))
  refine Meets.bind (meets_modify _ (fun m checked => ?_)) (fun _ => meets_pure _ (fun _ h => h))
  exact checked.1.setRoot _ checked.2

theorem removeRoot_trace (id : Nat) : Keeps (Trace origin) (removeRoot id) := by
  unfold removeRoot
  refine keeps_read.andThen (fun _ => Keeps.andThen (keeps_modify (fun m trace => ?_))
    (fun _ => keeps_pure _))
  refine trace.reroot rfl rfl rfl (fun v member => trace.here.roots v ?_)
  rcases List.mem_append.mp member with explicit | temporary
  · exact List.mem_append_left _ (mem_erase_values explicit)
  · exact List.mem_append_right _ temporary

theorem popTemporaryRoots_trace {m : Machine} (trace : Trace origin m) (marker : Nat) :
    Trace origin { m with heap := popTemporaryRoots marker m.heap } := by
  refine trace.reroot rfl rfl rfl (fun v member => trace.here.roots v ?_)
  rcases List.mem_append.mp member with explicit | temporary
  · exact List.mem_append_left _ explicit
  · exact List.mem_append_right _ (List.mem_of_mem_take temporary)

/-- The trace, with some values among the temporary roots. -/
def Holding (origin : Heap) (values : List Value) (m : Machine) : Prop :=
  Trace origin m ∧ ∀ value ∈ values, value ∈ m.heap.temporaryRoots

theorem addTemporaryRoot_holding (values : List Value) (value : Value) :
    Meets (Holding origin values) (addTemporaryRoot value)
      (fun _ => Holding origin (value :: values)) (Trace origin) := by
  unfold addTemporaryRoot
  refine Meets.bind (keeps_read.weaken (fun _ h => h) (fun _ _ h => h) (fun _ h => h.1))
    (fun _ => ?_)
  refine Meets.bind ((keeps_refuseIf _ _).weaken (fun _ h => h) (fun _ _ h => h) (fun _ h => h.1))
    (fun _ => ?_)
  refine Meets.bind (meets_query
    (fun (m : Machine) _ holding (ok : validateEdge value m.heap = .ok ()) =>
      (⟨holding, validateEdge_valid ok⟩ : Holding origin values m ∧ Valid m.heap value))
    (fun _ h => h.1)) (fun _ => ?_)
  refine Meets.bind ((native_keeps _ ?_).weaken (fun _ h => h) (fun _ _ h => h)
    (fun _ h => h.1.1)) (fun _ => ?_)
  · exact fun m faults h =>
      ⟨⟨(Going.start h.1.1).faults faults |>.1, h.1.2⟩, h.2⟩
  refine meets_modify _ (fun m holding => ⟨?_, ?_⟩)
  · refine holding.1.1.reroot rfl rfl rfl (fun v member => ?_)
    rcases List.mem_append.mp member with explicit | temporary
    · exact holding.1.1.here.roots v (List.mem_append_left _ explicit)
    · rcases List.mem_append.mp temporary with old | new
      · exact holding.1.1.here.roots v (List.mem_append_right _ old)
      · rw [List.mem_singleton.mp new]
        exact holding.2
  · intro v member
    rcases List.mem_cons.mp member with rfl | old
    · exact List.mem_append_right _ (List.mem_singleton_self _)
    · exact List.mem_append_left _ (holding.1.2 v old)

theorem addTemporaryRoot_trace (value : Value) :
    Keeps (Trace origin) (addTemporaryRoot value) :=
  (addTemporaryRoot_holding [] value).weaken (fun _ trace => ⟨trace, by simp⟩)
    (fun _ _ h => h.1) (fun _ h => h)

theorem addTemporaryRoots_holding (values held : List Value) :
    Meets (Holding origin held) (values.forM addTemporaryRoot)
      (fun _ => Holding origin (values ++ held)) (Trace origin) := by
  induction values generalizing held with
  | nil => exact meets_pure () (fun _ h => h)
  | cons value values ih =>
    refine (addTemporaryRoot_holding held value).bind (fun _ => ?_)
    refine (ih (value :: held)).weaken (fun _ h => h) (fun _ m h => ⟨h.1, ?_⟩) (fun _ h => h)
    intro v member
    refine h.2 v ?_
    simp only [List.cons_append, List.mem_cons, List.mem_append] at member ⊢
    tauto

theorem inRootScope_trace {α : Type} {body : HeapProgram α} (h : Keeps (Trace origin) body) :
    Keeps (Trace origin) (inRootScope body) := by
  unfold inRootScope
  refine keeps_read.andThen (fun m => h.ensuring ?_ ?_)
  · exact fun _ t trace => popTemporaryRoots_trace trace _
  · exact fun t trace => popTemporaryRoots_trace trace _

/-- A body that runs with its values rooted may rely on everything they reach. -/
theorem rooted_trace {α : Type} {values : List Value} {body : HeapProgram α}
    (h : ∀ anchor, Sound anchor → (∀ value ∈ values, value ∈ anchor.temporaryRoots) →
      Meets (Going origin anchor) body (fun _ => Trace origin) (Trace origin)) :
    Keeps (Trace origin) (rooted values body) := by
  refine inRootScope_trace ?_
  refine Meets.bind ((addTemporaryRoots_holding values []).weaken
    (fun _ trace => ⟨trace, by simp⟩) (fun _ _ h => h) (fun _ h => h)) (fun _ m holding => ?_)
  exact h m.heap holding.1.here (fun v hv => holding.2 v (List.mem_append_left _ hv)) m
    (.start holding.1)

theorem rooted_allocate {values : List Value} (data : CellData) (externalReserved : Bool)
    (children : ∀ value ∈ visitChildren data, value ∈ values) :
    Keeps (Trace origin) (rooted values (allocate data externalReserved)) :=
  rooted_trace (fun _ _ held =>
    (allocate_going externalReserved (fun v hv => held v (children v hv))).weaken
      (fun _ h => h) (fun _ _ h => h.1) (fun _ h => h.1))

/-- Allocation of a cell without children. -/
theorem allocate_leaf {data : CellData} (externalReserved : Bool)
    (leaf : visitChildren data = []) : Keeps (Trace origin) (allocate data externalReserved) :=
  keeps_trace (fun _ => allocate_going externalReserved (by simp [leaf]))

theorem requireUtf8_keeps {inv : Machine → Prop} (bytes : Bytes) (message : String) :
    Keeps inv (requireUtf8 bytes message) :=
  meets_ite (fun _ => keeps_pure _) (fun _ => keeps_raise _)

theorem allocateString_trace (value : Text) : Keeps (Trace origin) (allocateString value) :=
  (requireUtf8_keeps _ _).andThen (fun _ => allocate_leaf false rfl)

theorem allocateBytes_trace (value : Buffer UInt8) :
    Keeps (Trace origin) (allocateBytes value) := allocate_leaf false rfl

theorem allocateList_trace (values : Buffer Value) :
    Keeps (Trace origin) (allocateList values) :=
  rooted_allocate _ false (fun _ h => h)

theorem allocateMap_trace (entries : List (Text × Value)) :
    Keeps (Trace origin) (allocateMap entries) :=
  (native_trace _).andThen (fun _ => (keeps_query _).andThen (fun _ =>
    keeps_read.andThen (fun _ => rooted_allocate _ false (fun _ h => h))))

theorem allocateFunction_trace (metadata : FunctionMetadata) :
    Keeps (Trace origin) (allocateFunction metadata) :=
  rooted_allocate _ false (fun _ h => h)

theorem allocateTask_trace (metadata : TaskMetadata) :
    Keeps (Trace origin) (allocateTask metadata) :=
  rooted_allocate _ false (fun _ h => h)

theorem allocateHostHandle_trace (metadata : HostHandleMetadata) :
    Keeps (Trace origin) (allocateHostHandle metadata) := allocate_leaf false rfl

theorem convertingBadAlloc_trace {α : Type} (message : String) {body : HeapProgram α}
    (h : Keeps (Trace origin) body) : Keeps (Trace origin) (convertingBadAlloc message body) :=
  h.rescue (fun _ => keeps_raise _)

theorem allocateError_trace (metadata : ErrorMetadata) :
    Keeps (Trace origin) (allocateError metadata) :=
  convertingBadAlloc_trace _ ((native_trace _).andThen (fun _ => (keeps_query _).andThen
    (fun _ => rooted_allocate _ false (fun _ h => h))))

theorem deriveError_trace (primary : HeapRef) (additions : ErrorDerivation) :
    Keeps (Trace origin) (deriveError primary additions) :=
  convertingBadAlloc_trace _ ((native_trace _).andThen (fun _ => (keeps_query _).andThen
    (fun _ => allocateError_trace _)))

/-- The exports are rooted one by one, each after its name was checked. -/
theorem addExports_holding (exports : List (Text × Value)) (message : String)
    (held : List Value) :
    Meets (Holding origin held)
      (exports.forM (fun entry => do requireUtf8 entry.1.items message; addTemporaryRoot entry.2))
      (fun _ => Holding origin (exports.map Prod.snd ++ held)) (Trace origin) := by
  induction exports generalizing held with
  | nil => exact meets_pure () (fun _ h => h)
  | cons entry exports ih =>
    refine Meets.bind (Meets.bind ((requireUtf8_keeps _ _).weaken (fun _ h => h)
      (fun _ _ h => h) (fun _ h => h.1)) (fun _ => addTemporaryRoot_holding held entry.2))
      (fun _ => ?_)
    refine (ih (entry.2 :: held)).weaken (fun _ h => h) (fun _ m h => ⟨h.1, ?_⟩) (fun _ h => h)
    intro v member
    refine h.2 v ?_
    simp only [List.map_cons, List.cons_append, List.mem_cons, List.mem_append] at member ⊢
    tauto

theorem allocateModule_trace (metadata : ModuleMetadata) :
    Keeps (Trace origin) (allocateModule metadata) := by
  refine (requireUtf8_keeps _ _).andThen (fun _ => inRootScope_trace ?_)
  refine Meets.bind ((addExports_holding metadata.exports.items _ []).weaken
    (fun _ trace => ⟨trace, by simp⟩) (fun _ _ h => h) (fun _ h => h)) (fun _ m holding => ?_)
  have held : ∀ v ∈ visitChildren (.moduleCell metadata), v ∈ m.heap.temporaryRoots :=
    fun v hv => holding.2 v (List.mem_append_left _ hv)
  exact ((allocate_going false held).weaken (fun _ h => h) (fun _ _ h => h.1)
    (fun _ h => h.1)) m (.start holding.1)

/-! External memory. -/

theorem reserveHostExternal_trace (externalBytes : Nat) :
    Keeps (Trace origin) (reserveHostExternal externalBytes) :=
  (keeps_trace (fun _ => preflight_going _ _ _)).andThen
    (fun _ => quiet_trace (fun _ => ⟨rfl, rfl, rfl⟩) (fun _ => rfl))

theorem dropReservation_trace (index : Nat) : Keeps (Trace origin) (dropReservation index) :=
  quiet_trace (fun _ => ⟨rfl, rfl, rfl⟩) (fun _ => rfl)

theorem allocateReservedHostHandle_trace (metadata : HostHandleMetadata)
    (reservation : Option Nat) :
    Keeps (Trace origin) (allocateReservedHostHandle metadata reservation) := by
  refine keeps_read.andThen (fun _ => (keeps_refuseIf _ _).andThen (fun _ => ?_))
  refine (allocate_leaf true rfl).andThen (fun _ => ?_)
  refine Keeps.andThen (quiet_trace ?_ ?_) (fun _ => keeps_pure _)
  · exact fun _ => ⟨rfl, rfl, rfl⟩
  · exact fun _ => rfl

theorem ensureHostReleaseCapacity_trace (totalRecords : Nat) :
    Keeps (Trace origin) (ensureHostReleaseCapacity totalRecords) :=
  keeps_read.andThen (fun _ => (keeps_refuseIf _ _).andThen (fun _ =>
    (keeps_refuseIf _ _).andThen (fun _ => native_trace _)))

end Baas.Script
