import Mathlib.Logic.Relation
import Baas.Script.ErrorBounds
import Baas.Script.HeapChange

/-! Structured errors over whole runs: no error is below itself, and making one leaves the
others as they were. -/
namespace Baas.Script

open Program Transition

variable {origin : Heap}

/-- One error has another as its cause or suppressed. -/
def ErrorEdge (h : Heap) (above below : HeapRef) : Prop :=
  ∃ cell metadata, dereference above h = .ok cell ∧ cell.data = .errorCell metadata ∧
    (metadata.cause = some (.ref below) ∨ .ref below ∈ metadata.suppressed.items)

def AcyclicErrors (h : Heap) : Prop := ∀ r, ¬ Relation.TransGen (ErrorEdge h) r r

theorem errorEdge_child {metadata : ErrorMetadata} {below : HeapRef}
    (edge : metadata.cause = some (.ref below) ∨ .ref below ∈ metadata.suppressed.items) :
    .ref below ∈ visitChildren (.errorCell metadata) := by
  simp only [visitChildren, List.mem_append]
  obtain cause | suppressed := edge
  · simp [cause]
  · simp [suppressed]

/-- Whatever is linked to was live before the call. -/
theorem ErrorEdge.below_live {h t : Heap} (sound : Sound h) (added : Added h t)
    {above below : HeapRef} (edge : ErrorEdge t above below) : Live h below := by
  obtain ⟨cell, metadata, deref, same, link⟩ := edge
  have child := errorEdge_child link
  obtain old | made := added above cell deref
  · exact sound.edges above cell old _ (same ▸ child) below rfl
  · obtain ⟨-, children⟩ | ⟨other, -⟩ := made.source
    · exact children _ (same ▸ child) below rfl
    · rw [same] at other
      exact absurd rfl other

/-- An error that was live before the call links to what it did then. -/
theorem ErrorEdge.before {h t : Heap} (added : Added h t) {above below : HeapRef}
    (edge : ErrorEdge t above below) (live : Live h above) : ErrorEdge h above below := by
  obtain ⟨cell, metadata, deref, same, link⟩ := edge
  obtain old | made := added above cell deref
  · exact ⟨cell, metadata, old, same, link⟩
  · obtain ⟨fresh, -⟩ | ⟨other, -⟩ := made.source
    · exact absurd live fresh
    · rw [same] at other
      exact absurd rfl other

theorem Added.acyclic {h t : Heap} (sound : Sound h) (added : Added h t)
    (acyclic : AcyclicErrors h) : AcyclicErrors t := by
  intro r cycle
  have live : Live h r := by
    obtain ⟨above, -, last⟩ := Relation.TransGen.tail'_iff.mp cycle
    exact last.below_live sound added
  have before : ∀ below, Relation.TransGen (ErrorEdge t) r below →
      Relation.TransGen (ErrorEdge h) r below ∧ Live h below := by
    intro below path
    induction path with
    | single edge => exact ⟨.single (edge.before added live), edge.below_live sound added⟩
    | tail _ edge ih => exact ⟨ih.1.tail (edge.before added ih.2), edge.below_live sound added⟩
  exact acyclic r (before r cycle).1

theorem acyclic_of_run {es : HeapHistory} {h : Heap} (run : Run heapSystem es h) :
    AcyclicErrors h := by
  refine run.history (fun _ h => AcyclicErrors h) ?_ ?_
  · rintro h ⟨platform, canonicalModuleKind, limits, heapIdentity, rfl⟩ r cycle
    obtain ⟨above, -, cell, metadata, deref, -⟩ := Relation.TransGen.tail'_iff.mp cycle
    have found := (dereference_ok.mp deref).2
    simp [freshHeap] at found
  · intro es h call t past acyclic step
    have sound := sound_of_run past
    exact (step_added step sound (keyed_of_run past)).acyclic sound acyclic

/-- No call changes an error. -/
theorem Added.error_same {h t : Heap} (added : Added h t) {reference : HeapRef} {cell : Cell}
    {metadata : ErrorMetadata} (deref : dereference reference h = .ok cell)
    (same : cell.data = .errorCell metadata) (live : Live t reference) :
    dereference reference t = .ok cell := by
  obtain ⟨found, deref'⟩ := live
  obtain old | made := added reference found deref'
  · rw [deref] at old
    rw [Except.ok.inj old, deref']
  · obtain ⟨fresh, -⟩ | ⟨other, old, before, kind⟩ := made.source
    · exact absurd ⟨cell, deref⟩ fresh
    · rw [deref] at before
      rw [← kind, ← Except.ok.inj before, same] at other
      exact absurd rfl other

/-! What a call that makes an error returns. -/

/-- The value names an error with these contents. -/
def Names (value : Value) (stored : ErrorMetadata) (h : Heap) : Prop :=
  ∃ reference cell, value = .ref reference ∧ dereference reference h = .ok cell ∧
    cell.data = .errorCell stored

theorem meets_anyhow {α : Type} (m : HeapProgram α) :
    Meets (fun _ => True) m (fun _ _ => True) (fun _ => True) := by
  intro s _
  split
  · trivial
  · trivial

theorem allocate_names (stored : ErrorMetadata) (externalReserved : Bool) :
    Meets (fun _ => True) (allocate (.errorCell stored) externalReserved)
      (fun value m => Names value stored m.heap) (fun _ => True) := by
  refine (meets_anyhow _).bind fun _ => (meets_anyhow _).bind fun charge => ?_
  refine (meets_anyhow _).bind fun _ => (meets_anyhow _).bind fun m => ?_
  refine (meets_anyhow _).bind fun _ => (meets_anyhow _).bind fun _ => ?_
  refine (meets_anyhow _).bind fun _ => (meets_anyhow _).bind fun _ m _ => ?_
  refine ⟨_, ⟨.errorCell stored, charge.bytes, charge.strings, charge.external⟩, rfl,
    dereference_ok.mpr ⟨rfl, ?_⟩, rfl⟩
  rw [Arena.get?_place]
  exact if_pos rfl

theorem Names.popped {value : Value} {stored : ErrorMetadata} {h : Heap}
    (names : Names value stored h) (marker : Nat) :
    Names value stored (popTemporaryRoots marker h) := by
  obtain ⟨reference, cell, rfl, deref, same⟩ := names
  exact ⟨reference, cell, rfl, deref, same⟩

theorem rooted_names (values : List Value) (stored : ErrorMetadata) :
    Meets (fun _ => True) (rooted values (allocate (.errorCell stored) false))
      (fun value m => Names value stored m.heap) (fun _ => True) := by
  refine (meets_anyhow _).bind fun m => ?_
  refine Meets.ensuring ((meets_anyhow _).bind fun _ => allocate_names stored false) ?_ ?_
  · exact fun _ _ names => names.popped _
  · exact fun _ _ => trivial

/-- From a known heap, the value names what was prepared there. -/
theorem allocateError_names (h : Heap) (given : ErrorMetadata) :
    Meets (fun m => m.heap = h) (allocateError given) (fun value m => ∃ stored,
      prepareError given h = .ok stored ∧ Names value stored m.heap) (fun _ => True) := by
  have fresh : Keeps (fun m => m.heap = h) (native .badAlloc) :=
    native_keeps _ fun _ _ same => same
  refine Meets.catching (Meets.bind (fresh.weaken (fun _ h => h) (fun _ _ h => h)
    (fun _ _ => trivial)) (fun _ => ?_)) (fun _ => meets_raise _ fun _ h => h)
  refine Meets.bind (meets_query (fun m stored same ok =>
    (same ▸ ok : prepareError given h = .ok stored)) (fun _ _ => trivial)) (fun stored => ?_)
  refine meets_of_fact (fun _ ok => ok) (fun ok => ?_)
  exact (rooted_names _ stored).weaken (fun _ _ => trivial)
    (fun _ _ names => ⟨stored, ok, names⟩) (fun _ h => h)

/-- What a call gives to `allocateError`. -/
inductive GivenError (h : Heap) : HeapOp → ErrorMetadata → Prop
  | allocated (metadata : ErrorMetadata) : GivenError h (.allocateError metadata) metadata
  | derived {reference : HeapRef} {additions : ErrorDerivation} {primary given : ErrorMetadata} :
      expected CellData.error? reference h = .ok primary →
      DerivedError h.platform primary additions given →
      GivenError h (.deriveError reference additions) given

theorem deriveError_names (h : Heap) (reference : HeapRef) (additions : ErrorDerivation) :
    Meets (fun m => m.heap = h) (deriveError reference additions) (fun value m => ∃ given stored,
      deriveMetadata reference additions h = .ok given ∧ prepareError given h = .ok stored ∧
        Names value stored m.heap) (fun _ => True) := by
  have fresh : Keeps (fun m => m.heap = h) (native .badAlloc) :=
    native_keeps _ fun _ _ same => same
  refine Meets.catching (Meets.bind (fresh.weaken (fun _ h => h) (fun _ _ h => h)
    (fun _ _ => trivial)) (fun _ => ?_)) (fun _ => meets_raise _ fun _ h => h)
  refine Meets.bind (meets_query (fun m given same ok =>
    (⟨same, same ▸ ok⟩ : m.heap = h ∧ deriveMetadata reference additions h = .ok given))
    (fun _ _ => trivial)) (fun given => ?_)
  refine meets_of_fact (fun _ both => both.2) (fun ok => Meets.forget ?_)
  refine (allocateError_names h given).weaken (fun _ h => h) ?_ (fun _ h => h)
  rintro value m ⟨stored, prepared, names⟩
  exact ⟨given, stored, ok, prepared, names⟩

/-! What the call leaves of the heap. -/

/-- Popping the added roots after a body that kept everything. -/
theorem Under.kept {start anchor h : Heap} (under : Under start anchor) (kept : Kept anchor h) :
    Kept start (popTemporaryRoots start.temporaryRoots.length h) := by
  obtain ⟨added, grown⟩ := under.temporary
  refine ⟨⟨kept.roots.identity.trans under.identity, kept.roots.explicit.trans under.explicit,
    ?_⟩, fun r cell reached deref => ?_⟩
  · have roots : h.temporaryRoots = start.temporaryRoots ++ added :=
      kept.roots.temporary.trans grown.symm
    exact (congrArg (List.take start.temporaryRoots.length) roots).trans List.take_left
  · exact kept.cells r cell (under.reaches reached) (under.cells r cell reached deref)

theorem rooted_kept {α : Type} {start : Heap} {values : List Value} {body : HeapProgram α}
    (h : ∀ anchor, Sound anchor → (∀ value ∈ values, value ∈ anchor.temporaryRoots) →
      Keeps (Going origin anchor) body) :
    Meets (Steady origin start) (rooted values body) (fun _ t => Kept start t.heap)
      (fun t => Kept start t.heap) := by
  refine meets_reading fun m steady => ?_
  have marker : m.heap.temporaryRoots = start.temporaryRoots := steady.2.roots.temporary
  rw [marker]
  have inside : Meets (fun t => t = m) (do values.forM addTemporaryRoot; body)
      (fun _ t => ∃ anchor, Under start anchor ∧ Kept anchor t.heap)
      (fun t => ∃ anchor, Under start anchor ∧ Kept anchor t.heap) := by
    have roots : Keeps (fun m => Under start m.heap) (values.forM addTemporaryRoot) :=
      keeps_forM _ _ fun value _ => addTemporaryRoot_under start value
    have added := (@addTemporaryRoots_holding origin values []).both roots
    refine Meets.bind (added.weaken ?_ (fun _ _ h => h) ?_) (fun _ t holding => ?_)
    · rintro t rfl
      exact ⟨⟨steady.1, by simp⟩, steady.2.under⟩
    · exact fun t refused => ⟨t.heap, refused.2, .refl _⟩
    · have held : ∀ value ∈ values, value ∈ t.heap.temporaryRoots :=
        fun value inside => holding.1.2 value (List.mem_append_left _ inside)
      exact ((h t.heap holding.1.1.here held).weaken (fun _ h => h)
        (fun _ u going => ⟨t.heap, holding.2, going.2⟩)
        (fun u going => ⟨t.heap, holding.2, going.2⟩)) t (.start holding.1.1)
  refine inside.ensuring ?_ ?_
  · exact fun _ t ⟨anchor, under, kept⟩ => under.kept kept
  · exact fun t ⟨anchor, under, kept⟩ => under.kept kept

theorem allocateError_kept {start : Heap} (given : ErrorMetadata) :
    Meets (Steady origin start) (allocateError given) (fun _ t => Kept start t.heap)
      (fun t => Kept start t.heap) := by
  refine Meets.catching ?_ (fun _ => meets_raise _ fun _ kept => kept)
  have fine {α : Type} {m : HeapProgram α} (h : Keeps (Steady origin start) m) :
      Meets (Steady origin start) m (fun _ => Steady origin start)
        (fun t => Kept start t.heap) :=
    h.weaken (fun _ h => h) (fun _ _ h => h) (fun _ steady => steady.2.toKept)
  refine (fine (native_steady _)).bind fun _ => (fine (keeps_query _)).bind fun stored => ?_
  exact rooted_kept fun anchor _ held => allocate_going false held

theorem deriveError_kept {start : Heap} (reference : HeapRef) (additions : ErrorDerivation) :
    Meets (Steady origin start) (deriveError reference additions) (fun _ t => Kept start t.heap)
      (fun t => Kept start t.heap) := by
  refine Meets.catching ?_ (fun _ => meets_raise _ fun _ kept => kept)
  have fine {α : Type} {m : HeapProgram α} (h : Keeps (Steady origin start) m) :
      Meets (Steady origin start) m (fun _ => Steady origin start)
        (fun t => Kept start t.heap) :=
    h.weaken (fun _ h => h) (fun _ _ h => h) (fun _ steady => steady.2.toKept)
  refine (fine (native_steady _)).bind fun _ => (fine (keeps_query _)).bind fun given => ?_
  exact allocateError_kept given

def HeapOp.makesError : HeapOp → Bool
  | .allocateError _ | .deriveError _ _ => true
  | _ => false

/-- What a call that makes an error returns, and what becomes of the rest of the heap. -/
structure ErrorMade (h : Heap) (call : HeapCall) (t : Heap) : Prop where
  stored : ∀ result, call.outcome = .ok result → ∃ given stored value,
    GivenError h call.op given ∧ BoundedError h.limits given stored ∧
      result = .value value ∧ Names value stored t
  refused : ∀ e, call.outcome = .error e → ∀ reference cell,
    dereference reference t = .ok cell → dereference reference h = .ok cell
  kept : Kept h t
  unchanged : ∀ reference cell metadata, dereference reference h = .ok cell →
    cell.data = .errorCell metadata → Live t reference → dereference reference t = .ok cell
  acyclic : AcyclicErrors t

theorem errorMade_of_program {es : HeapHistory} {h t : Heap} {call : HeapCall}
    (run : Run heapSystem es h) (step : heapSystem.step h call t) {m : HeapProgram Value}
    (calls : runOp call.op = returning .value m)
    (names : Meets (fun m => m.heap = h) m (fun value m => ∃ given stored,
      GivenError h call.op given ∧ BoundedError h.limits given stored ∧
        Names value stored m.heap) (fun _ => True))
    (kept : Meets (Steady h h) m (fun _ t => Kept h t.heap) (fun t => Kept h t.heap))
    (spares : Spares h m) : ErrorMade h call t := by
  have sound := sound_of_run run
  have keyed := keyed_of_run run
  have added := step_added step sound keyed
  have start : Steady h h ⟨h, call.faults, []⟩ := ⟨.start sound call.faults, .refl h⟩
  have named := names ⟨h, call.faults, []⟩ rfl
  have left := kept ⟨h, call.faults, []⟩ start
  have spared := spares h ⟨h, call.faults, []⟩ start
  have performed := step.2
  unfold performOp at performed
  rw [calls] at performed
  cases outcome : m ⟨h, call.faults, []⟩ with
  | mk result s =>
    rw [outcome] at named left spared
    cases result with
    | ok value =>
      rw [returning, bind_of_ok outcome] at performed
      obtain ⟨same, rfl⟩ := Prod.mk.inj performed
      have returned := congrArg HeapCall.outcome same
      refine ⟨fun result ok => ?_, fun e refused => ?_, left, ?_,
        added.acyclic sound (acyclic_of_run run)⟩
      · obtain ⟨given, stored, isGiven, bounded, names⟩ := named
        rw [ok] at returned
        exact ⟨given, stored, value, isGiven, bounded, (Except.ok.inj returned).symm, names⟩
      · rw [refused] at returned
        exact absurd returned nofun
      · exact fun reference cell metadata deref same live => added.error_same deref same live
    | error e =>
      rw [returning, bind_of_error outcome] at performed
      obtain ⟨same, rfl⟩ := Prod.mk.inj performed
      have returned := congrArg HeapCall.outcome same
      refine ⟨fun result ok => ?_, fun _ _ => spared.only, left, ?_,
        added.acyclic sound (acyclic_of_run run)⟩
      · rw [ok] at returned
        exact absurd returned nofun
      · exact fun reference cell metadata deref same live => added.error_same deref same live

/-- Making an error stores the given one within its bounds, and leaves every other error as
it was and the graph of errors acyclic. -/
theorem errors_bounded {es : HeapHistory} {h t : Heap} {call : HeapCall}
    (run : Run heapSystem es h) (step : heapSystem.step h call t)
    (makes : call.op.makesError = true) : ErrorMade h call t := by
  cases op : call.op with
  | allocateError given =>
    refine errorMade_of_program run step (by rw [op]; rfl) ?_ (allocateError_kept given)
      (allocateError_spares given)
    refine (allocateError_names h given).weaken (fun _ h => h) ?_ (fun _ h => h)
    rintro value m ⟨stored, prepared, names⟩
    exact ⟨given, stored, op ▸ .allocated given, prepareError_bounded prepared, names⟩
  | deriveError reference additions =>
    refine errorMade_of_program run step (by rw [op]; rfl) ?_
      (deriveError_kept reference additions) (deriveError_spares reference additions)
    refine (deriveError_names h reference additions).weaken (fun _ h => h) ?_ (fun _ h => h)
    rintro value m ⟨given, stored, derived, prepared, names⟩
    obtain ⟨primary, found, additions'⟩ := deriveMetadata_spec derived
    exact ⟨given, stored, op ▸ .derived found additions', prepareError_bounded prepared, names⟩
  | _ =>
    rw [op] at makes
    exact absurd makes Bool.false_ne_true

/-! An error whose message is cut inside a scalar, and one derived from it. -/

def errorHeap : Heap := freshHeap samplePlatform (fun _ => none) { maxErrorMessageBytes := 2 } 1

def sampleError (message : Bytes) (omittedFrames : Nat) : ErrorMetadata where
  code := .thrownValue
  message := samplePlatform.text message
  origin := .script
  source := none
  stack := .nil
  cause := none
  suppressed := .nil
  details := .nil
  context := ⟨none, none, none, none, none, none⟩
  truncated := { stackFrames := omittedFrames }

def thrown : HeapCall × Heap :=
  performOp errorHeap (.allocateError (sampleError [104, 0xC3, 0xA9] 0), [])

def derived : HeapCall × Heap := performOp thrown.2 (.deriveError ⟨1, 0, 1⟩ ⟨none, []⟩, [])

theorem errorHeap_start : heapSystem.start errorHeap := ⟨_, _, _, _, rfl⟩

theorem thrown_run : Run heapSystem [⟨errorHeap, thrown.1, thrown.2⟩] thrown.2 :=
  (Run.start errorHeap_start).step (performOp_step rfl)

theorem errors_bounded_derived : derived.1.outcome = .ok (.value (.ref ⟨1, 1, 1⟩)) ∧
    ErrorMade thrown.2 derived.1 derived.2 :=
  ⟨by decide +kernel, errors_bounded thrown_run (performOp_step rfl) rfl⟩

/-- Omitted frames that the given error counts already are counted on. -/
theorem omitted_frames_add_up : ¬ ∀ (es : HeapHistory) (h t : Heap) (call : HeapCall)
    (given stored : ErrorMetadata) (value : Value), Run heapSystem es h →
      heapSystem.step h call t → call.op = .allocateError given →
      call.outcome = .ok (.value value) → Names value stored t →
      stored.truncated.stackFrames + stored.stack.items.length = given.stack.items.length := by
  intro claimed
  have counted := claimed [] errorHeap _ _ (sampleError [] 1) (sampleError [] 1) (.ref ⟨1, 0, 1⟩)
    (.start errorHeap_start) (@performOp_step errorHeap (.allocateError (sampleError [] 1), []) rfl) rfl
    (by decide +kernel) ⟨⟨1, 0, 1⟩, ⟨.errorCell (sampleError [] 1), 8, 0, 0⟩, rfl,
      by decide +kernel, rfl⟩
  exact absurd counted (by decide)

end Baas.Script
