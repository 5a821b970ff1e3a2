import Baas.Script.HeapChange

/-! Equality on the heaps of a run: bisimilarity, with numbers compared by their value. -/
namespace Baas.Script

open Transition Expansion

theorem kindOf_dead {value : Value} {h : Heap} (dead : ¬ Valid h value) :
    ∃ e, kindOf value h = .error e := by
  rw [Valid] at dead
  push Not at dead
  obtain ⟨reference, rfl, gone⟩ := dead
  cases found : dereference reference h with
  | ok cell => exact absurd ⟨cell, found⟩ gone
  | error e => exact ⟨e, by rw [kindOf, found]; rfl⟩

theorem kindOf_valid {value : Value} {h : Heap} (valid : Valid h value) :
    ∃ kind, kindOf value h = .ok kind := by
  cases value with
  | ref reference =>
    obtain ⟨cell, deref⟩ := valid reference rfl
    exact ⟨dataKind cell.data, by rw [kindOf, deref]; rfl⟩
  | _ => exact ⟨_, rfl⟩

theorem equals_dead {left right : Value} {h : Heap} (dead : ¬ (Valid h left ∧ Valid h right)) :
    ∃ e, equals left right h = .error e := by
  have refused : ∃ e, comparePair left right h = .error e := by
    unfold comparePair
    by_cases validL : Valid h left
    · obtain ⟨kind, foundL⟩ := kindOf_valid validL
      obtain ⟨e, foundR⟩ := kindOf_dead fun validR => dead ⟨validL, validR⟩
      exact ⟨e, by rw [foundL, foundR]; rfl⟩
    · obtain ⟨e, foundL⟩ := kindOf_dead validL
      exact ⟨e, by rw [foundL]; rfl⟩
  obtain ⟨e, refused⟩ := refused
  refine ⟨e, ?_⟩
  rw [equals, equalsLoop.eq_def]
  dsimp only
  split
  · rename_i failed
    rw [refused] at failed
    rw [Except.error.inj failed]
  all_goals
    rename_i passed
    rw [refused] at passed
    cases passed

theorem equals_exact {h : Heap} (sound : Sound h) (keyed : Keyed h) {left right : Value}
    (validL : Valid h left) (validR : Valid h right) :
    ∃ equal, equals left right h = .ok equal ∧
      (equal = true ↔ Bisimilar Alike h left right) := by
  obtain ⟨equal, ran, exact'⟩ := equalsLoop_exact sound [] [(left, right)]
    (fun pair i => by
      rw [List.mem_singleton.mp i]
      exact ⟨validL, validR⟩)
    (by
      rintro pair ⟨refs, absent, -⟩
      exact nomatch absent)
  refine ⟨equal, ran, exact'.trans ?_⟩
  rw [bisimilar_iff sound keyed validL validR]
  exact List.forall_mem_singleton

/-- On every reachable heap `equals` decides bisimilarity, whatever the order of its arguments;
it refuses values that the heap does not hold. -/
theorem equals_bisimilar {es : HeapHistory} {h : Heap} (run : Run heapSystem es h)
    (left right : Value) :
    (Valid h left ∧ Valid h right → ∃ equal, equals left right h = .ok equal ∧
      equals right left h = .ok equal ∧ (equal = true ↔ Bisimilar Alike h left right)) ∧
    (¬ (Valid h left ∧ Valid h right) → (∃ e, equals left right h = .error e) ∧
      ∃ e, equals right left h = .error e) := by
  have sound := sound_of_run run
  have keyed := keyed_of_run run
  constructor
  · rintro ⟨validL, validR⟩
    obtain ⟨equal, ran, exact'⟩ := equals_exact sound keyed validL validR
    obtain ⟨reversed, ran', exact''⟩ := equals_exact sound keyed validR validL
    have same : reversed = equal := by
      rw [Bool.eq_iff_iff, exact', exact'']
      exact ⟨Bisimilar.symm, Bisimilar.symm⟩
    exact ⟨equal, ran, same ▸ ran', exact'⟩
  · intro dead
    exact ⟨equals_dead dead, equals_dead fun both => dead ⟨both.2, both.1⟩⟩

/-- One a number and one a float, whatever their values. -/
def View.Mixed : View → View → Prop
  | .integer _, .float _ | .float _, .integer _ => True
  | _, _ => False

/-- Alike and of one kind. -/
def AlikeInKind (x y : View) : Prop := Alike x y ∧ ¬ x.Mixed y

theorem Leads.inline {h : Heap} {value last : Value} {path : List PathStep}
    (leads : Leads h value path last) (inline : ∀ reference, value ≠ .ref reference) :
    path = [] ∧ last = value := by
  cases leads with
  | here => exact ⟨rfl, rfl⟩
  | step element _ =>
    cases value with
    | ref reference => exact absurd rfl (inline reference)
    | null | boolean | integer | float =>
      obtain ⟨_, seen⟩ | ⟨_, seen⟩ := element.collection
      · exact absurd (Option.some_inj.mp seen) nofun
      · exact absurd (Option.some_inj.mp seen) nofun

/-- An integer equals the float of its value. -/
theorem mixed_numbers_equal : ¬ ∀ (es : HeapHistory) (h : Heap), Run heapSystem es h →
    ∀ left right, Valid h left ∧ Valid h right →
      (equals left right h = .ok true ↔ Bisimilar AlikeInKind h left right) := by
  intro claimed
  have start : heapSystem.start sampleHeap := ⟨_, _, _, _, rfl⟩
  have run : Run heapSystem [] sampleHeap := .start start
  have one : Valid sampleHeap (.integer 1) := fun _ same => nomatch same
  have float : Valid sampleHeap (.float 0x3FF0000000000000) := fun _ same => nomatch same
  obtain ⟨equal, ran, exact'⟩ := equals_exact (sound_of_run run) (keyed_of_run run) one float
  have alike : Bisimilar Alike sampleHeap (.integer 1) (.float 0x3FF0000000000000) := by
    intro path a b toA toB
    obtain ⟨-, rfl⟩ := toA.inline (fun _ same => nomatch same)
    obtain ⟨-, rfl⟩ := toB.inline (fun _ same => nomatch same)
    refine ⟨_, _, rfl, rfl, ?_⟩
    show floatEquals (integerToFloat 1) 0x3FF0000000000000 = true
    decide +kernel
  rw [exact'.mpr alike] at ran
  obtain ⟨x, y, viewX, viewY, -, unmixed⟩ :=
    (claimed [] sampleHeap run _ _ ⟨one, float⟩).mp ran [] _ _ .here .here
  obtain rfl := Option.some_inj.mp viewX
  obtain rfl := Option.some_inj.mp viewY
  exact unmixed trivial

/-! A cycle of one list and a cycle of two. -/

def sampleRef (slot : Nat) : HeapRef := ⟨1, slot, 1⟩

def oneItem (value : Value) : Buffer Value := samplePlatform.reserve 1 [value]

def sampleLoops : List HeapOp :=
  [.allocateList (oneItem .null), .listSet (sampleRef 0) 0 (.ref (sampleRef 0)),
    .allocateList (oneItem .null), .allocateList (oneItem (.ref (sampleRef 1))),
    .listSet (sampleRef 1) 0 (.ref (sampleRef 2))]

/-- Calls without faults, none of them at an evaluator boundary. -/
def performAll (es : HeapHistory) (h : Heap) : List HeapOp → HeapHistory × Heap
  | [] => (es, h)
  | op :: ops =>
    let ran := performOp h (op, [])
    performAll (es ++ [⟨h, ran.1, ran.2⟩]) ran.2 ops

theorem performAll_run {es : HeapHistory} {h : Heap} (run : Run heapSystem es h)
    (ops : List HeapOp) (permitted : ∀ op ∈ ops, ∀ h, op.permitted h = true) :
    Run heapSystem (performAll es h ops).1 (performAll es h ops).2 := by
  induction ops generalizing es h with
  | nil => exact run
  | cons op ops ih =>
    rw [List.forall_mem_cons] at permitted
    have step := @performOp_step h (op, []) (permitted.1 h)
    exact ih (run.step step) permitted.2

def sampleHistory : HeapHistory × Heap := performAll [] sampleHeap sampleLoops

theorem sampleHistory_run : Run heapSystem sampleHistory.1 sampleHistory.2 :=
  performAll_run (.start ⟨_, _, _, _, rfl⟩) _ (by simp [sampleLoops, HeapOp.permitted])

theorem live_of_isOk {h : Heap} {reference : HeapRef}
    (found : (dereference reference h).isOk = true) : Valid h (.ref reference) := by
  rintro other same
  obtain rfl := Value.ref.inj same
  cases deref : dereference reference h with
  | ok cell => exact ⟨cell, deref⟩
  | error e => rw [deref] at found; exact absurd found nofun

theorem equals_bisimilar_cycles : ∃ equal,
    equals (.ref (sampleRef 0)) (.ref (sampleRef 1)) sampleHistory.2 = .ok equal ∧
      equals (.ref (sampleRef 1)) (.ref (sampleRef 0)) sampleHistory.2 = .ok equal ∧
      (equal = true ↔
        Bisimilar Alike sampleHistory.2 (.ref (sampleRef 0)) (.ref (sampleRef 1))) :=
  (equals_bisimilar sampleHistory_run _ _).1
    ⟨live_of_isOk (by decide +kernel), live_of_isOk (by decide +kernel)⟩

end Baas.Script
