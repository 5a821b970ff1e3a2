import Baas.Lib.Frontier
import Baas.Script.Heap

/-! The mark phase marks exactly the reachable cells. -/
namespace Baas.Script

open Program

def Live (h : Heap) (reference : HeapRef) : Prop := ∃ cell, dereference reference h = .ok cell

/-- A value that may be stored: inline, or a reference to a live cell. -/
def Valid (h : Heap) (value : Value) : Prop := ∀ reference, value = .ref reference → Live h reference

def IsRoot (h : Heap) (reference : HeapRef) : Prop := .ref reference ∈ rootValues h

def IsEdge (h : Heap) (parent child : HeapRef) : Prop :=
  ∃ cell, dereference parent h = .ok cell ∧ .ref child ∈ visitChildren cell.data

/-- Reachable from the explicit and temporary roots through visited children. -/
def Reaches (h : Heap) : HeapRef → Prop := Reach (IsRoot h) (IsEdge h)

structure Sound (h : Heap) : Prop where
  edges : ∀ reference cell, dereference reference h = .ok cell →
    ∀ value ∈ visitChildren cell.data, Valid h value
  roots : ∀ value ∈ rootValues h, Valid h value

theorem dereference_ok {h : Heap} {reference : HeapRef} {cell : Cell} :
    dereference reference h = .ok cell ↔
      reference.heapIdentity = h.heapIdentity ∧
        h.arena.get? reference.handle = some cell := by
  unfold dereference Arena.get? HeapRef.handle
  by_cases own : reference.heapIdentity = h.heapIdentity
  · rw [if_neg (not_not.mpr own)]
    cases found : h.arena.slots[reference.slot]? with
    | none => simp [fault]
    | some slot =>
      cases stored : slot.cell with
      | none => simp [fault, stored]
      | some content =>
        by_cases current : slot.generation = reference.generation <;>
          simp [fault, stored, current, own]
  · simp [fault, own]

/-- A slot holds one live reference at a time. -/
theorem live_unique {h : Heap} {a b : HeapRef} (liveA : Live h a) (liveB : Live h b)
    (same : a.slot = b.slot) : a = b := by
  obtain ⟨cellA, derefA⟩ := liveA
  obtain ⟨cellB, derefB⟩ := liveB
  obtain ⟨ownA, getA⟩ := dereference_ok.mp derefA
  obtain ⟨ownB, getB⟩ := dereference_ok.mp derefB
  have slotA := Arena.slot_of_get? getA
  have slotB := Arena.slot_of_get? getB
  simp only [HeapRef.handle, same] at slotA slotB
  rw [slotA] at slotB
  obtain ⟨_, _, _⟩ := a
  obtain ⟨_, _, _⟩ := b
  simp_all

/-- What scanning a list of values adds to a marking. -/
structure Scanned (h : Heap) (values : List Value) (m m' : Marking) : Prop where
  keeps_marks : ∀ i ∈ m.marked, i ∈ m'.marked
  keeps_work : ∀ reference ∈ m.worklist, reference ∈ m'.worklist
  covers : ∀ reference, .ref reference ∈ values → Live h reference ∧ reference.slot ∈ m'.marked
  new_marks : ∀ i ∈ m'.marked, i ∈ m.marked ∨
    ∃ reference ∈ m'.worklist, reference.slot = i ∧ .ref reference ∈ values
  new_work : ∀ reference ∈ m'.worklist, reference ∈ m.worklist ∨ .ref reference ∈ values

theorem Scanned.nil (h : Heap) (m : Marking) : Scanned h [] m m :=
  ⟨fun _ h => h, fun _ h => h, by simp, fun _ h => .inl h, fun _ h => .inl h⟩

theorem Scanned.cons {h : Heap} {value : Value} {values : List Value} {m m' m'' : Marking}
    (first : Scanned h [value] m m') (rest : Scanned h values m' m'') :
    Scanned h (value :: values) m m'' where
  keeps_marks i hi := rest.keeps_marks i (first.keeps_marks i hi)
  keeps_work r hr := rest.keeps_work r (first.keeps_work r hr)
  covers r hr := by
    rcases List.mem_cons.mp hr with here | later
    · obtain ⟨live, marked⟩ := first.covers r (List.mem_singleton.mpr here)
      exact ⟨live, rest.keeps_marks _ marked⟩
    · exact rest.covers r later
  new_marks i hi := by
    rcases rest.new_marks i hi with old | ⟨r, work, slot, listed⟩
    · rcases first.new_marks i old with older | ⟨r, work, slot, listed⟩
      · exact .inl older
      · refine .inr ⟨r, rest.keeps_work r work, slot, ?_⟩
        exact List.mem_cons.mpr (.inl (List.mem_singleton.mp listed))
    · exact .inr ⟨r, work, slot, List.mem_cons_of_mem _ listed⟩
  new_work r hr := by
    rcases rest.new_work r hr with old | listed
    · rcases first.new_work r old with older | here
      · exact .inl older
      · exact .inr (List.mem_cons.mpr (.inl (List.mem_singleton.mp here)))
    · exact .inr (List.mem_cons_of_mem _ listed)

theorem enqueueMark_scanned {h : Heap} {value : Value} {m m' : Marking}
    (ok : enqueueMark h m value = .ok m') : Scanned h [value] m m' := by
  unfold enqueueMark at ok
  split at ok
  · rename_i reference
    cases deref : dereference reference h with
    | error e => rw [deref] at ok; cases ok
    | ok cell =>
      rw [deref] at ok
      by_cases marked : reference.slot ∈ m.marked
      · simp only [marked, if_true, bind, Except.bind, pure, Except.pure] at ok
        cases Except.ok.inj ok
        refine ⟨fun _ h => h, fun _ h => h, ?_, fun _ h => .inl h, fun _ h => .inl h⟩
        intro r hr
        cases Value.ref.inj (List.mem_singleton.mp hr)
        exact ⟨⟨cell, deref⟩, marked⟩
      · simp only [marked, if_false, bind, Except.bind, pure, Except.pure] at ok
        cases Except.ok.inj ok
        refine ⟨fun _ h => List.mem_cons_of_mem _ h, fun _ h => List.mem_cons_of_mem _ h,
          ?_, ?_, ?_⟩
        · intro r hr
          cases Value.ref.inj (List.mem_singleton.mp hr)
          exact ⟨⟨cell, deref⟩, List.mem_cons_self⟩
        · intro i hi
          rcases List.mem_cons.mp hi with rfl | old
          · exact .inr ⟨reference, List.mem_cons_self, rfl, List.mem_singleton_self _⟩
          · exact .inl old
        · intro r hr
          rcases List.mem_cons.mp hr with rfl | old
          · exact .inr (List.mem_singleton_self _)
          · exact .inl old
  · rename_i inline
    cases Except.ok.inj ok
    refine ⟨fun _ h => h, fun _ h => h, ?_, fun _ h => .inl h, fun _ h => .inl h⟩
    intro r hr
    exact absurd (List.mem_singleton.mp hr).symm (inline r)

theorem bind_ok {ε α β : Type} {x : Except ε α} {f : α → Except ε β} {b : β}
    (ok : (x >>= f) = .ok b) : ∃ a, x = .ok a ∧ f a = .ok b := by
  cases x with
  | error e => cases ok
  | ok a => exact ⟨a, rfl, ok⟩

theorem scan_scanned {h : Heap} {values : List Value} {m m' : Marking}
    (ok : values.foldlM (enqueueMark h) m = .ok m') : Scanned h values m m' := by
  induction values generalizing m with
  | nil =>
    cases Except.ok.inj ok
    exact .nil h _
  | cons value values ih =>
    rw [List.foldlM_cons] at ok
    obtain ⟨middle, first, rest⟩ := bind_ok ok
    exact .cons (enqueueMark_scanned first) (ih rest)

/-- The mark of a slot as a set of references: the live one in it. -/
def Marked (h : Heap) (m : Marking) (reference : HeapRef) : Prop :=
  Live h reference ∧ reference.slot ∈ m.marked

structure MarkInvariant (h : Heap) (m : Marking) : Prop where
  frontier : Frontier (IsRoot h) (IsEdge h) (Marked h m) (· ∈ m.worklist)
  listed : ∀ reference ∈ m.worklist, Marked h m reference

/-- A newly marked reference is one of the scanned ones and waits on the worklist. -/
theorem Scanned.fresh {h : Heap} {values : List Value} {m m' : Marking}
    (scanned : Scanned h values m m') {reference : HeapRef}
    (marked : Marked h m' reference) :
    Marked h m reference ∨ .ref reference ∈ values ∧ reference ∈ m'.worklist := by
  rcases scanned.new_marks _ marked.2 with old | ⟨other, work, slot, listed⟩
  · exact .inl ⟨marked.1, old⟩
  · have same := live_unique (scanned.covers other listed).1 marked.1 slot
    exact .inr ⟨same ▸ listed, same ▸ work⟩

theorem MarkInvariant.start {h : Heap} {m : Marking}
    (ok : (rootValues h).foldlM (enqueueMark h) ⟨[], []⟩ = .ok m) : MarkInvariant h m := by
  have scanned := scan_scanned ok
  have fresh {reference : HeapRef} (marked : Marked h m reference) :
      IsRoot h reference ∧ reference ∈ m.worklist := by
    rcases scanned.fresh marked with ⟨_, old⟩ | new
    · exact absurd old List.not_mem_nil
    · exact new
  refine ⟨⟨fun r root => scanned.covers r root, fun r marked => .root (fresh marked).1, ?_⟩, ?_⟩
  · intro a b marked done _
    exact absurd (fresh marked).2 done
  · intro r hr
    rcases scanned.new_work r hr with old | listed
    · exact absurd old List.not_mem_nil
    · exact scanned.covers r listed

theorem MarkInvariant.scan {h : Heap} {marked : List Nat} {reference : HeapRef}
    {worklist : List HeapRef} {cell : Cell} {m' : Marking}
    (inv : MarkInvariant h ⟨marked, reference :: worklist⟩)
    (deref : dereference reference h = .ok cell)
    (ok : (visitChildren cell.data).foldlM (enqueueMark h) ⟨marked, worklist⟩ = .ok m') :
    MarkInvariant h m' := by
  have scanned := scan_scanned ok
  have along {child : HeapRef} (edge : IsEdge h reference child) :
      .ref child ∈ visitChildren cell.data := by
    obtain ⟨cell', deref', listed⟩ := edge
    rw [deref] at deref'
    cases Except.ok.inj deref'
    exact listed
  constructor
  · refine inv.frontier.expand (inv.listed reference List.mem_cons_self) ?_ ?_ ?_ ?_
    · exact fun r h => ⟨h.1, scanned.keeps_marks _ h.2⟩
    · intro r h
      rcases scanned.fresh h with old | ⟨listed, work⟩
      · exact .inl old
      · exact .inr ⟨⟨cell, deref, listed⟩, work⟩
    · intro r pending other
      exact scanned.keeps_work r ((List.mem_cons.mp pending).resolve_left other)
    · exact fun r edge => scanned.covers r (along edge)
  · intro r hr
    rcases scanned.new_work r hr with old | listed
    · obtain ⟨live, slot⟩ := inv.listed r (List.mem_cons_of_mem _ old)
      exact ⟨live, scanned.keeps_marks _ slot⟩
    · exact scanned.covers r listed

theorem MarkInvariant.drain {h : Heap} {budget : Nat} {m m' : Marking}
    (inv : MarkInvariant h m) (ok : drainMarks h budget m = .ok m') :
    MarkInvariant h m' ∧ m'.worklist = [] := by
  induction budget generalizing m with
  | zero =>
    obtain ⟨marked, worklist⟩ := m
    cases worklist with
    | nil =>
      rw [drainMarks] at ok
      cases Except.ok.inj ok
      exact ⟨inv, rfl⟩
    | cons reference worklist => cases ok
  | succ budget ih =>
    obtain ⟨marked, worklist⟩ := m
    cases worklist with
    | nil =>
      rw [drainMarks] at ok
      cases Except.ok.inj ok
      exact ⟨inv, rfl⟩
    | cons reference worklist =>
      rw [drainMarks] at ok
      obtain ⟨cell, deref, ok⟩ := bind_ok ok
      obtain ⟨middle, scan, ok⟩ := bind_ok ok
      exact ih (inv.scan deref scan) ok

theorem mark_exact {h : Heap} {marked : List Nat} (ok : mark h = .ok marked)
    {reference : HeapRef} (live : Live h reference) :
    reference.slot ∈ marked ↔ Reaches h reference := by
  unfold mark at ok
  obtain ⟨m, start, ok⟩ := bind_ok ok
  obtain ⟨m', drained, ok⟩ := bind_ok ok
  cases Except.ok.inj ok
  obtain ⟨inv, empty⟩ := (MarkInvariant.start start).drain drained
  have complete := inv.frontier.complete (by simp [empty]) reference
  exact ⟨fun slot => complete.mp ⟨live, slot⟩, fun reached => (complete.mpr reached).2⟩

end Baas.Script
