import Baas.Repository.UpdaterFiles

/-! What recovery and a transaction do to the pointers, wherever they fail or are cut. -/
namespace Baas.Repository

open JsonText Durable

/-- The previous and the current pointer. -/
abbrev Pair := Option Pointer × Option Pointer

/-- No journal is there and the pointers are this pair. -/
structure Clean (pair : Pair) (root : Root) : Prop where
  journal : root .publishJournal = none
  previous : pointerOf (root .previous) = some pair.1
  current : pointerOf (root .current) = some pair.2

/-- A journal from one pair to another. -/
structure Journal.Between (journal : Journal) (old new : Pair) : Prop where
  formed : WellFormed journal
  old : old = (journal.oldPrevious, journal.oldCurrent)
  new : new = (journal.newPrevious, some journal.newCurrent)

/-- A journal is there, and each pointer is an old or a new one. -/
structure Pending (old new : Pair) (root : Root) : Prop where
  journal : ∃ journal : Journal, journal.Between old new ∧
    root .publishJournal = some (journalJson journal)
  previous : pointerOf (root .previous) = some old.1 ∨ pointerOf (root .previous) = some new.1
  current : pointerOf (root .current) = some old.2 ∨ pointerOf (root .current) = some new.2

section Files

variable {old new pair : Pair} {root : Root} {journal : Journal}

theorem Journal.Between.valid_new (between : journal.Between old new) :
    ValidOptional new.1 ∧ ValidOptional new.2 := by
  rw [between.new]
  refine ⟨between.formed.newPrevious, ?_⟩
  rintro p ⟨⟩
  exact between.formed.newCurrent

theorem Journal.Between.valid_old (between : journal.Between old new) :
    ValidOptional old.1 ∧ ValidOptional old.2 := by
  rw [between.old]
  exact ⟨between.formed.oldPrevious, between.formed.oldCurrent⟩

/-- The phase of a journal can change. -/
theorem Journal.Between.rephase (between : journal.Between old new) {phase : Text}
    (known : phase = prepared ∨ phase = previousReplaced ∨ phase = currentReplaced) :
    Journal.Between { journal with phase } old new := by
  have relationship := between.formed.relationship
  refine ⟨⟨between.formed.oldPrevious, between.formed.oldCurrent, between.formed.newPrevious,
    between.formed.newCurrent, ?_⟩, between.old, between.new⟩
  unfold validJournal at relationship ⊢
  simp only [Bool.and_eq_true, Bool.or_eq_true, decide_eq_true_eq] at relationship ⊢
  obtain ⟨⟨⟨operation, -⟩, previous⟩, undone⟩ := relationship
  exact ⟨⟨⟨operation, or_assoc.mpr known⟩, previous⟩, undone⟩

theorem Pending.set_previous (pending : Pending old new root) {pointer : Option Pointer}
    (valid : ValidOptional pointer) (which : pointer = old.1 ∨ pointer = new.1) :
    Pending old new (Function.update root .previous (pointer.map pointerJson)) where
  journal := by
    rw [Function.update_of_ne (by decide)]
    exact pending.journal
  previous := by
    rw [Function.update_self, pointerOf_optional valid]
    exact which.imp (congrArg some) (congrArg some)
  current := by
    rw [Function.update_of_ne (by decide)]
    exact pending.current

theorem Pending.set_current (pending : Pending old new root) {pointer : Option Pointer}
    (valid : ValidOptional pointer) (which : pointer = old.2 ∨ pointer = new.2) :
    Pending old new (Function.update root .current (pointer.map pointerJson)) where
  journal := by
    rw [Function.update_of_ne (by decide)]
    exact pending.journal
  previous := by
    rw [Function.update_of_ne (by decide)]
    exact pending.previous
  current := by
    rw [Function.update_self, pointerOf_optional valid]
    exact which.imp (congrArg some) (congrArg some)

theorem Pending.set_journal (pending : Pending old new root)
    (between : journal.Between old new) :
    Pending old new (Function.update root .publishJournal (some (journalJson journal))) where
  journal := ⟨journal, between, Function.update_self ..⟩
  previous := by
    rw [Function.update_of_ne (by decide)]
    exact pending.previous
  current := by
    rw [Function.update_of_ne (by decide)]
    exact pending.current

/-- A journal on a clean root. -/
theorem Clean.set_journal (clean : Clean old root) (between : journal.Between old new) :
    Pending old new (Function.update root .publishJournal (some (journalJson journal))) where
  journal := ⟨journal, between, Function.update_self ..⟩
  previous := by
    rw [Function.update_of_ne (by decide)]
    exact .inl clean.previous
  current := by
    rw [Function.update_of_ne (by decide)]
    exact .inl clean.current

/-- Without its journal a root with one of the pairs is clean. -/
theorem clean_remove (previous : pointerOf (root .previous) = some pair.1)
    (current : pointerOf (root .current) = some pair.2) :
    Clean pair (Function.update root .publishJournal none) where
  journal := Function.update_self ..
  previous := by
    rw [Function.update_of_ne (by decide)]
    exact previous
  current := by
    rw [Function.update_of_ne (by decide)]
    exact current

theorem Clean.foreign {op : Op} (foreign : op.Foreign) (clean : Clean pair root) :
    Clean pair (op.apply root) := by
  obtain ⟨journal, previous, current⟩ := clean
  cases op with
  | attempt => exact ⟨journal, previous, current⟩
  | replace file bytes =>
    obtain ⟨one, two, three⟩ := foreign
    exact ⟨by rw [Op.apply, Function.update_of_ne three.symm, journal],
      by rw [Op.apply, Function.update_of_ne one.symm, previous],
      by rw [Op.apply, Function.update_of_ne two.symm, current]⟩
  | remove file =>
    obtain ⟨one, two, three⟩ := foreign
    exact ⟨by rw [Op.apply, Function.update_of_ne three.symm, journal],
      by rw [Op.apply, Function.update_of_ne one.symm, previous],
      by rw [Op.apply, Function.update_of_ne two.symm, current]⟩

end Files

/-! Recovery. -/

section Recovery

variable {fails : Prop} {old new pair : Pair} {root : Root} {journal : Journal}

/-- How far recovery can be. -/
def Recovering (old new : Pair) (root : Root) : Prop := Pending old new root ∨ Clean new root

theorem runs_recoverPrevious (between : journal.Between old new)
    (pending : Pending old new root) :
    Runs (stateRoot fails) (Recovering old new) (recoverPrevious (journalJson journal))
      (fun found next => found = journal ∧ Pending old new next ∧
        pointerOf (next .previous) = some new.1)
      (fun next => fails ∧ Pending old new next) root := by
  have valid := between.valid_new.1
  have next := pending.set_previous valid (.inr rfl)
  have name : journal.newPrevious = new.1 := by rw [between.new]
  have short := length_journalJson between.formed
  have read : (parse (journalJson journal) >>= parseJournal).toOption = some journal := by
    rw [parseJournal_journalJson between.formed]
    rfl
  apply Runs.seq
  apply runs_readAnchoredFile (.inl pending)
  · rintro (may | long)
    · exact ⟨may, pending⟩
    · exact absurd short (Nat.not_le_of_lt long)
  intro _
  apply Runs.seq
  apply runs_decode (.inl pending)
  · rw [read]
    nofun
  intro found same
  rw [read] at same
  cases same
  apply Runs.seq
  apply runs_attempt (.inl pending) (fun may => ⟨may, pending⟩)
  apply Runs.seq
  apply runs_attempt (.inl pending) (fun may => ⟨may, pending⟩)
  apply Runs.seq
  rw [name]
  apply runs_writeOptionalPointer valid (.inl pending) (.inl next) (fun may => ⟨may, pending⟩)
    (fun may => ⟨may, next⟩)
  apply Runs.seq
  apply runs_attempt (.inl next) (fun may => ⟨may, next⟩)
  apply Runs.pure (.inl next)
  refine ⟨rfl, next, ?_⟩
  rw [Function.update_self, pointerOf_optional valid]

/-- What removes the journal of a publication whose pointers are both new. -/
theorem runs_cleanup {crashed thrown : Root → Prop} {after : Option Text → Root → Prop}
    (previous : pointerOf (root .previous) = some new.1)
    (current : pointerOf (root .current) = some new.2) (cut : crashed root)
    (cleaned : ∀ next, Clean new next → crashed next) (no : fails → thrown root)
    (unsynced : ∀ next, fails → Clean new next → thrown next)
    (yes : ∀ next, Clean new next → after (new.2.map Pointer.generation) next) :
    Runs (stateRoot fails) crashed recoverCleanup after thrown root := by
  have clean := clean_remove previous current
  apply Runs.seq
  apply runs_attempt cut no
  apply Runs.seq
  apply runs_removeFile cut (cleaned _ clean) no (fun may => unsynced _ may clean)
  apply runs_loadPin (cleaned _ clean)
  · rintro (may | lost)
    · exact unsynced _ may clean
    · rw [clean.current] at lost
      cases lost
  · intro pointer held
    rw [clean.current] at held
    cases held
    exact yes _ clean

/-- `recover_pending` on a journal: it goes through to the new pair, and if it fails the
journal is still there or the pair is the new one. -/
theorem holds_recoverPending (pending : Pending old new root) :
    Holds (stateRoot fails) (Recovering old new) recoverPending (fun answer next =>
      match answer with
      | .ok () => Clean new next
      | .error disposition => fails ∧
        (disposition = .notCommitted ∧ Pending old new next ∨
          disposition = .committedDurabilityUncertain ∧ Recovering old new next)) root := by
  obtain ⟨⟨journal, between, there⟩, -, -⟩ := id pending
  refine ⟨.inl pending, ?_⟩
  rintro (_ | _) next ⟨may, rfl⟩
  · exact ⟨.inl pending, may rfl, .inl ⟨rfl, pending⟩⟩
  apply Holds.read
  rw [there]
  apply Runs.caught
  apply Runs.weaken (runs_recoverPrevious between pending)
  · rintro found next ⟨rfl, pending, previous⟩
    have valid := between.valid_new.2
    have name : new.2 = some found.newCurrent := by rw [between.new]
    have written := pending.set_current valid (.inr rfl)
    rw [name] at written
    apply Holds.bind
    apply holds_replaceAtomically (.inl pending) (.inl written)
    · rintro (may | long)
      · exact ⟨.inl pending, may, .inl ⟨rfl, pending⟩⟩
      · have bound := length_pointerJson between.formed.newCurrent
        unfold maxStateJsonBytes at long
        omega
    · exact fun may => ⟨.inl written, may, .inr ⟨rfl, .inl written⟩⟩
    · apply Runs.caught
      apply @runs_cleanup fails new
      · rw [Function.update_of_ne (by decide)]
        exact previous
      · rw [Function.update_self, name]
        exact pointerOf_pointerJson between.formed.newCurrent
      · exact .inl written
      · exact fun next clean => .inr clean
      · exact fun may => ⟨.inl written, may, .inr ⟨rfl, .inl written⟩⟩
      · exact fun next may clean => ⟨.inr clean, may, .inr ⟨rfl, .inr clean⟩⟩
      · exact fun next clean => ⟨.inr clean, clean⟩
  · rintro next ⟨may, pending⟩
    exact ⟨.inl pending, may, .inl ⟨rfl, pending⟩⟩

/-- Without a journal `recover_pending` leaves everything as it is. -/
theorem holds_recoverPending_clean (clean : Clean pair root) :
    Holds (stateRoot fails) (Clean pair) recoverPending (fun answer next =>
      Clean pair next ∧ ∀ disposition, answer = .error disposition →
        fails ∧ disposition = .notCommitted) root := by
  refine ⟨clean, ?_⟩
  rintro (_ | _) next ⟨may, rfl⟩
  · refine ⟨clean, clean, ?_⟩
    rintro disposition ⟨⟩
    exact ⟨may rfl, rfl⟩
  · apply Holds.read
    rw [clean.journal]
    exact ⟨clean, clean, fun _ failed => by cases failed⟩

end Recovery

/-! Transactions. -/

section Transaction

variable {κ : Type} {fails : Prop} {old new pair : Pair} {root : Root} {journal : Journal}

/-- How far a transaction can be. -/
def Publishing (old new : Pair) (root : Root) : Prop :=
  Clean old root ∨ Pending old new root ∨ Clean new root

/-- The current pointer is still the old one. -/
def Restorable (old new : Pair) (root : Root) : Prop :=
  Clean old root ∨ Pending old new root ∧ pointerOf (root .current) = some old.2

theorem Restorable.publishing (restorable : Restorable old new root) :
    Publishing old new root := by
  obtain clean | ⟨pending, -⟩ := restorable
  · exact .inl clean
  · exact .inr (.inl pending)

theorem Restorable.current (restorable : Restorable old new root) :
    pointerOf (root .current) = some old.2 := by
  obtain clean | ⟨-, current⟩ := restorable
  · exact clean.current
  · exact current

theorem Restorable.set_previous (restorable : Restorable old new root)
    (valid : ValidOptional old.1) :
    Restorable old new (Function.update root .previous (old.1.map pointerJson)) := by
  obtain clean | ⟨pending, current⟩ := restorable
  · left
    refine ⟨?_, ?_, ?_⟩
    · rw [Function.update_of_ne (by decide)]
      exact clean.journal
    · rw [Function.update_self, pointerOf_optional valid]
    · rw [Function.update_of_ne (by decide)]
      exact clean.current
  · right
    refine ⟨pending.set_previous valid (.inl rfl), ?_⟩
    rw [Function.update_of_ne (by decide)]
    exact current

theorem Restorable.set_current (restorable : Restorable old new root)
    (valid : ValidOptional old.2) :
    Restorable old new (Function.update root .current (old.2.map pointerJson)) := by
  obtain clean | ⟨pending, current⟩ := restorable
  · left
    refine ⟨?_, ?_, ?_⟩
    · rw [Function.update_of_ne (by decide)]
      exact clean.journal
    · rw [Function.update_of_ne (by decide)]
      exact clean.previous
    · rw [Function.update_self, pointerOf_optional valid]
  · right
    refine ⟨pending.set_current valid (.inl rfl), ?_⟩
    rw [Function.update_self, pointerOf_optional valid]

/-- What a transaction answers, and where it leaves the pointers. -/
def Settled (old new : Pair) (claimed : Option κ) (answer : UpdateResult κ) (root : Root) : Prop :=
  answer.claimed = claimed ∧
    match answer.disposition with
    | .notCommitted => answer.succeeded = false ∧ Clean old root
    | .committed =>
      answer.succeeded = true ∧ Clean new root ∧ answer.pin = new.2.map Pointer.generation
    | .committedDurabilityUncertain => answer.succeeded = false ∧ Publishing old new root

theorem holds_restoreTransaction (between : journal.Between old new)
    (restorable : Restorable old new root) (claimed : Option κ) :
    Holds (stateRoot fails) (Restorable old new) (restoreTransaction journal claimed)
      (fun answer next => answer.claimed = claimed ∧ answer.succeeded = false ∧
        (answer.disposition = .notCommitted ∧ Clean old next ∨
          answer.disposition = .committedDurabilityUncertain ∧ Restorable old new next)) root := by
  have valid := between.valid_old
  have names : journal.oldPrevious = old.1 ∧ journal.oldCurrent = old.2 := by
    rw [between.old]
    exact ⟨rfl, rfl⟩
  have first := restorable.set_previous valid.1
  have second := first.set_current valid.2
  have previous : pointerOf (Function.update (Function.update root File.previous
      (old.1.map pointerJson)) File.current (old.2.map pointerJson) .previous) = some old.1 := by
    rw [Function.update_of_ne (by decide), Function.update_self, pointerOf_optional valid.1]
  have clean : Clean old _ := clean_remove previous second.current
  apply Runs.caught
  unfold restore
  rw [names.1, names.2]
  apply Runs.seq
  apply runs_writeOptionalPointer valid.1 restorable first
  · exact fun _ => ⟨restorable, rfl, rfl, .inr ⟨rfl, restorable⟩⟩
  · exact fun _ => ⟨first, rfl, rfl, .inr ⟨rfl, first⟩⟩
  apply Runs.seq
  apply runs_writeOptionalPointer valid.2 first second
  · exact fun _ => ⟨first, rfl, rfl, .inr ⟨rfl, first⟩⟩
  · exact fun _ => ⟨second, rfl, rfl, .inr ⟨rfl, second⟩⟩
  apply Runs.seq
  refine ⟨second, ?_⟩
  rintro (_ | _) next ⟨may, same⟩
  · cases same
    refine ⟨second, ?_⟩
    apply Runs.seq
    apply runs_attempt second (fun _ => ⟨second, rfl, rfl, .inr ⟨rfl, second⟩⟩)
    apply Runs.check second
    · exact fun _ => ⟨second, rfl, rfl, .inr ⟨rfl, second⟩⟩
    · rintro ⟨⟩
  · cases same
    refine ⟨.inl clean, ?_⟩
    apply Runs.seq
    apply runs_attempt (.inl clean) (fun _ => ⟨.inl clean, rfl, rfl, .inr ⟨rfl, .inl clean⟩⟩)
    apply Runs.check (.inl clean)
    · rintro ⟨⟩
    · exact fun _ => ⟨.inl clean, rfl, rfl, .inl ⟨rfl, clean⟩⟩

/-- `restoreTransaction` as the end of a transaction. -/
theorem holds_restoreTransaction_settled (between : journal.Between old new)
    (restorable : Restorable old new root) (claimed : Option κ) :
    Holds (stateRoot fails) (Publishing old new) (restoreTransaction journal claimed)
      (Settled old new claimed) root := by
  apply (holds_restoreTransaction between restorable claimed).weaken
  · exact fun next => Restorable.publishing
  · rintro ⟨_, disposition, pin, _⟩ next ⟨rfl, rfl, ⟨rfl, clean⟩ | ⟨rfl, left⟩⟩
    · exact ⟨rfl, rfl, clean⟩
    · exact ⟨rfl, rfl, left.publishing⟩

/-- The journal is there and `current.json` is still the old one. -/
def Prepared (old new : Pair) (root : Root) : Prop :=
  Pending old new root ∧ pointerOf (root .current) = some old.2

theorem runs_writeJournal (between : journal.Between old new)
    (restorable : Restorable old new root) :
    Runs (stateRoot fails) (Restorable old new)
      (writeAtomically .publishJournal (journalJson journal))
      (fun _ next => Prepared old new next ∧ next .previous = root .previous)
      (Restorable old new) root := by
  have written : Pending old new
      (Function.update root .publishJournal (some (journalJson journal))) := by
    obtain clean | ⟨pending, -⟩ := id restorable
    · exact clean.set_journal between
    · exact pending.set_journal between
  have current : pointerOf (Function.update root File.publishJournal
      (some (journalJson journal)) .current) = some old.2 := by
    rw [Function.update_of_ne (by decide)]
    exact restorable.current
  apply runs_writeAtomically restorable (.inr ⟨written, current⟩) (fun _ => restorable)
    (fun _ => .inr ⟨written, current⟩)
  exact ⟨⟨written, current⟩, Function.update_of_ne (by decide) ..⟩

theorem runs_writePrevious {pointer : Option Pointer} (valid : ValidOptional new.1)
    (same : pointer = new.1) (ready : Prepared old new root) :
    Runs (stateRoot fails) (Restorable old new) (writeOptionalPointer .previous pointer)
      (fun _ next => Prepared old new next ∧ pointerOf (next .previous) = some new.1)
      (Restorable old new) root := by
  subst same
  have written := ready.1.set_previous valid (.inr rfl)
  have current : pointerOf (Function.update root File.previous (new.1.map pointerJson)
      .current) = some old.2 := by
    rw [Function.update_of_ne (by decide)]
    exact ready.2
  apply runs_writeOptionalPointer valid (.inr ready) (.inr ⟨written, current⟩)
    (fun _ => .inr ready) (fun _ => .inr ⟨written, current⟩)
  refine ⟨⟨written, current⟩, ?_⟩
  rw [Function.update_self, pointerOf_optional valid]

theorem runs_prepareTransaction (between : journal.Between old new) (clean : Clean old root) :
    Runs (stateRoot fails) (Restorable old new) (prepareTransaction journal)
      (fun _ next => Prepared old new next ∧ pointerOf (next .previous) = some new.1)
      (Restorable old new) root := by
  have name : journal.newPrevious = new.1 := by rw [between.new]
  have left : Restorable old new root := .inl clean
  have rephased := @Journal.Between.rephase _ _ _ between previousReplaced (.inr (.inl rfl))
  unfold prepareTransaction
  apply Runs.seq
  apply runs_attempt left (fun _ => left)
  apply Runs.seq
  apply (runs_writeJournal between left).weaken
  · rintro _ first ⟨ready, -⟩
    have left : Restorable old new first := .inr ready
    apply Runs.seq
    apply runs_attempt left (fun _ => left)
    apply Runs.seq
    apply runs_attempt left (fun _ => left)
    apply Runs.seq
    apply (runs_writePrevious between.valid_new.1 name ready).weaken
    · rintro _ second ⟨ready, previous⟩
      have left : Restorable old new second := .inr ready
      apply Runs.seq
      apply runs_attempt left (fun _ => left)
      apply Runs.seq
      apply (runs_writeJournal rephased left).weaken
      · rintro _ third ⟨ready, same⟩
        rw [← same] at previous
        have left : Restorable old new third := .inr ready
        apply Runs.seq
        apply runs_attempt left (fun _ => left)
        exact runs_attempt left (fun _ => left) ⟨ready, previous⟩
      · exact fun _ failed => failed
    · exact fun _ failed => failed
  · exact fun _ failed => failed

theorem runs_finishTransaction (between : journal.Between old new)
    (pending : Pending old new root) (previous : pointerOf (root .previous) = some new.1)
    (current : pointerOf (root .current) = some new.2) :
    Runs (stateRoot fails) (Publishing old new) (finishTransaction journal)
      (fun pin next => Clean new next ∧ pin = new.2.map Pointer.generation)
      (Publishing old new) root := by
  have rephased := @Journal.Between.rephase _ _ _ between currentReplaced (.inr (.inr rfl))
  have next := pending.set_journal rephased
  apply Runs.seq
  apply runs_attempt (.inr (.inl pending)) (fun _ => .inr (.inl pending))
  apply Runs.seq
  apply runs_writeAtomically (.inr (.inl pending)) (.inr (.inl next))
    (fun _ => .inr (.inl pending)) (fun _ => .inr (.inl next))
  apply @runs_cleanup fails new
  · rw [Function.update_of_ne (by decide)]
    exact previous
  · rw [Function.update_of_ne (by decide)]
    exact current
  · exact .inr (.inl next)
  · exact fun next clean => .inr (.inr clean)
  · exact fun _ => .inr (.inl next)
  · exact fun next _ clean => .inr (.inr clean)
  · exact fun next clean => ⟨clean, rfl⟩

/-- A publication goes through to the new pair or answers that it did not. -/
theorem holds_publication (between : journal.Between old new) (clean : Clean old root)
    (claimed : Option κ) :
    Holds (stateRoot fails) (Publishing old new) (publication journal claimed)
      (Settled old new claimed) root := by
  have valid := between.valid_new.2
  have name : new.2 = some journal.newCurrent := by rw [between.new]
  apply Runs.caught
  have prepare := @runs_prepareTransaction fails old new root journal between clean
  apply Runs.weaken (prepare.cut fun next => Restorable.publishing)
  · rintro _ next ⟨⟨pending, current⟩, previous⟩
    have written := pending.set_current valid (.inr rfl)
    rw [name] at written
    have before : Publishing old new next := .inr (.inl pending)
    apply Holds.bind
    apply holds_replaceAtomically before (.inr (.inl written))
    · exact fun _ => holds_restoreTransaction_settled between (.inr ⟨pending, current⟩) claimed
    · exact fun _ => ⟨.inr (.inl written), rfl, rfl, .inr (.inl written)⟩
    · apply Runs.caught
      have finish := @runs_finishTransaction fails _ _ _ _ between written (by
        rw [Function.update_of_ne (by decide)]
        exact previous) (by
        rw [Function.update_self, name]
        exact pointerOf_pointerJson between.formed.newCurrent)
      apply finish.weaken
      · rintro pin next ⟨clean, same⟩
        exact ⟨.inr (.inr clean), rfl, rfl, clean, same⟩
      · exact fun next left => ⟨left, rfl, rfl, left⟩
  · exact fun next left => holds_restoreTransaction_settled between left claimed

end Transaction

end Baas.Repository
