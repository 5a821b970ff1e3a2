import Baas.Repository.PublishJsonRead
import Baas.Repository.Updater

/-! What the files of the state root hold, and what the smaller programs of the updater do
to them. -/
namespace Baas.Repository

open JsonText Durable

/-! Lengths. -/

theorem length_quotedByte (c : UInt8) : (quotedByte c).length ≤ 2 := by
  unfold quotedByte
  split <;> simp

theorem length_flatMap_quotedByte (value : Text) :
    (value.flatMap quotedByte).length ≤ 2 * value.length := by
  induction value with
  | nil => exact Nat.zero_le _
  | cons c more ih =>
    have one := length_quotedByte c
    rw [List.flatMap_cons, List.length_append, List.length_cons]
    omega

theorem length_quoteJson (value : Text) : (quoteJson value).length ≤ 2 * value.length + 2 := by
  have quoted := length_flatMap_quotedByte value
  have whole := congrArg List.length (quoteJson_append value [])
  rw [List.append_nil] at whole
  simp only [List.length_cons, List.length_append, List.length_nil] at whole
  omega

theorem length_line (name : String) (value : Text) :
    (line name value).length ≤ 2 * (ascii name).length + 7 + value.length := by
  have quoted := length_quoteJson (ascii name)
  rw [line_eq]
  simp only [List.length_cons, List.length_append]
  omega

section Pointers

variable {pointer : Pointer}

theorem length_pointer (valid : validPointer pointer = true) :
    pointer.generation.length = 64 ∧ pointer.snapshot.length = 79 := by
  unfold validPointer lowerHex at valid
  simp only [Bool.and_eq_true, decide_eq_true_eq] at valid
  have folder : (ascii "snapshots/").length = 10 := by rw [ascii_eq]; decide
  have extension : (ascii ".json").length = 5 := by rw [ascii_eq]; decide
  refine ⟨valid.1.1, ?_⟩
  rw [valid.2, List.length_append, List.length_append, valid.1.1, folder, extension]

theorem length_pointerJson (valid : validPointer pointer = true) :
    (pointerJson pointer).length ≤ 500 := by
  have parts := length_pointer valid
  have names : (ascii "schema").length = 6 ∧ (ascii "generation").length = 10 ∧
      (ascii "snapshot").length = 8 ∧ currentSchema.length = 36 := by
    simp only [currentSchema, ascii_eq]
    decide
  have schema := length_line "schema" (quoteJson currentSchema)
  have generation := length_line "generation" (quoteJson pointer.generation)
  have snapshot := length_line "snapshot" (quoteJson pointer.snapshot)
  have quoted := length_quoteJson currentSchema
  have quotedGeneration := length_quoteJson pointer.generation
  have quotedSnapshot := length_quoteJson pointer.snapshot
  unfold pointerJson
  simp only [List.length_append, opening_eq, comma_eq, closing_eq, List.length_cons,
    List.length_nil]
  omega

theorem length_optionalPointerJson {pointer : Option Pointer} (valid : ValidOptional pointer) :
    (optionalPointerJson pointer).length ≤ 500 := by
  cases pointer with
  | none =>
    simp only [optionalPointerJson, ascii_eq]
    decide
  | some pointer =>
    have whole := length_pointerJson (valid pointer rfl)
    rw [optionalPointerJson, List.length_dropLast]
    omega

theorem length_journalJson {journal : Journal} (formed : WellFormed journal) :
    (journalJson journal).length ≤ maxStateJsonBytes := by
  have names : (ascii "schema").length = 6 ∧ (ascii "operation").length = 9 ∧
      (ascii "phase").length = 5 ∧ (ascii "old_previous").length = 12 ∧
      (ascii "old_current").length = 11 ∧ (ascii "new_previous").length = 12 ∧
      (ascii "new_current").length = 11 ∧ journalSchema.length = 44 := by
    simp only [journalSchema, ascii_eq]
    decide
  have texts : journal.operation.length ≤ 8 ∧ journal.phase.length ≤ 17 := by
    have relationship := formed.relationship
    have lengths : publishOperation.length = 7 ∧ rollbackOperation.length = 8 ∧
        prepared.length = 8 ∧ previousReplaced.length = 17 ∧ currentReplaced.length = 16 := by
      simp only [publishOperation, rollbackOperation, prepared, previousReplaced, currentReplaced,
        ascii_eq]
      decide
    unfold validJournal at relationship
    simp only [Bool.and_eq_true, Bool.or_eq_true, decide_eq_true_eq] at relationship
    obtain ⟨⟨⟨operation | operation, (phase | phase) | phase⟩, -⟩, -⟩ := relationship <;>
      rw [operation, phase] <;> omega
  have schema := length_line "schema" (quoteJson journalSchema)
  have operation := length_line "operation" (quoteJson journal.operation)
  have phase := length_line "phase" (quoteJson journal.phase)
  have oldPrevious := length_line "old_previous" (optionalPointerJson journal.oldPrevious)
  have oldCurrent := length_line "old_current" (optionalPointerJson journal.oldCurrent)
  have newPrevious := length_line "new_previous" (optionalPointerJson journal.newPrevious)
  have newCurrent := length_line "new_current" (optionalPointerJson journal.newCurrent)
  have quotedSchema := length_quoteJson journalSchema
  have quotedOperation := length_quoteJson journal.operation
  have quotedPhase := length_quoteJson journal.phase
  have first := length_optionalPointerJson formed.oldPrevious
  have second := length_optionalPointerJson formed.oldCurrent
  have third := length_optionalPointerJson formed.newPrevious
  have fourth : (optionalPointerJson journal.newCurrent).length ≤ 500 := by
    apply length_optionalPointerJson
    rintro p ⟨⟩
    exact formed.newCurrent
  unfold journalJson maxStateJsonBytes
  simp only [List.length_append, opening_eq, comma_eq, closing_eq, List.length_cons,
    List.length_nil]
  omega

/-! What a file holds. -/

/-- What `read_pointer` makes of a file, `none` when it throws. -/
def pointerOf : Option Text → Option (Option Pointer)
  | none => some none
  | some bytes =>
    if bytes.length ≤ maxStateJsonBytes then
      ((parse bytes >>= parsePointer).toOption).map some
    else none

theorem parsePointer_valid {json : Json} (read : parsePointer json = .ok pointer) :
    validPointer pointer = true := by
  unfold parsePointer at read
  cases members : asObject json with
  | error message => simp [members, bind, Except.bind] at read
  | ok value =>
    cases names : exactMembers value [ascii "schema", ascii "generation", ascii "snapshot"] with
    | error message => simp [members, names, bind, Except.bind] at read
    | ok _ =>
      simp only [members, names, bind, Except.bind] at read
      split at read
      · cases read
      · split at read
        · cases read
        · split at read
          · cases read
          · split at read
            · cases read
            · split at read
              · cases read
              · next valid =>
                cases read
                simpa using valid

theorem parse_bind_valid {bytes : Text} (read : (parse bytes >>= parsePointer) = .ok pointer) :
    validPointer pointer = true := by
  cases parsed : parse bytes with
  | error message => simp [parsed, bind, Except.bind] at read
  | ok json =>
    simp only [parsed, bind, Except.bind] at read
    exact parsePointer_valid read

theorem pointerOf_valid {bytes : Option Text} {pointer : Option Pointer}
    (held : pointerOf bytes = some pointer) : ValidOptional pointer := by
  rintro p ⟨⟩
  cases bytes with
  | none => cases held
  | some bytes =>
    rw [pointerOf] at held
    by_cases short : bytes.length ≤ maxStateJsonBytes
    · rw [if_pos short] at held
      cases read : (parse bytes >>= parsePointer) with
      | error message =>
        rw [read] at held
        cases held
      | ok found =>
        rw [read] at held
        cases held
        exact parse_bind_valid read
    · rw [if_neg short] at held
      cases held

theorem pointerOf_pointerJson (valid : validPointer pointer = true) :
    pointerOf (some (pointerJson pointer)) = some (some pointer) := by
  have short : (pointerJson pointer).length ≤ maxStateJsonBytes := by
    have bound := length_pointerJson valid
    unfold maxStateJsonBytes
    omega
  rw [pointerOf, if_pos short, parsePointer_pointerJson valid]
  rfl

theorem pointerOf_optional {pointer : Option Pointer} (valid : ValidOptional pointer) :
    pointerOf (pointer.map pointerJson) = some pointer := by
  cases pointer with
  | none => rfl
  | some pointer => exact pointerOf_pointerJson (valid pointer rfl)

end Pointers

/-! What the tasks do. `fails` says whether anything may fail. -/

section Rules

variable {fails : Prop} {crashed thrown : Root → Prop} {root : Root}

theorem runs_attempt {after : Unit → Root → Prop} (cut : crashed root)
    (no : fails → thrown root) (yes : after () root) :
    Runs (stateRoot fails) crashed attempt after thrown root := by
  apply Runs.op cut
  rintro (_ | _) next ⟨may, rfl⟩
  · exact ⟨cut, no (may rfl)⟩
  · exact ⟨cut, yes⟩

theorem runs_removeFile {file : File} {after : Unit → Root → Prop} (cut : crashed root)
    (removed : crashed (Function.update root file none)) (no : fails → thrown root)
    (unsynced : fails → thrown (Function.update root file none))
    (yes : after () (Function.update root file none)) :
    Runs (stateRoot fails) crashed (removeFile file) after thrown root := by
  apply Runs.seq
  apply Runs.op cut
  rintro (_ | _) next ⟨may, rfl⟩
  · exact ⟨cut, no (may rfl)⟩
  · exact ⟨removed, runs_attempt removed unsynced yes⟩

/-- `replaceAtomically` has replaced the file when its flag says so, and nothing fails but for
a reason. -/
theorem holds_replaceAtomically {file : File} {bytes : Text}
    {after : Bool × Option Unit → Root → Prop} (cut : crashed root)
    (replaced : crashed (Function.update root file (some bytes)))
    (no : (fails ∨ maxStateJsonBytes < bytes.length) → after (false, none) root)
    (unsynced : fails → after (true, none) (Function.update root file (some bytes)))
    (yes : after (true, some ()) (Function.update root file (some bytes))) :
    Holds (stateRoot fails) crashed (replaceAtomically file bytes) after root := by
  unfold replaceAtomically
  by_cases short : bytes.length ≤ maxStateJsonBytes
  · rw [if_pos short]
    refine ⟨cut, ?_⟩
    rintro (_ | _) next ⟨may, rfl⟩
    · exact ⟨cut, no (.inl (may rfl))⟩
    · refine ⟨cut, ?_⟩
      rintro (_ | _) next ⟨may, rfl⟩
      · exact ⟨cut, no (.inl (may rfl))⟩
      · refine ⟨replaced, ?_⟩
        rintro (_ | _) next ⟨may, rfl⟩
        · exact ⟨replaced, unsynced (may rfl)⟩
        · exact ⟨replaced, yes⟩
  · rw [if_neg short]
    exact ⟨cut, no (.inr (Nat.lt_of_not_le short))⟩

theorem runs_writeAtomically {file : File} {bytes : Text} {after : Unit → Root → Prop}
    (cut : crashed root) (replaced : crashed (Function.update root file (some bytes)))
    (no : (fails ∨ maxStateJsonBytes < bytes.length) → thrown root)
    (unsynced : fails → thrown (Function.update root file (some bytes)))
    (yes : after () (Function.update root file (some bytes))) :
    Runs (stateRoot fails) crashed (writeAtomically file bytes) after thrown root := by
  apply Holds.bind
  apply holds_replaceAtomically cut replaced
  · exact fun may => ⟨cut, no may⟩
  · exact fun may => ⟨replaced, unsynced may⟩
  · exact ⟨replaced, yes⟩

theorem runs_writeOptionalPointer {file : File} {pointer : Option Pointer}
    {after : Unit → Root → Prop} (valid : ValidOptional pointer) (cut : crashed root)
    (written : crashed (Function.update root file (pointer.map pointerJson)))
    (no : fails → thrown root)
    (unsynced : fails → thrown (Function.update root file (pointer.map pointerJson)))
    (yes : after () (Function.update root file (pointer.map pointerJson))) :
    Runs (stateRoot fails) crashed (writeOptionalPointer file pointer) after thrown root := by
  cases pointer with
  | none => exact runs_removeFile cut written no unsynced yes
  | some pointer =>
    apply runs_writeAtomically cut written _ unsynced yes
    rintro (may | long)
    · exact no may
    · have bound := length_pointerJson (valid pointer rfl)
      unfold maxStateJsonBytes at long
      omega

theorem runs_readAnchoredFile {bytes : Text} {after : Text → Root → Prop} (cut : crashed root)
    (no : (fails ∨ maxStateJsonBytes < bytes.length) → thrown root)
    (yes : bytes.length ≤ maxStateJsonBytes → after bytes root) :
    Runs (stateRoot fails) crashed (readAnchoredFile bytes) after thrown root := by
  apply Runs.seq
  apply runs_attempt cut (fun may => no (.inl may))
  apply Runs.seq
  apply Runs.check cut
  · intro long
    exact no (.inr (by simpa using long))
  · intro short
    exact Runs.pure cut (yes (by simpa using short))

theorem runs_decode {α : Type} {decoded : Except String α} {after : α → Root → Prop}
    (cut : crashed root) (no : decoded.toOption = none → thrown root)
    (yes : ∀ a, decoded.toOption = some a → after a root) :
    Runs (stateRoot fails) crashed (decode decoded) after thrown root :=
  Runs.ofOption cut no yes

theorem runs_readPointer {file : File} {after : Option Pointer → Root → Prop}
    (cut : crashed root) (no : (fails ∨ pointerOf (root file) = none) → thrown root)
    (yes : ∀ pointer, pointerOf (root file) = some pointer → after pointer root) :
    Runs (stateRoot fails) crashed (readPointer file) after thrown root := by
  apply Runs.seq
  apply runs_attempt cut (fun may => no (.inl may))
  apply Runs.seq
  apply Runs.look cut
  cases held : root file with
  | none =>
    rw [held] at yes
    exact Runs.pure cut (yes none rfl)
  | some bytes =>
    rw [held] at no yes
    apply Runs.seq
    apply runs_readAnchoredFile cut
    · rintro (may | long)
      · exact no (.inl may)
      · apply no
        right
        rw [pointerOf, if_neg (Nat.not_le_of_lt long)]
    · intro short
      rw [pointerOf, if_pos short] at no yes
      apply Runs.seq
      apply runs_decode cut
      · intro bad
        apply no
        right
        rw [bad]
        rfl
      · intro pointer good
        apply Runs.pure cut
        apply yes
        rw [good]
        rfl

theorem runs_loadPin {after : Option Text → Root → Prop} (cut : crashed root)
    (no : (fails ∨ pointerOf (root .current) = none) → thrown root)
    (yes : ∀ pointer, pointerOf (root .current) = some pointer →
      after (pointer.map Pointer.generation) root) :
    Runs (stateRoot fails) crashed loadPin after thrown root := by
  apply Runs.seq
  apply runs_attempt cut (fun may => no (.inl may))
  apply Runs.seq
  apply runs_readPointer cut no
  intro pointer held
  apply Runs.seq
  apply runs_attempt cut (fun may => no (.inl may))
  exact Runs.pure cut (yes pointer held)

end Rules

end Baas.Repository
