import Baas.Repository.UpdaterSteps

/-! Calls of the updater one after the other, each of which may fail or be cut by a crash. -/
namespace Baas.Repository

open JsonText Durable

/-! What a call looks at. -/

theorem hexDigits_lower : hexDigits.length = 16 ∧
    hexDigits.all (fun c => 48 ≤ c && c ≤ 57 || 97 ≤ c && c ≤ 102) = true := by
  decide +kernel

theorem lower_hexDigit (n : Nat) (small : n < 16) :
    (fun c : UInt8 => 48 ≤ c && c ≤ 57 || 97 ≤ c && c ≤ 102) (hexDigits.getD n 0) = true := by
  have inside : n < hexDigits.length := by
    rw [hexDigits_lower.1]
    exact small
  rw [List.getD_eq_getElem?_getD, List.getElem?_eq_getElem inside, Option.getD_some]
  exact List.all_eq_true.mp hexDigits_lower.2 _ (List.getElem_mem inside)

theorem length_hex (digest : List UInt8) : (hex digest).length = 2 * digest.length := by
  induction digest with
  | nil => rfl
  | cons byte more ih =>
    unfold hex at ih ⊢
    rw [List.flatMap_cons, List.length_append, ih, List.length_cons, List.length_cons,
      List.length_cons, List.length_nil]
    omega

theorem all_hex (digest : List UInt8) :
    (hex digest).all (fun c => 48 ≤ c && c ≤ 57 || 97 ≤ c && c ≤ 102) = true := by
  rw [List.all_eq_true]
  intro c there
  unfold hex at there
  rw [List.mem_flatMap] at there
  obtain ⟨byte, -, digit⟩ := there
  have bound := UInt8.toNat_lt byte
  simp only [List.mem_cons, List.not_mem_nil, or_false] at digit
  obtain rfl | rfl := digit
  · exact lower_hexDigit _ (by omega)
  · exact lower_hexDigit _ (by omega)

/-- What a digest of SHA-256 is. -/
structure Digest where
  bytes : List UInt8
  size : bytes.length = 32

def Digest.generation (digest : Digest) : Text := hex digest.bytes

theorem Digest.lowerHex (digest : Digest) : lowerHex digest.generation 64 = true := by
  unfold Repository.lowerHex Digest.generation
  rw [all_hex, length_hex, digest.size]
  rfl

theorem Digest.validPointer (digest : Digest) :
    validPointer (snapshotPointer digest.generation) = true := by
  unfold Repository.validPointer snapshotPointer
  rw [digest.lowerHex]
  simp

section Finding

variable {fails : Prop} {pair : Pair} {root : Root}

/-- What an update of a pair leads to. -/
def published (pair : Pair) (generation : Text) : Pair :=
  (pair.2, some (snapshotPointer generation))

theorem between_publish (digest : Digest) (previous : ValidOptional pair.1)
    (current : ValidOptional pair.2) :
    Journal.Between ⟨publishOperation, prepared, pair.1, pair.2, pair.2,
      snapshotPointer digest.generation⟩ pair (published pair digest.generation) where
  formed := ⟨previous, current, current, digest.validPointer, by
    have other : publishOperation ≠ rollbackOperation := by
      simp only [publishOperation, rollbackOperation, ascii_eq]
      decide
    simp [validJournal, other]⟩
  old := rfl
  new := rfl

theorem between_rollback {previous current : Pointer} (first : validPointer previous = true)
    (second : validPointer current = true) :
    Journal.Between ⟨rollbackOperation, prepared, some previous, some current, some current,
      previous⟩ (some previous, some current) (some current, some previous) where
  formed := by
    refine ⟨?_, ?_, ?_, first, ?_⟩
    · rintro p ⟨⟩
      exact first
    · rintro p ⟨⟩
      exact second
    · rintro p ⟨⟩
      exact second
    · simp [validJournal]
  old := rfl
  new := rfl

theorem runs_findUpdate (expected : ExpectedCurrent) (digest : Digest)
    (clean : Clean pair root) :
    Runs (stateRoot fails) (Clean pair) (findUpdate expected digest.generation)
      (fun found next => Clean pair next ∧ checkExpectation pair.2 expected = true ∧
        match found with
        | .same pin => pair.2.map Pointer.generation = some digest.generation ∧
          pin = some digest.generation
        | .changed journal => pair.2.map Pointer.generation ≠ some digest.generation ∧
          journal.newCurrent.generation = digest.generation ∧
          journal.Between pair (published pair digest.generation))
      (Clean pair) root := by
  apply Runs.seq
  apply runs_loadPin clean (fun _ => clean)
  intro _ _
  apply Runs.seq
  apply runs_attempt clean (fun _ => clean)
  apply Runs.seq
  apply runs_readPointer clean (fun _ => clean)
  intro old_current held
  rw [clean.current] at held
  cases held
  apply Runs.seq
  apply Runs.check clean (fun _ => clean)
  intro expectation
  apply Runs.seq
  apply runs_attempt clean (fun _ => clean)
  by_cases same : pair.2.map Pointer.generation = some digest.generation
  · rw [if_pos same]
    apply Runs.seq
    apply runs_loadPin clean (fun _ => clean)
    intro pin held
    rw [clean.current] at held
    cases held
    exact Runs.pure clean ⟨clean, expectation, same, same⟩
  · rw [if_neg same]
    apply Runs.seq
    apply runs_attempt clean (fun _ => clean)
    apply Runs.seq
    apply runs_readPointer clean (fun _ => clean)
    intro old_previous held
    rw [clean.previous] at held
    cases held
    exact Runs.pure clean ⟨clean, expectation, same, rfl,
      between_publish digest (pointerOf_valid clean.previous) (pointerOf_valid clean.current)⟩

theorem runs_findRollback (expected : ExpectedCurrent) (clean : Clean pair root) :
    Runs (stateRoot fails) (Clean pair) (findRollback expected)
      (fun journal next => Clean pair next ∧ checkExpectation pair.2 expected = true ∧
        pair.1.isSome = true ∧ journal.Between pair pair.swap)
      (Clean pair) root := by
  have validPrevious := pointerOf_valid clean.previous
  have validCurrent := pointerOf_valid clean.current
  apply Runs.seq
  apply runs_loadPin clean (fun _ => clean)
  intro _ _
  apply Runs.seq
  apply runs_attempt clean (fun _ => clean)
  apply Runs.seq
  apply runs_readPointer clean (fun _ => clean)
  intro current held
  rw [clean.current] at held
  cases held
  apply Runs.seq
  apply Runs.check clean (fun _ => clean)
  intro expectation
  apply Runs.seq
  apply Runs.ofOption clean (fun _ => clean)
  intro current isCurrent
  apply Runs.seq
  apply runs_readPointer clean (fun _ => clean)
  intro previous held
  rw [clean.previous] at held
  cases held
  apply Runs.seq
  apply Runs.ofOption clean (fun _ => clean)
  intro previous isPrevious
  apply Runs.seq
  apply runs_attempt clean (fun _ => clean)
  have whole : pair = (some previous, some current) := by
    rw [← isPrevious, ← isCurrent]
  refine Runs.pure clean ⟨clean, expectation, ?_, ?_⟩
  · rw [isPrevious]
    rfl
  · rw [whole]
    exact between_rollback (validPrevious previous isPrevious) (validCurrent current isCurrent)

end Finding

section Transaction

variable {κ : Type} {fails : Prop} {old new : Pair} {root : Root} {journal : Journal}

theorem holds_claimPublication (claim : Option (CommitClaim κ)) (generation : Text)
    (clean : Clean old root) :
    Holds (stateRoot fails) (Clean old) (claimPublication claim generation)
      (fun _ next => Clean old next) root := by
  cases claim with
  | none => exact ⟨clean, clean⟩
  | some claim =>
    refine ⟨clean, ?_⟩
    rintro (_ | _) next ⟨-, rfl⟩
    · exact ⟨clean, clean⟩
    · apply Holds.bind
      apply Holds.post (Holds.only (claim.foreign generation) _ clean)
      · exact fun _ next clean => ⟨clean, clean⟩
      · rintro op s ok t foreign ⟨-, rfl⟩ clean
        cases ok with
        | false => exact clean
        | true => exact clean.foreign foreign

theorem holds_transaction (claim : Option (CommitClaim κ)) (between : journal.Between old new)
    (clean : Clean old root) :
    Holds (stateRoot fails) (Publishing old new) (transaction claim journal)
      (fun answer next => ∃ claimed, Settled old new claimed answer next) root := by
  apply Holds.bind
  apply (holds_claimPublication claim journal.newCurrent.generation clean).weaken
  · exact fun next clean => .inl clean
  · rintro ⟨claimed, accepted⟩ next clean
    cases accepted with
    | false =>
      apply Holds.post (holds_restoreTransaction_settled between (.inl clean) claimed)
      exact fun answer next settled => ⟨claimed, settled⟩
    | true =>
      apply Holds.post (holds_publication between clean claimed)
      exact fun answer next settled => ⟨claimed, settled⟩

end Transaction

/-! The ledger: which pair the last publication or rollback that took effect has left, and
which pair a pending journal leads to. -/

structure Ledger where
  pair : Pair
  pending : Option Pair

/-- A pending journal is completed. -/
def Ledger.recovered (ledger : Ledger) : Ledger := ⟨ledger.pending.getD ledger.pair, none⟩

def Explained (ledger : Ledger) (root : Root) : Prop :=
  match ledger.pending with
  | none => Clean ledger.pair root
  | some new => Pending ledger.pair new root

inductive Call (κ : Type)
  | update (claim : Option (CommitClaim κ)) (policy : RecoveryPolicy)
      (expected : ExpectedCurrent) (target : Digest)
  | rollback (expected : ExpectedCurrent)
  | recover

section Calls

variable {κ : Type}

def Call.program : Call κ → Prog Root Op (UpdateResult κ)
  | .update claim policy expected target =>
    Repository.update claim policy expected target.generation
  | .rollback expected => Repository.rollback expected
  | .recover => Repository.recover

/-- The pairs that a call may publish in place of a pair. -/
def Call.Follows (call : Call κ) (old new : Pair) : Prop :=
  match call with
  | .update _ _ expected target => checkExpectation old.2 expected = true ∧
    new = published old target.generation
  | .rollback expected => checkExpectation old.2 expected = true ∧ old.1.isSome = true ∧
    new = old.swap
  | .recover => False

/-- Whether a call completes a pending journal before it does anything else. -/
def Call.recovers : Call κ → Bool
  | .update claim policy _ _ => policy = .recoverPending && claim.isNone
  | .rollback _ => true
  | .recover => true

/-- A transaction of the call may have left the ledger like this. -/
def Call.Reaches (call : Call κ) (before after : Ledger) : Prop :=
  after = before ∨ before.pending = none ∧ ∃ new, call.Follows before.pair new ∧
    (after = ⟨before.pair, some new⟩ ∨ after = ⟨new, none⟩)

/-- What `committed` means for a call, `middle` being the ledger once a pending journal is
completed. -/
def Call.Commits (call : Call κ) (before middle after : Ledger) : Prop :=
  match call with
  | .update _ _ _ target => middle.pending = none ∧
    ((∃ new, call.Follows middle.pair new ∧ after = ⟨new, none⟩) ∨
      after = middle ∧ middle.pair.2.map Pointer.generation = some target.generation)
  | .rollback _ => middle.pending = none ∧ ∃ new, call.Follows middle.pair new ∧
    after = ⟨new, none⟩
  | .recover => before.pending.isSome = true ∧ after = before.recovered

/-- What a call does to the ledger. A call that was cut has no answer. -/
def Call.Accounts (call : Call κ) (before : Ledger) (answer : Option (UpdateResult κ))
    (after : Ledger) : Prop :=
  ∃ middle, (middle = before ∨ call.recovers = true ∧ middle = before.recovered) ∧
    match answer.map UpdateResult.disposition with
    | none => call.Reaches middle after
    | some .notCommitted => after = middle
    | some .committed => call.Commits before middle after
    | some .committedDurabilityUncertain => call.Reaches middle after

inductive Run : Root → List (Call κ × Option (UpdateResult κ)) → Root → Prop
  | nil {root : Root} : Run root [] root
  | snoc {root middle last : Root} {calls : List (Call κ × Option (UpdateResult κ))}
      {call : Call κ} {answer : Option (UpdateResult κ)} :
      Run root calls middle → Exec (stateRoot True) call.program middle answer last →
      Run root (calls ++ [(call, answer)]) last

inductive History : Ledger → List (Call κ × Option (UpdateResult κ)) → Ledger → Prop
  | nil {ledger : Ledger} : History ledger [] ledger
  | snoc {first middle last : Ledger} {calls : List (Call κ × Option (UpdateResult κ))}
      {call : Call κ} {answer : Option (UpdateResult κ)} :
      History first calls middle → call.Accounts middle answer last →
      History first (calls ++ [(call, answer)]) last

/-! One call. -/

variable {fails : Prop} {ledger : Ledger} {root : Root}

theorem Explained.clean (explained : Explained ledger root)
    (settled : ledger.pending = none) : Clean ledger.pair root := by
  unfold Explained at explained
  rw [settled] at explained
  exact explained

theorem explained_clean {pair : Pair} (clean : Clean pair root) : Explained ⟨pair, none⟩ root :=
  clean

/-- `recover_pending` completes the ledger or answers that it failed. -/
theorem holds_recoverPending_ledger (explained : Explained ledger root) :
    Holds (stateRoot fails)
      (fun next => Explained ledger next ∨ Explained ledger.recovered next) recoverPending
      (fun answer next => match answer with
        | .ok () => Explained ledger.recovered next
        | .error disposition => fails ∧
          (disposition = .notCommitted ∧ Explained ledger next ∨
            disposition = .committedDurabilityUncertain ∧
              (Explained ledger next ∨ Explained ledger.recovered next))) root := by
  obtain ⟨pair, pending⟩ := ledger
  cases pending with
  | none =>
    apply (holds_recoverPending_clean explained).weaken
    · exact fun next clean => .inl clean
    · rintro (disposition | ⟨⟩) next ⟨clean, failed⟩
      · obtain ⟨may, rfl⟩ := failed disposition rfl
        exact ⟨may, .inl ⟨rfl, clean⟩⟩
      · exact clean
  | some new =>
    apply (holds_recoverPending explained).weaken
    · exact fun next recovering => recovering
    · rintro (disposition | ⟨⟩) next held
      · exact held
      · exact held

/-- A call may leave the ledger as it was, or completed. -/
theorem Call.Accounts.unchanged {call : Call κ} {answer : Option (UpdateResult κ)}
    (which : answer.map UpdateResult.disposition ≠ some .committed) :
    call.Accounts ledger answer ledger := by
  refine ⟨ledger, .inl rfl, ?_⟩
  cases same : answer.map UpdateResult.disposition with
  | none => exact .inl rfl
  | some disposition =>
    cases disposition with
    | notCommitted => rfl
    | committed => exact absurd same which
    | committedDurabilityUncertain => exact .inl rfl

theorem Call.Accounts.completed {call : Call κ} {answer : Option (UpdateResult κ)}
    (recovers : call.recovers = true)
    (which : answer.map UpdateResult.disposition ≠ some .committed) :
    call.Accounts ledger answer ledger.recovered := by
  refine ⟨ledger.recovered, .inr ⟨recovers, rfl⟩, ?_⟩
  cases same : answer.map UpdateResult.disposition with
  | none => exact .inl rfl
  | some disposition =>
    cases disposition with
    | notCommitted => rfl
    | committed => exact absurd same which
    | committedDurabilityUncertain => exact .inl rfl

/-- What a call leaves on the disk, with its answer or cut. -/
def Call.Leaves (call : Call κ) (ledger : Ledger) (answer : Option (UpdateResult κ))
    (root : Root) : Prop :=
  ∃ after, call.Accounts ledger answer after ∧ Explained after root

/-- The transaction of a call, once no journal is pending. -/
theorem holds_call_transaction {call : Call κ} {middle : Ledger} {new : Pair}
    {journal : Journal} (claim : Option (CommitClaim κ))
    (which : middle = ledger ∨ call.recovers = true ∧ middle = ledger.recovered)
    (settled : middle.pending = none) (follows : call.Follows middle.pair new)
    (between : journal.Between middle.pair new) (explained : Explained middle root) :
    Holds (stateRoot fails) (call.Leaves ledger none) (transaction claim journal)
      (fun answer next => call.Leaves ledger (some answer) next) root := by
  have reach (next : Root) (publishing : Publishing middle.pair new next) :
      ∃ after, call.Reaches middle after ∧ Explained after next := by
    obtain clean | pending | clean := publishing
    · refine ⟨middle, .inl rfl, ?_⟩
      unfold Explained
      rw [settled]
      exact clean
    · exact ⟨⟨middle.pair, some new⟩, .inr ⟨settled, new, follows, .inl rfl⟩, pending⟩
    · exact ⟨⟨new, none⟩, .inr ⟨settled, new, follows, .inr rfl⟩, clean⟩
  apply (holds_transaction claim between (explained.clean settled)).weaken
  · intro next publishing
    obtain ⟨after, reaches, left⟩ := reach next publishing
    exact ⟨after, ⟨middle, which, reaches⟩, left⟩
  · rintro ⟨succeeded, disposition, pin, _⟩ next ⟨claimed, rfl, held⟩
    cases disposition with
    | notCommitted =>
      refine ⟨middle, ⟨middle, which, rfl⟩, ?_⟩
      unfold Explained
      rw [settled]
      exact held.2
    | committed =>
      refine ⟨⟨new, none⟩, ⟨middle, which, ?_⟩, held.2.1⟩
      cases call with
      | update claim policy expected target => exact ⟨settled, .inl ⟨new, follows, rfl⟩⟩
      | rollback expected => exact ⟨settled, new, follows, rfl⟩
      | recover => exact follows.elim
    | committedDurabilityUncertain =>
      obtain ⟨after, reaches, left⟩ := reach next held.2
      exact ⟨after, ⟨middle, which, reaches⟩, left⟩

/-- An answer that nothing was committed, given where the ledger is the old or completed one. -/
theorem leaves_failed {call : Call κ} {answer : Option (UpdateResult κ)}
    (which : answer.map UpdateResult.disposition ≠ some .committed)
    (explained : Explained ledger root ∨
      call.recovers = true ∧ Explained ledger.recovered root) :
    call.Leaves ledger answer root := by
  obtain explained | ⟨recovers, explained⟩ := explained
  · exact ⟨ledger, .unchanged which, explained⟩
  · exact ⟨ledger.recovered, .completed recovers which, explained⟩

/-- Recovery at the start of a call. -/
theorem holds_call_recoverPending {call : Call κ} {rest : Prog Root Op (UpdateResult κ)}
    (recovers : call.recovers = true) (explained : Explained ledger root)
    (next : ∀ next, Explained ledger.recovered next →
      Holds (stateRoot fails) (call.Leaves ledger none) rest
        (fun answer next => call.Leaves ledger (some answer) next) next) :
    Holds (stateRoot fails) (call.Leaves ledger none)
      (recoverPending.bind (whenRecovered rest))
      (fun answer next => call.Leaves ledger (some answer) next) root := by
  apply Holds.bind
  apply (holds_recoverPending_ledger explained).weaken
  · intro next held
    exact leaves_failed nofun (held.imp id (fun held => ⟨recovers, held⟩))
  · rintro (disposition | ⟨⟩) last held
    · obtain ⟨-, ⟨rfl, held⟩ | ⟨rfl, held⟩⟩ := held
      · exact ⟨leaves_failed nofun (.inl held), leaves_failed nofun (.inl held)⟩
      · have either := held.imp id (fun held => And.intro recovers held)
        exact ⟨leaves_failed nofun either, leaves_failed nofun either⟩
    · exact next last held

theorem holds_locked {crashed : Root → Prop} {after : UpdateResult κ → Root → Prop}
    {rest : Prog Root Op (UpdateResult κ)} (cut : crashed root)
    (no : fails → after (errorResult .notCommitted none) root)
    (yes : Holds (stateRoot fails) crashed rest after root) :
    Holds (stateRoot fails) crashed (locked rest) after root := by
  refine ⟨cut, ?_⟩
  rintro (_ | _) next ⟨may, same⟩
  · cases same
    exact ⟨cut, no (may rfl)⟩
  · cases same
    exact yes

theorem holds_requireClean {crashed : Root → Prop}
    {after : Except PublishDisposition Unit → Root → Prop} (cut : crashed root)
    (no : after (.error .notCommitted) root)
    (yes : root .publishJournal = none → after (.ok ()) root) :
    Holds (stateRoot fails) crashed requireClean after root := by
  refine ⟨cut, ?_⟩
  rintro (_ | _) next ⟨may, same⟩
  · cases same
    exact ⟨cut, no⟩
  · cases same
    refine ⟨cut, ?_⟩
    change after (if (root .publishJournal).isSome then _ else _) root
    by_cases there : (root .publishJournal).isSome = true
    · rw [if_pos there]
      exact no
    · rw [if_neg there]
      exact yes (by simpa using there)

theorem unanswered_open {κ : Type} :
    (none : Option (UpdateResult κ)).map UpdateResult.disposition ≠ some .committed := by
  rintro ⟨⟩

theorem refused_open {κ : Type} :
    (some (errorResult .notCommitted none : UpdateResult κ)).map UpdateResult.disposition ≠
      some .committed := by
  rintro ⟨⟩

/-- What follows the recovery, from the ledger it leaves. -/
theorem holds_foundUpdate {claim : Option (CommitClaim κ)} {policy : RecoveryPolicy}
    {expected : ExpectedCurrent} {target : Digest} {middle : Ledger}
    (which : middle = ledger ∨ (Call.update claim policy expected target : Call κ).recovers = true ∧
      middle = ledger.recovered)
    (settled : middle.pending = none) (explained : Explained middle root) :
    let call : Call κ := .update claim policy expected target
    Holds (stateRoot fails) (call.Leaves ledger none)
      (Prog.bind (findUpdate expected target.generation) (fun
        | none => .done (errorResult .notCommitted none)
        | some (.same pin) => .done ⟨true, .committed, pin, none⟩
        | some (.changed journal) => transaction claim journal))
      (fun answer next => call.Leaves ledger (some answer) next) root := by
  intro call
  have stays (next : Root) (clean : Clean middle.pair next) : Explained middle next := by
    unfold Explained
    rw [settled]
    exact clean
  have failed (answer : Option (UpdateResult κ))
      (not : answer.map UpdateResult.disposition ≠ some .committed) (next : Root)
      (clean : Clean middle.pair next) : call.Leaves ledger answer next := by
    apply leaves_failed not
    obtain rfl | ⟨recovers, rfl⟩ := which
    · exact .inl (stays next clean)
    · exact .inr ⟨recovers, stays next clean⟩
  have cutHere := failed none unanswered_open
  apply Runs.caught
  apply Runs.weaken
    ((runs_findUpdate expected target (explained.clean settled)).cut cutHere)
  · rintro (pin | journal) next ⟨clean, expectation, found⟩
    · refine ⟨cutHere next clean, middle, ⟨middle, which, ?_⟩, stays next clean⟩
      exact ⟨settled, .inr ⟨rfl, found.1⟩⟩
    · exact holds_call_transaction claim which settled ⟨expectation, rfl⟩ found.2.2
        (stays next clean)
  · intro next clean
    exact ⟨cutHere next clean, failed _ refused_open next clean⟩

theorem holds_update (claim : Option (CommitClaim κ)) (policy : RecoveryPolicy)
    (expected : ExpectedCurrent) (target : Digest) (explained : Explained ledger root) :
    let call : Call κ := .update claim policy expected target
    Holds (stateRoot fails) (call.Leaves ledger none) call.program
      (fun answer next => call.Leaves ledger (some answer) next) root := by
  intro call
  have here {answer : Option (UpdateResult κ)}
      (not : answer.map UpdateResult.disposition ≠ some .committed) :
      call.Leaves ledger answer root := leaves_failed not (.inl explained)
  have cut := @here none unanswered_open
  have no := @here _ refused_open
  apply holds_locked cut (fun _ => no)
  cases policy with
  | recoverPending =>
    cases claim with
    | some claim => exact ⟨cut, no⟩
    | none =>
      exact holds_call_recoverPending (show call.recovers = true from rfl) explained
        (fun _ => holds_foundUpdate (.inr ⟨rfl, rfl⟩) rfl)
  | requireClean =>
    apply Holds.bind
    apply holds_requireClean cut
    · exact ⟨cut, no⟩
    · intro absent
      have settled : ledger.pending = none := by
        cases pending : ledger.pending with
        | none => rfl
        | some new =>
          unfold Explained at explained
          rw [pending] at explained
          obtain ⟨journal, -, held⟩ := explained.journal
          rw [absent] at held
          cases held
      exact holds_foundUpdate (.inl rfl) settled explained

theorem holds_rollback (expected : ExpectedCurrent) (explained : Explained ledger root) :
    let call : Call κ := .rollback expected
    Holds (stateRoot fails) (call.Leaves ledger none) call.program
      (fun answer next => call.Leaves ledger (some answer) next) root := by
  intro call
  have here {answer : Option (UpdateResult κ)}
      (not : answer.map UpdateResult.disposition ≠ some .committed) :
      call.Leaves ledger answer root := leaves_failed not (.inl explained)
  have failed {answer : Option (UpdateResult κ)}
      (not : answer.map UpdateResult.disposition ≠ some .committed) (next : Root)
      (clean : Clean ledger.recovered.pair next) : call.Leaves ledger answer next :=
    leaves_failed not (.inr ⟨rfl, clean⟩)
  have no := @here _ refused_open
  apply holds_locked (@here none unanswered_open) (fun _ => no)
  apply holds_call_recoverPending (show call.recovers = true from rfl) explained
  intro next explained
  apply Runs.caught
  apply Runs.weaken ((runs_findRollback expected (explained.clean rfl)).cut (@failed none unanswered_open))
  · rintro journal next ⟨clean, expectation, found, between⟩
    exact holds_call_transaction none (.inr ⟨rfl, rfl⟩) rfl ⟨expectation, found, rfl⟩ between
      (explained_clean clean)
  · intro next clean
    exact ⟨@failed none unanswered_open next clean,
      @failed _ refused_open next clean⟩

/-- `recover` on what a ledger explains. It answers `committed` when a journal was there, and
fails only for a reason. -/
theorem holds_recover (explained : Explained ledger root) :
    Holds (stateRoot fails)
      (fun next => Explained ledger next ∨ Explained ledger.recovered next)
      (Repository.recover : Prog Root Op (UpdateResult κ))
      (fun answer next => if answer.succeeded then
          Explained ledger.recovered next ∧ answer.claimed.isNone = true ∧
          answer.pin = ledger.recovered.pair.2.map Pointer.generation ∧
          answer.disposition = (if ledger.pending.isSome then .committed else .notCommitted)
        else fails ∧ answer.disposition ≠ .committed ∧
          (Explained ledger next ∨ Explained ledger.recovered next)) root := by
  have had_pending : (root .publishJournal).isSome = ledger.pending.isSome := by
    unfold Explained at explained
    cases pending : ledger.pending with
    | none =>
      rw [pending] at explained
      rw [explained.journal]
      rfl
    | some new =>
      rw [pending] at explained
      obtain ⟨journal, -, held⟩ := explained.journal
      rw [held]
      rfl
  apply holds_locked (.inl explained) (fun may => ⟨may, nofun, .inl explained⟩)
  apply Holds.bind
  apply (holds_recoverPending_ledger explained).post
  rintro (disposition | ⟨⟩) last held
  · obtain ⟨may, ⟨rfl, held⟩ | ⟨rfl, held⟩⟩ := held
    · exact ⟨.inl held, may, nofun, .inl held⟩
    · exact ⟨held, may, nofun, held⟩
  · have clean : Clean ledger.recovered.pair last := held
    apply Runs.caught
    apply runs_loadPin (.inr held)
    · rintro (may | lost)
      · exact ⟨.inr held, may, nofun, .inr held⟩
      · rw [clean.current] at lost
        cases lost
    · intro pointer found
      rw [clean.current] at found
      cases found
      refine ⟨.inr held, held, rfl, rfl, ?_⟩
      rw [had_pending]

theorem holds_recover_call (explained : Explained ledger root) :
    let call : Call κ := .recover
    Holds (stateRoot fails) (call.Leaves ledger none) call.program
      (fun answer next => call.Leaves ledger (some answer) next) root := by
  intro call
  apply (holds_recover explained).weaken
  · intro next held
    exact leaves_failed nofun (held.imp id (fun held => ⟨rfl, held⟩))
  · rintro ⟨succeeded, disposition, pin, claimed⟩ next held
    cases succeeded with
    | false =>
      obtain ⟨-, other, held⟩ := held
      apply leaves_failed _ (held.imp id (fun held => ⟨rfl, held⟩))
      intro same
      exact other (Option.some.inj same)
    | true =>
      obtain ⟨held, -, -, same⟩ := held
      refine ⟨ledger.recovered, ⟨ledger.recovered, .inr ⟨rfl, rfl⟩, ?_⟩, held⟩
      simp only at same
      by_cases pending : ledger.pending.isSome = true
      · rw [if_pos pending] at same
        subst same
        exact ⟨pending, rfl⟩
      · rw [if_neg pending] at same
        subst same
        rfl

/-- Every call accounts for what it leaves. -/
theorem holds_call (call : Call κ) (explained : Explained ledger root) :
    Holds (stateRoot fails) (call.Leaves ledger none) call.program
      (fun answer next => call.Leaves ledger (some answer) next) root := by
  cases call with
  | update claim policy expected target =>
    exact holds_update claim policy expected target explained
  | rollback expected => exact holds_rollback expected explained
  | recover => exact holds_recover_call explained

theorem call_leaves {call : Call κ} {answer : Option (UpdateResult κ)} {next : Root}
    (explained : Explained ledger root)
    (exec : Exec (stateRoot True) call.program root answer next) :
    call.Leaves ledger answer next := by
  obtain ⟨cut, done⟩ := (holds_call call explained).exec exec
  cases answer with
  | none => exact cut
  | some answer => exact done answer rfl

/-! Runs. -/

theorem run_explained {pair : Pair} {calls : List (Call κ × Option (UpdateResult κ))}
    {last : Root} (clean : Clean pair root) (run : Run root calls last) :
    ∃ ledger, History ⟨pair, none⟩ calls ledger ∧ Explained ledger last := by
  induction run with
  | nil => exact ⟨⟨pair, none⟩, .nil, clean⟩
  | snoc _ exec ih =>
    obtain ⟨ledger, history, explained⟩ := ih
    obtain ⟨after, accounts, left⟩ := call_leaves explained exec
    exact ⟨after, history.snoc accounts, left⟩

/-- Recovery on a journal, when nothing fails. -/
theorem recover_reliable {new : Pair} (explained : Explained ledger root)
    (pending : ledger.pending = some new) :
    (∃ (answer : UpdateResult κ) (next : Root),
      Exec (stateRoot False) Repository.recover root (some answer) next) ∧
    ∀ (answer : UpdateResult κ) (next : Root),
      Exec (stateRoot False) Repository.recover root (some answer) next →
        answer.succeeded = true ∧ answer.disposition = .committed ∧ Clean new next := by
  refine ⟨Exec.completes _ _ _, ?_⟩
  intro answer next exec
  have held := ((holds_recover explained).exec exec).2 answer rfl
  by_cases succeeded : answer.succeeded = true
  · rw [if_pos succeeded, pending] at held
    obtain ⟨clean, -, -, disposition⟩ := held
    unfold Explained Ledger.recovered at clean
    rw [pending] at clean
    exact ⟨succeeded, disposition, clean⟩
  · rw [if_neg succeeded] at held
    exact held.1.elim

end Calls

end Baas.Repository
