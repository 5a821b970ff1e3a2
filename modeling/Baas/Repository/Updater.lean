import Mathlib.Logic.Function.Basic
import Baas.Lib.Durable
import Baas.Repository.PublishJson

/-! The repository updater: publication, rollback and recovery, as programs over the files of
the state root. -/
namespace Baas.Repository

open JsonText Durable

inductive File
  | previous
  | current
  | publishJournal
  | trustedState
  | trustedJournal
  | owner
deriving DecidableEq

abbrev Root := File → Option Text

inductive Op
  /-- Anything that leaves these files alone and may fail: a hook, a check, a sync, a lock, the
  staging of a tree. -/
  | attempt
  | replace (file : File) (bytes : Text)
  | remove (file : File)

def Op.apply : Op → Root → Root
  | .attempt, root => root
  | .replace file bytes, root => Function.update root file (some bytes)
  | .remove file, root => Function.update root file none

/-- What fails has changed nothing. Nothing fails unless `fails`. -/
def stateRoot (fails : Prop) : Medium Root Op where
  effect op root ok next := (ok = false → fails) ∧ next = if ok then op.apply root else root
  total op root := ⟨true, op.apply root, nofun, rfl⟩

abbrev Task := Action Root Op

def attempt : Task Unit := Action.op .attempt

def maxStateJsonBytes : Nat := 64 * 1024

def readAnchoredFile (bytes : Text) : Task Text := do
  attempt
  Action.check (bytes.length ≤ maxStateJsonBytes)
  pure bytes

def decode {α : Type} (decoded : Except String α) : Task α :=
  Action.ofOption decoded.toOption

def readPointer (file : File) : Task (Option Pointer) := do
  attempt
  match (← Action.look) file with
  | none => pure none
  | some bytes =>
    let text ← readAnchoredFile bytes
    let pointer ← decode (parse text >>= parsePointer)
    pure (some pointer)

/-- The first answer is the flag `replaced`. -/
@[irreducible] def replaceAtomically (file : File) (bytes : Text) : Prog Root Op (Bool × Option Unit) :=
  if bytes.length ≤ maxStateJsonBytes then
    .write .attempt (fun
      | false => .done (false, none)
      | true => .write (.replace file bytes) (fun
        | false => .done (false, none)
        | true => .write .attempt (fun
          | false => .done (true, none)
          | true => .done (true, some ()))))
  else .done (false, none)

def writeAtomically (file : File) (bytes : Text) : Task Unit :=
  (replaceAtomically file bytes).bind (fun answer => .done answer.2)

def removeFile (file : File) : Task Unit := do
  Action.op (.remove file)
  attempt

def writeOptionalPointer (file : File) : Option Pointer → Task Unit
  | some pointer => writeAtomically file (pointerJson pointer)
  | none => removeFile file

/-- The generation that is pinned. -/
def loadPin : Task (Option Text) := do
  attempt
  let pointer ← readPointer .current
  attempt
  pure (pointer.map Pointer.generation)

inductive PublishDisposition
  | notCommitted
  | committed
  | committedDurabilityUncertain
deriving DecidableEq

inductive ExpectedCurrent
  | any
  | absent
  | exact (generation : Text)

inductive RecoveryPolicy
  | recoverPending
  | requireClean
deriving DecidableEq

/-- A commit claim leaves the pointers and the publish journal alone. -/
def Op.Foreign : Op → Prop
  | .attempt => True
  | .replace file _ => file ≠ .previous ∧ file ≠ .current ∧ file ≠ .publishJournal
  | .remove file => file ≠ .previous ∧ file ≠ .current ∧ file ≠ .publishJournal

/-- `κ` is what the caller can ask the claim afterwards. -/
structure CommitClaim (κ : Type) where
  claim : Text → Prog Root Op κ
  accepted : κ → Bool
  foreign : ∀ generation, (claim generation).Only Op.Foreign

/-- `pin` is the pinned generation of an update that succeeded, `claimed` what the claim has
answered, if it was asked. -/
structure UpdateResult (κ : Type) where
  succeeded : Bool
  disposition : PublishDisposition
  pin : Option Text
  claimed : Option κ

def errorResult {κ : Type} (disposition : PublishDisposition) (claimed : Option κ) :
    UpdateResult κ :=
  ⟨false, disposition, none, claimed⟩

section Updater

variable {κ : Type}

def checkExpectation (current : Option Pointer) : ExpectedCurrent → Bool
  | .any => true
  | .absent => current.isNone
  | .exact generation => lowerHex generation 64 && current.map Pointer.generation = some generation

/-! Recovery. -/

def recoverPrevious (bytes : Text) : Task Journal := do
  let text ← readAnchoredFile bytes
  let journal ← decode (parse text >>= parseJournal)
  attempt -- validate_pointer_objects of both pointers
  attempt
  writeOptionalPointer .previous journal.newPrevious
  attempt
  pure journal

def recoverCleanup : Task (Option Text) := do
  attempt
  removeFile .publishJournal
  loadPin

/-- The locks of the writer, held while the rest runs. -/
def locked (rest : Prog Root Op (UpdateResult κ)) : Prog Root Op (UpdateResult κ) :=
  .write .attempt (fun ok => if ok then rest else .done (errorResult .notCommitted none))

/-- The rest of a call, unless its recovery has failed. -/
def whenRecovered (rest : Prog Root Op (UpdateResult κ)) :
    Except PublishDisposition Unit → Prog Root Op (UpdateResult κ)
  | .error disposition => .done (errorResult disposition none)
  | .ok () => rest

def recoverPending : Prog Root Op (Except PublishDisposition Unit) :=
  .write .attempt (fun
    | false => .done (.error .notCommitted)
    | true => .read (fun root => match root .publishJournal with
      | none => .done (.ok ())
      | some bytes => Prog.bind (recoverPrevious bytes) (fun
        | none => .done (.error .notCommitted)
        | some journal =>
          (replaceAtomically .current (pointerJson journal.newCurrent)).bind (fun
            | (false, _) => .done (.error .notCommitted)
            | (true, none) => .done (.error .committedDurabilityUncertain)
            | (true, some ()) => Prog.bind recoverCleanup (fun
              | none => .done (.error .committedDurabilityUncertain)
              | some _ => .done (.ok ()))))))

def recover : Prog Root Op (UpdateResult κ) :=
  locked (.read (fun root => recoverPending.bind (whenRecovered (Prog.bind loadPin (fun
    | none => .done (errorResult .notCommitted none)
    | some pin =>
      let had_pending := (root .publishJournal).isSome
      .done ⟨true, if had_pending then .committed else .notCommitted, pin, none⟩)))))

/-! Transactions. -/

/-- The claim is asked for the target generation, after a last look at the stop token. -/
def claimPublication (claim : Option (CommitClaim κ)) (generation : Text) :
    Prog Root Op (Option κ × Bool) :=
  match claim with
  | none => .done (none, true)
  | some claim => .write .attempt (fun
    | false => .done (none, false)
    | true => (claim.claim generation).bind (fun answer =>
      .done (some answer, claim.accepted answer)))

def prepareTransaction (journal : Journal) : Task Unit := do
  attempt
  writeAtomically .publishJournal (journalJson journal)
  attempt
  attempt
  writeOptionalPointer .previous journal.newPrevious
  attempt
  writeAtomically .publishJournal (journalJson { journal with phase := previousReplaced })
  attempt
  attempt

def finishTransaction (journal : Journal) : Task (Option Text) := do
  attempt
  writeAtomically .publishJournal (journalJson { journal with phase := currentReplaced })
  attempt
  removeFile .publishJournal
  loadPin

/-- The directory is synchronised even if the journal could not be removed. -/
def restore (journal : Journal) : Task Unit := do
  writeOptionalPointer .previous journal.oldPrevious
  writeOptionalPointer .current journal.oldCurrent
  let removed : Bool ← (Prog.write (.remove .publishJournal) (fun ok => .done (some ok)))
  attempt
  Action.check removed

def restoreTransaction (journal : Journal) (claimed : Option κ) : Prog Root Op (UpdateResult κ) :=
  Prog.bind (restore journal) (fun
    | some () => .done (errorResult .notCommitted claimed)
    | none => .done (errorResult .committedDurabilityUncertain claimed))

/-- `transaction` behind the claim. -/
def publication (journal : Journal) (claimed : Option κ) : Prog Root Op (UpdateResult κ) :=
  Prog.bind (prepareTransaction journal) (fun
    | none => restoreTransaction journal claimed
    | some () => (replaceAtomically .current (pointerJson journal.newCurrent)).bind (fun
      | (false, _) => restoreTransaction journal claimed
      | (true, none) => .done (errorResult .committedDurabilityUncertain claimed)
      | (true, some ()) => Prog.bind (finishTransaction journal) (fun
        | none => .done (errorResult .committedDurabilityUncertain claimed)
        | some pin => .done ⟨true, .committed, pin, claimed⟩)))

def transaction (claim : Option (CommitClaim κ)) (journal : Journal) :
    Prog Root Op (UpdateResult κ) :=
  (claimPublication claim journal.newCurrent.generation).bind (fun (claimed, accepted) =>
    if accepted then publication journal claimed else restoreTransaction journal claimed)

/-! Updates and rollbacks. -/

/-- A generation is the digest of the two repositories in hexadecimal. -/
def hexDigits : List UInt8 := ascii "0123456789abcdef"

def hex (digest : List UInt8) : Text :=
  digest.flatMap (fun byte =>
    [hexDigits.getD (byte.toNat / 16) 0, hexDigits.getD (byte.toNat % 16) 0])

def snapshotPointer (generation : Text) : Pointer :=
  ⟨generation, ascii "snapshots/" ++ generation ++ ascii ".json"⟩

/-- What an update finds to do: nothing, for the generation that is already there. -/
inductive Found
  | same (pin : Option Text)
  | changed (journal : Journal)

/-- `generation` is that of the repositories of the plan. -/
def findUpdate (expected : ExpectedCurrent) (generation : Text) : Task Found := do
  let _ ← loadPin
  attempt -- check_cancelled, trusted_plan, validate_plan
  let old_current ← readPointer .current
  Action.check (checkExpectation old_current expected)
  attempt -- both trees are staged, validated and installed
  if old_current.map Pointer.generation = some generation then
    let pin ← loadPin
    pure (.same pin)
  else do
    attempt -- the snapshot is installed
    let old_previous ← readPointer .previous
    pure (.changed ⟨publishOperation, prepared, old_previous, old_current, old_current,
      snapshotPointer generation⟩)

def findRollback (expected : ExpectedCurrent) : Task Journal := do
  let _ ← loadPin
  attempt -- check_cancelled
  let current ← readPointer .current
  Action.check (checkExpectation current expected)
  let current ← Action.ofOption current
  let previous ← readPointer .previous
  let previous ← Action.ofOption previous
  attempt -- validate_pointer_objects of both pointers
  pure ⟨rollbackOperation, prepared, some previous, some current, some current, previous⟩

/-- A pending journal fails an update that asks for a clean root. -/
def requireClean : Prog Root Op (Except PublishDisposition Unit) :=
  .write .attempt (fun ok =>
    if ok then .read (fun root =>
      .done (if (root .publishJournal).isSome then .error .notCommitted else .ok ()))
    else .done (.error .notCommitted))

/-- A claim does not go together with recovery. -/
def beginUpdate (policy : RecoveryPolicy) (claims : Bool) :
    Prog Root Op (Except PublishDisposition Unit) :=
  match policy with
  | .recoverPending => if claims then .done (.error .notCommitted) else recoverPending
  | .requireClean => requireClean

def update (claim : Option (CommitClaim κ)) (policy : RecoveryPolicy)
    (expected : ExpectedCurrent) (generation : Text) : Prog Root Op (UpdateResult κ) :=
  locked ((beginUpdate policy claim.isSome).bind (whenRecovered
    (Prog.bind (findUpdate expected generation) (fun
      | none => .done (errorResult .notCommitted none)
      | some (.same pin) => .done ⟨true, .committed, pin, none⟩
      | some (.changed journal) => transaction claim journal))))

def rollback (expected : ExpectedCurrent) : Prog Root Op (UpdateResult κ) :=
  locked (recoverPending.bind (whenRecovered (Prog.bind (findRollback expected) (fun
    | none => .done (errorResult .notCommitted none)
    | some journal => transaction none journal))))

end Updater

end Baas.Repository
