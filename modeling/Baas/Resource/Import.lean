import Baas.Lib.Decimal
import Baas.Resource.ImportDisk
import Baas.Resource.Store

/-! `import_config` from its journal on, and `recover_import_transactions`. -/
namespace Baas.Resource.Import

open Durable Decimal

def canonicalDecimal (value : Text) : Bool :=
  !value.isEmpty && (value.length = 1 || value.head? ≠ some 48) && value.all isDigit

def dash : UInt8 := 45

def journalPrefix : Text := utf8 ".baas-import-journal-"
def journalSuffix : Text := utf8 ".json"
def stagingPrefix : Text := utf8 ".baas-import-"
def retiredPrefix : Text := utf8 ".baas-import-retired-"

/-- The file that travels with the staging directory. -/
def marker : Path := [utf8 ".baas-import-commit"]

/-- The transaction in the name of a journal, and its target. -/
def parseImportJournalFilename (name : Text) : Option (Text × Text) :=
  if !journalPrefix.isPrefixOf name || !journalSuffix.isSuffixOf name ||
      name.length ≤ journalPrefix.length + journalSuffix.length || name.length > 1024 then none
  else
    let transaction := (name.drop journalPrefix.length).take
      (name.length - journalPrefix.length - journalSuffix.length)
    match transaction.splitOn dash with
    | [processId, target, sequence] =>
      if canonicalDecimal processId && canonicalDecimal target && canonicalDecimal sequence then
        some (transaction, target)
      else none
    | _ => none

structure ImportRecoveryItem where
  source : Text
  tombstone : Text

structure ImportRecoveryRecord where
  staging : Text
  target : Text
  retired : List ImportRecoveryItem

/-- The store's codec, and `parse_json` with the bounds of a journal: 64 KiB, depth 8 and
16384 nodes. -/
structure JournalCodec (T : Type) extends Codec Int T where
  parseJournal : Text → Option (Json Int)

variable {T : Type} (codec : JournalCodec T)

def stringMember (key : Text) (members : List (Text × Json Int)) : Option Text :=
  match member? key members with
  | some (.string value) => some value
  | _ => none

def recoveryItem (transaction target : Text) (behind : List ImportRecoveryItem) :
    Json Int → Option ImportRecoveryItem
  | .object members =>
    if members.length ≠ 2 then none
    else
      match stringMember (utf8 "source") members, stringMember (utf8 "tombstone") members with
      | some source, some tombstone =>
        if !validResourceId codec.toCodec source 1024 || source = target ||
            tombstone ≠ retiredPrefix ++ transaction ++ [dash] ++ decimal behind.length ||
            behind.any (·.source = source) || behind.any (·.tombstone = tombstone) then none
        else some ⟨source, tombstone⟩
      | _, _ => none
  | _ => none

def recoveryItems (transaction target : Text) :
    List ImportRecoveryItem → List (Json Int) → Option (List ImportRecoveryItem)
  | behind, [] => some behind
  | behind, item :: rest =>
    match recoveryItem codec transaction target behind item with
    | none => none
    | some recovered => recoveryItems transaction target (behind ++ [recovered]) rest

/-- `config_copy_max_entries`. -/
def configCopyMaxEntries : Nat := 4096

def importRecoveryRecord (bytes name : Text) : Option ImportRecoveryRecord :=
  match parseImportJournalFilename name, codec.parseJournal bytes with
  | some (transaction, target'), some (.object members) =>
    if members.length ≠ 4 then none
    else
      match member? (utf8 "version") members, stringMember (utf8 "staging") members,
        stringMember (utf8 "target") members, member? (utf8 "retired") members with
      | some (.number 1), some staging, some target, some (.array retired) =>
        if retired.length > configCopyMaxEntries then none
        else if staging ≠ stagingPrefix ++ transaction || target ≠ target' ||
            !validResourceId codec.toCodec target 1024 then none
        else (recoveryItems codec transaction target [] retired).map (⟨staging, target, ·⟩)
      | _, _, _, _ => none
  | _, _ => none

/-! The recovery. -/

def isJournal (name : Text) : Bool :=
  journalPrefix.isPrefixOf name && journalSuffix.isSuffixOf name

/-- `remove_tree_best_effort`. -/
def removeTree {α : Type} (name : Text) (next : Script α) : Script α :=
  .read fun d =>
    match d.find? name with
    | some (.directory tree) =>
      .writeAll (List.replicate (tree.toList.length + 1) (.removePiece name)) next
    | _ => next

/-- The target has the marker of this journal. -/
def committed (d : Disk) (target journal : Text) : Bool :=
  match d.find? target with
  | some (.directory tree) =>
    match tree.find? marker with
    | some (.file bytes) => bytes.length ≤ 1024 && bytes = journal
    | _ => false
  | _ => false

def isMissing (name : Text) : Script Bool := .read fun d => .done (pathKind d name = .missing)

def removeTombstone (item : ImportRecoveryItem) : Script Bool :=
  .read fun d =>
    match pathKind d item.tombstone with
    | .directory => removeTree item.tombstone (isMissing item.tombstone)
    | .missing => isMissing item.tombstone
    | .regularFile => .done false

def durableRemove (name : Text) : Script Bool := .write (.removeFile name) .done

def durableRemoveMarker (directory : Text) : Script Bool :=
  .write (.removeBelow directory marker) .done

def restore (item : ImportRecoveryItem) : Script Bool :=
  .read fun d =>
    match pathKind d item.tombstone, pathKind d item.source with
    | .directory, .missing => .write (.rename item.tombstone item.source) .done
    | .missing, .directory => .done true
    | _, _ => .done false

def removeStaging (staging : Text) : Script Bool :=
  .read fun d =>
    match pathKind d staging with
    | .directory => removeTree staging (isMissing staging)
    | .missing => isMissing staging
    | .regularFile => .done false

def rollForward (record : ImportRecoveryRecord) (journal : Text) : Script Bool :=
  (Prog.forAll removeTombstone record.retired).andThen
    ((durableRemove journal).andThen (durableRemoveMarker record.target))

def rollBack (record : ImportRecoveryRecord) (journal : Text) : Script Bool :=
  (Prog.forAll restore record.retired.reverse).andThen
    ((removeStaging record.staging).andThen (durableRemove journal))

def recoverJournal (journal : Text) : Script Bool :=
  .read fun d =>
    match d.find? journal with
    | some (.file bytes) =>
      if bytes.length > 65536 then .done false
      else
        match importRecoveryRecord codec bytes journal with
        | none => .done false
        | some record =>
          if committed d record.target journal then rollForward record journal
          else rollBack record journal
    | _ => .done false

/-- The markers that are left after their journals. -/
def cleanMarker (name : Text) : Script Bool :=
  .read fun d =>
    match d.find? name with
    | some (.directory tree) =>
      if !validResourceId codec.toCodec name 1024 then .done true
      else
        match tree.find? marker with
        | none => .done true
        | some (.file _) => durableRemoveMarker name
        | some .directory => .done false
    | _ => .done true

def names (d : Disk) : List Text := d.toList.map Prod.fst

def recoverImportTransactions : Script Bool :=
  .read fun d =>
    let journals := (names d).filter isJournal
    if journals.length > 1024 || journals.any (fun journal => pathKind d journal ≠ .regularFile) then
      .done false
    else
      (Prog.forAll (recoverJournal codec) journals).andThen
        (.read fun d => Prog.forAll (cleanMarker codec) (names d))

/-! The import. -/

/-- What an import has settled on before it writes: the ids it replaces, and the writes
that fill the staging directory behind the marker. `chunks` are the bytes that each
`write` of the journal takes. -/
structure ImportTransaction where
  processId : Nat
  timestamp : Nat
  sequence : Nat
  replaced : List Text
  chunks : List Text
  markerChunks : List Text
  build : List (Path × Node)

namespace ImportTransaction

variable (x : ImportTransaction)

def target : Text := decimal x.timestamp

def transaction : Text :=
  decimal x.processId ++ [dash] ++ x.target ++ [dash] ++ decimal x.sequence

def staging : Text := stagingPrefix ++ x.transaction

def journal : Text := journalPrefix ++ x.transaction ++ journalSuffix

def tombstone (index : Nat) : Text :=
  retiredPrefix ++ x.transaction ++ [dash] ++ decimal index

def retired : List ImportRecoveryItem :=
  x.replaced.mapIdx (fun index source => ⟨source, x.tombstone index⟩)

def itemDocument (item : ImportRecoveryItem) : Json Int :=
  .object [(utf8 "source", .string item.source), (utf8 "tombstone", .string item.tombstone)]

/-- `journal_document`, its members in the order of their keys. -/
def document : Json Int :=
  .object
    [(utf8 "retired", .array (x.retired.map itemDocument)),
     (utf8 "staging", .string x.staging),
     (utf8 "target", .string x.target),
     (utf8 "version", .number 1)]

/-- The writes of a file below the staging directory: its name, and what each `write` has
brought it to. -/
def fileWrites (path : Path) (chunks : List Text) : List (Path × Node) :=
  (List.range (chunks.length + 1)).map (fun k => (path, Node.file (chunks.take k).flatten))

def stagingWrites : List (Path × Node) := fileWrites marker x.markerChunks ++ x.build

/-- The writes up to the publication of the target. -/
def publication : List Op :=
  [.create x.journal] ++ x.chunks.map (.append x.journal) ++ [.makeDirectory x.staging] ++
    x.stagingWrites.map (fun write => .put x.staging write.1 write.2) ++
    x.retired.map (fun item => .rename item.source item.tombstone) ++
    [.rename x.staging x.target]

def removeTombstones : List ImportRecoveryItem → Script Unit → Script Unit
  | [], next => next
  | item :: rest, next => removeTree item.tombstone (removeTombstones rest next)

/-- The journal goes when every tombstone has gone, and the marker after the journal. -/
def finish : Script Unit :=
  .read fun d =>
    if x.retired.all (fun item => pathKind d item.tombstone = .missing) then
      .write (.removeFile x.journal) fun removed =>
        if removed then .write (.removeBelow x.target marker) (fun _ => .done ()) else .done ()
    else .done ()

def importConfig : Script Unit :=
  .writeAll x.publication (removeTombstones x.retired x.finish)

end ImportTransaction

end Baas.Resource.Import
