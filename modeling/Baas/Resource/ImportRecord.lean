import Mathlib.Data.List.Infix
import Mathlib.Tactic.Linarith
import Baas.Resource.Import

/-! The names of a transaction, and that the recovery reads back the record an import
wrote. -/
namespace Baas.Resource.Import

open Decimal

theorem canonical_decimal (n : Nat) : canonicalDecimal (decimal n) = true := by
  have digits : (decimal n).all isDigit = true := List.all_eq_true.mpr (decimal_digits n)
  have there : (decimal n).isEmpty = false := by simp [decimal_ne_nil n]
  rcases Nat.eq_zero_or_pos n with rfl | positive
  · simp [canonicalDecimal, decimal, isDigit]
  · simp [canonicalDecimal, there, decimal_head n positive, digits]

theorem dash_not_digit {n : Nat} : dash ∉ decimal n := by
  intro member
  have digit := decimal_digits n dash member
  revert digit
  decide

/-! The names of a transaction. -/

theorem journalPrefix_eq : journalPrefix = stagingPrefix ++ utf8 "journal-" := by
  simp only [journalPrefix, stagingPrefix, utf8_eq]
  decide

theorem retiredPrefix_eq : retiredPrefix = stagingPrefix ++ utf8 "retired-" := by
  simp only [retiredPrefix, stagingPrefix, utf8_eq]
  decide

theorem journal_sizes : journalPrefix.length = 21 ∧ journalSuffix.length = 5 := by
  simp only [journalPrefix, journalSuffix, utf8_eq]
  decide

variable (x : ImportTransaction)

namespace ImportTransaction

theorem transaction_eq : x.transaction =
    [dash].intercalate [decimal x.processId, x.target, decimal x.sequence] := by
  simp [transaction, List.intercalate, List.intersperse]

theorem transaction_head : ∃ c rest, x.transaction = c :: rest ∧ isDigit c = true := by
  cases digits : decimal x.processId with
  | nil => exact absurd digits (decimal_ne_nil _)
  | cons c rest =>
    refine ⟨c, rest ++ [dash] ++ x.target ++ [dash] ++ decimal x.sequence, ?_, ?_⟩
    · simp [transaction, digits]
    · exact decimal_digits x.processId c (digits ▸ List.mem_cons_self)

theorem splitOn_transaction : x.transaction.splitOn dash =
    [decimal x.processId, x.target, decimal x.sequence] := by
  rw [transaction_eq]
  apply List.splitOn_intercalate
  · simp [target, dash_not_digit]
  · simp

end ImportTransaction

/-- The numbers of a transaction are machine integers. -/
structure ImportTransaction.Sized : Prop where
  processId : x.processId < 2 ^ 64
  timestamp : x.timestamp < 2 ^ 64
  sequence : x.sequence < 2 ^ 64

theorem transaction_length (sized : x.Sized) : x.transaction.length ≤ 62 := by
  have digits {n : Nat} (bound : n < 2 ^ 64) : (decimal n).length ≤ 20 :=
    decimal_length (k := 19) (bound.trans (by norm_num))
  have first := digits sized.processId
  have second := digits sized.timestamp
  have third := digits sized.sequence
  simp only [ImportTransaction.transaction, ImportTransaction.target, List.length_append,
    List.length_singleton]
  omega

theorem parse_journal_name (sized : x.Sized) :
    parseImportJournalFilename x.journal = some (x.transaction, x.target) := by
  have sizes := journal_sizes
  obtain ⟨c, rest, there, -⟩ := x.transaction_head
  have short := transaction_length x sized
  have long : 0 < x.transaction.length := by simp [there]
  have whole : x.journal.length = 21 + x.transaction.length + 5 := by
    simp [ImportTransaction.journal, sizes.1, sizes.2]
    omega
  have starts : journalPrefix.isPrefixOf x.journal = true := by
    rw [List.isPrefixOf_iff_prefix, ImportTransaction.journal, List.append_assoc]
    exact List.prefix_append _ _
  have ends : journalSuffix.isSuffixOf x.journal = true := by
    rw [List.isSuffixOf_iff_suffix]
    exact List.suffix_append _ _
  have middle : (x.journal.drop journalPrefix.length).take
      (x.journal.length - journalPrefix.length - journalSuffix.length) = x.transaction := by
    rw [whole, sizes.1, sizes.2, ImportTransaction.journal, List.append_assoc, ← sizes.1,
      List.drop_left, sizes.1]
    have count : 21 + x.transaction.length + 5 - 21 - 5 = x.transaction.length := by omega
    rw [count, List.take_left]
  unfold parseImportJournalFilename
  rw [if_neg]
  · simp only [middle, ImportTransaction.splitOn_transaction, ImportTransaction.target,
      canonical_decimal, Bool.and_self, if_true]
  · simp [starts, ends, sizes.1, sizes.2]
    omega

/-! Reading the journal back. -/

variable {T : Type} (codec : JournalCodec T)

theorem source_ne_tombstone : utf8 "source" ≠ utf8 "tombstone" := by
  simp only [utf8_eq]
  decide

/-- The items as the recovery has numbered them so far. -/
def Numbered (transaction : Text) (items : List ImportRecoveryItem) : Prop :=
  ∀ i item, items[i]? = some item →
    item.tombstone = retiredPrefix ++ transaction ++ [dash] ++ decimal i

theorem recoveryItem_read {transaction target : Text} {behind rest : List ImportRecoveryItem}
    {item : ImportRecoveryItem} (numbered : Numbered transaction (behind ++ item :: rest))
    (valid : validResourceId codec.toCodec item.source 1024 = true)
    (other : item.source ≠ target)
    (distinct : ((behind ++ item :: rest).map ImportRecoveryItem.source).Nodup) :
    recoveryItem codec transaction target behind (ImportTransaction.itemDocument item) =
      some item := by
  have tombstone := numbered behind.length item (by simp)
  have sources : behind.any (·.source = item.source) = false := by
    rw [List.any_eq_false]
    intro old member same
    rw [List.map_append, List.nodup_append] at distinct
    exact distinct.2.2 old.source (List.mem_map_of_mem member) item.source (by simp)
      (by simpa using same)
  have tombstones : behind.any (·.tombstone = item.tombstone) = false := by
    rw [List.any_eq_false]
    intro old member same
    obtain ⟨i, below, found⟩ := List.getElem_of_mem member
    have name := numbered i old (by
      rw [List.getElem?_append_left below, List.getElem?_eq_getElem below, found])
    have numbers : old.tombstone = item.tombstone := by simpa using same
    rw [name, tombstone] at numbers
    have equal := decimal_injective (List.append_cancel_left numbers)
    omega
  obtain ⟨source, name⟩ := item
  simp only at tombstone sources tombstones valid other
  subst tombstone
  simp [recoveryItem, ImportTransaction.itemDocument, stringMember, member?,
    source_ne_tombstone, valid, other] at sources tombstones ⊢
  exact ⟨sources, tombstones⟩

theorem recoveryItems_read {transaction target : Text} {rest : List ImportRecoveryItem}
    (valid : ∀ item ∈ rest, validResourceId codec.toCodec item.source 1024 = true ∧
      item.source ≠ target) {behind : List ImportRecoveryItem}
    (numbered : Numbered transaction (behind ++ rest))
    (distinct : ((behind ++ rest).map ImportRecoveryItem.source).Nodup) :
    recoveryItems codec transaction target behind (rest.map ImportTransaction.itemDocument) =
      some (behind ++ rest) := by
  induction rest generalizing behind with
  | nil => simp [recoveryItems]
  | cons item rest ih =>
    have here := valid item (by simp)
    have read := recoveryItem_read codec numbered here.1 here.2 distinct
    have split : behind ++ item :: rest = (behind ++ [item]) ++ rest := by simp
    rw [split] at numbered distinct
    have later := ih (fun item member => valid item (by simp [member])) numbered distinct
    simp only [List.map_cons, recoveryItems, read, later, split]

theorem retired_numbered : Numbered x.transaction x.retired := by
  intro i item found
  simp only [ImportTransaction.retired, List.getElem?_mapIdx, Option.map_eq_some_iff] at found
  obtain ⟨source, -, rfl⟩ := found
  rfl

theorem retired_sources : x.retired.map ImportRecoveryItem.source = x.replaced := by
  apply List.ext_getElem <;> simp [ImportTransaction.retired]

theorem digit_safe (c : UInt8) (digit : isDigit c = true) : ¬controlOrSeparator c = true := by
  simp only [isDigit, Bool.and_eq_true, decide_eq_true_eq] at digit
  obtain ⟨low, high⟩ := digit
  simp only [controlOrSeparator, Bool.or_eq_true, decide_eq_true_eq]
  rw [UInt8.le_iff_toNat_le] at low high
  simp only [UInt8.lt_iff_toNat_lt, ← UInt8.toNat_inj]
  simp at *
  omega

theorem dot_names : utf8 "." = [46] ∧ utf8 ".." = [46, 46] ∧
    utf8 ".baas-" = [46, 98, 97, 97, 115, 45] := by
  simp only [utf8_eq]
  decide

theorem target_valid (ascii : ∀ text : Text, (∀ c ∈ text, c < 128) → codec.validUtf8 text = true)
    (sized : x.Sized) : validResourceId codec.toCodec x.target 1024 = true := by
  have digits := decimal_digits x.timestamp
  have utf : codec.validUtf8 x.target = true := by
    apply ascii
    intro c member
    have digit := digits c member
    simp only [isDigit, Bool.and_eq_true, decide_eq_true_eq] at digit
    exact lt_of_le_of_lt digit.2 (by decide)
  have short : x.target.length ≤ 20 :=
    decimal_length (k := 19) (sized.timestamp.trans (by norm_num))
  have head : ∃ c rest, x.target = c :: rest ∧ isDigit c = true := by
    cases whole : x.target with
    | nil => exact absurd whole (decimal_ne_nil _)
    | cons c rest =>
      refine ⟨c, rest, rfl, digits c ?_⟩
      change c ∈ x.target
      simp [whole]
  obtain ⟨c, rest, whole, digit⟩ := head
  have clean : x.target.any controlOrSeparator = false := by
    rw [List.any_eq_false]
    intro c member
    have digit := digits c member
    revert digit
    exact digit_safe c
  have nonDot : c ≠ 46 := by
    rintro rfl
    revert digit
    decide
  obtain ⟨dot, dots, reserved⟩ := dot_names
  unfold validResourceId
  rw [utf, clean, dot, dots, reserved]
  rw [whole] at short ⊢
  simp [nonDot]
  simp at short
  exact ⟨by omega, by simp [List.isPrefixOf, nonDot.symm]⟩

/-- What an import has checked, and what the JSON library makes of its journal. -/
structure Recorded : Prop where
  sized : x.Sized
  distinct : x.replaced.Nodup
  valid : ∀ id ∈ x.replaced, validResourceId codec.toCodec id 1024 = true
  other : x.target ∉ x.replaced
  /-- Ascii text is UTF-8. -/
  ascii : ∀ text : Text, (∀ c ∈ text, c < 128) → codec.validUtf8 text = true
  short : (codec.dump x.document).length ≤ 65536
  reads : codec.parseJournal (codec.dump x.document) = some x.document
  /-- No proper prefix of an object is a JSON text. -/
  torn : ∀ bytes, bytes <+: codec.dump x.document → bytes ≠ codec.dump x.document →
    codec.parseJournal bytes = none
  /-- Each item has the names of its two members. -/
  weight : 16 * x.replaced.length ≤ (codec.dump x.document).length

theorem importRecoveryRecord_read (recorded : Recorded x codec) :
    importRecoveryRecord codec (codec.dump x.document) x.journal =
      some ⟨x.staging, x.target, x.retired⟩ := by
  have count : x.retired.length ≤ configCopyMaxEntries := by
    have weight := recorded.weight
    have short := recorded.short
    simp only [ImportTransaction.retired, List.length_mapIdx, configCopyMaxEntries]
    omega
  have valid : ∀ item ∈ x.retired, validResourceId codec.toCodec item.source 1024 = true ∧
      item.source ≠ x.target := by
    intro item member
    have source : item.source ∈ x.replaced := by
      rw [← retired_sources]
      exact List.mem_map_of_mem member
    refine ⟨recorded.valid _ source, ?_⟩
    intro same
    exact recorded.other (same ▸ source)
  have items := @recoveryItems_read T codec x.transaction x.target x.retired valid []
    (retired_numbered x) (by simpa [retired_sources] using recorded.distinct)
  have names : utf8 "retired" ≠ utf8 "version" ∧ utf8 "staging" ≠ utf8 "version" ∧
      utf8 "target" ≠ utf8 "version" ∧ utf8 "retired" ≠ utf8 "staging" ∧
      utf8 "retired" ≠ utf8 "target" ∧ utf8 "staging" ≠ utf8 "target" := by
    simp only [utf8_eq]
    decide
  obtain ⟨n₁, n₂, n₃, n₄, n₅, n₆⟩ := names
  unfold importRecoveryRecord
  rw [parse_journal_name x recorded.sized, recorded.reads]
  simp [ImportTransaction.document, stringMember, member?, n₁, n₂, n₃, n₄, n₅, n₆,
    ImportTransaction.staging, target_valid x codec recorded.ascii recorded.sized,
    Nat.not_lt.mpr count]
  exact items

end Baas.Resource.Import
