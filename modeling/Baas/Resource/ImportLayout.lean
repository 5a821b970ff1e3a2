import Mathlib.Data.List.Nodup
import Baas.Resource.ImportRecord

/-! What the names of a transaction hold, and that they do not get in each other's way. -/
namespace Baas.Resource.Import

open Durable Decimal

variable {T : Type} {codec : JournalCodec T} {x : ImportTransaction} {d t : Disk}

/-- A name that no configuration may have. -/
def hidden (name : Text) : Bool := (utf8 ".baas-").isPrefixOf name

theorem valid_not_hidden {id : Text} {maximum : Nat}
    (valid : validResourceId codec.toCodec id maximum = true) : hidden id = false := by
  unfold validResourceId at valid
  simp only [Bool.and_eq_true, Bool.not_eq_true'] at valid
  exact valid.1.2

theorem hidden_append (first second : Text) (h : hidden first = true) :
    hidden (first ++ second) = true := by
  unfold hidden at *
  rw [List.isPrefixOf_iff_prefix] at *
  exact h.trans (List.prefix_append _ _)

theorem prefixes_hidden : hidden stagingPrefix = true ∧ hidden journalPrefix = true ∧
    hidden retiredPrefix = true := by
  simp only [hidden, stagingPrefix, journalPrefix, retiredPrefix, utf8_eq]
  decide

theorem staging_hidden : hidden x.staging = true :=
  hidden_append _ _ prefixes_hidden.1

theorem journal_hidden : hidden x.journal = true :=
  hidden_append _ _ (hidden_append _ _ prefixes_hidden.2.1)

theorem tombstone_hidden (index : Nat) : hidden (x.tombstone index) = true :=
  hidden_append _ _ (hidden_append _ _ (hidden_append _ _ prefixes_hidden.2.2))

theorem isJournal_hidden {name : Text} (journal : isJournal name = true) : hidden name = true := by
  unfold isJournal at journal
  rw [Bool.and_eq_true, List.isPrefixOf_iff_prefix] at journal
  obtain ⟨rest, rfl⟩ := journal.1
  exact hidden_append _ _ prefixes_hidden.2.1

theorem isJournal_journal : isJournal x.journal = true := by
  unfold isJournal
  rw [Bool.and_eq_true, List.isPrefixOf_iff_prefix, List.isSuffixOf_iff_suffix]
  refine ⟨?_, List.suffix_append _ _⟩
  rw [ImportTransaction.journal, List.append_assoc]
  exact List.prefix_append _ _

theorem isJournal_staging : isJournal x.staging = false := by
  obtain ⟨c, rest, whole, digit⟩ := x.transaction_head
  have first : utf8 "journal-" = 106 :: [111, 117, 114, 110, 97, 108, 45] := by rw [utf8_eq]; decide
  unfold isJournal
  rw [Bool.and_eq_false_iff]
  left
  rw [← Bool.not_eq_true, List.isPrefixOf_iff_prefix, journalPrefix_eq, ImportTransaction.staging,
    List.prefix_append_right_inj, whole, first, List.cons_prefix_cons]
  rintro ⟨rfl, -⟩
  revert digit
  decide

theorem isJournal_tombstone (index : Nat) : isJournal (x.tombstone index) = false := by
  have first : utf8 "journal-" = 106 :: [111, 117, 114, 110, 97, 108, 45] := by rw [utf8_eq]; decide
  have second : utf8 "retired-" = 114 :: [101, 116, 105, 114, 101, 100, 45] := by rw [utf8_eq]; decide
  unfold isJournal
  rw [Bool.and_eq_false_iff]
  left
  rw [← Bool.not_eq_true, List.isPrefixOf_iff_prefix, journalPrefix_eq,
    ImportTransaction.tombstone, retiredPrefix_eq]
  simp only [List.append_assoc, List.prefix_append_right_inj, first, second, List.cons_append,
    List.cons_prefix_cons]
  rintro ⟨same, -⟩
  revert same
  decide

theorem staging_ne_tombstone (index : Nat) : x.staging ≠ x.tombstone index := by
  obtain ⟨c, rest, whole, digit⟩ := x.transaction_head
  have first : utf8 "retired-" = 114 :: [101, 116, 105, 114, 101, 100, 45] := by rw [utf8_eq]; decide
  intro same
  rw [ImportTransaction.staging, ImportTransaction.tombstone, retiredPrefix_eq] at same
  simp only [List.append_assoc, List.append_cancel_left_eq] at same
  rw [whole, first, List.cons_append, List.cons.injEq] at same
  rw [same.1] at digit
  revert digit
  decide

theorem tombstone_injective : Function.Injective x.tombstone := by
  intro i j same
  exact decimal_injective (List.append_cancel_left same)

theorem mem_retired {item : ImportRecoveryItem} :
    item ∈ x.retired ↔ ∃ i, ∃ below : i < x.replaced.length,
      item = ⟨x.replaced[i], x.tombstone i⟩ := by
  simp only [ImportTransaction.retired, List.mem_mapIdx]
  constructor
  · rintro ⟨i, below, rfl⟩
    exact ⟨i, below, rfl⟩
  · rintro ⟨i, below, rfl⟩
    exact ⟨i, below, rfl⟩

/-- The names of a transaction are different names. -/
structure Apart (x : ImportTransaction) : Prop where
  staging_journal : x.staging ≠ x.journal
  target_journal : x.target ≠ x.journal
  target_staging : x.target ≠ x.staging
  source : ∀ item ∈ x.retired, item.source ≠ x.journal ∧ item.source ≠ x.staging ∧
    item.source ≠ x.target
  tombstone : ∀ item ∈ x.retired, item.tombstone ≠ x.journal ∧ item.tombstone ≠ x.staging ∧
    item.tombstone ≠ x.target
  across : ∀ item ∈ x.retired, ∀ other ∈ x.retired, item.source ≠ other.tombstone
  sources : ∀ item ∈ x.retired, ∀ other ∈ x.retired, item.source = other.source → item = other
  tombstones : ∀ item ∈ x.retired, ∀ other ∈ x.retired, item.tombstone = other.tombstone →
    item = other

theorem Recorded.apart (recorded : Recorded x codec) : Apart x := by
  have target := valid_not_hidden (target_valid x codec recorded.ascii recorded.sized)
  have open_ {name other : Text} (seen : hidden name = false) (hides : hidden other = true) :
      name ≠ other := by
    rintro rfl
    rw [seen] at hides
    cases hides
  have listed : ∀ item ∈ x.retired, item.source ∈ x.replaced := by
    intro item member
    rw [← retired_sources]
    exact List.mem_map_of_mem member
  have source : ∀ item ∈ x.retired, hidden item.source = false :=
    fun item member => valid_not_hidden (recorded.valid _ (listed item member))
  have numbered : ∀ item ∈ x.retired, ∃ i, item.tombstone = x.tombstone i := by
    intro item member
    obtain ⟨i, _, rfl⟩ := mem_retired.mp member
    exact ⟨i, rfl⟩
  constructor
  · intro same
    have journal := isJournal_journal (x := x)
    rw [← same, isJournal_staging] at journal
    cases journal
  · exact open_ target journal_hidden
  · exact open_ target staging_hidden
  · intro item member
    refine ⟨open_ (source item member) journal_hidden, open_ (source item member) staging_hidden, ?_⟩
    intro same
    exact recorded.other (same ▸ listed item member)
  · intro item member
    obtain ⟨i, name⟩ := numbered item member
    rw [name]
    refine ⟨?_, (staging_ne_tombstone i).symm, (open_ target (tombstone_hidden i)).symm⟩
    intro same
    have journal := isJournal_journal (x := x)
    rw [← same, isJournal_tombstone] at journal
    cases journal
  · intro item member other there
    obtain ⟨i, name⟩ := numbered other there
    rw [name]
    exact open_ (source item member) (tombstone_hidden i)
  · intro item member other there same
    obtain ⟨i, below, rfl⟩ := mem_retired.mp member
    obtain ⟨j, below', rfl⟩ := mem_retired.mp there
    have index := (List.Nodup.getElem_inj_iff recorded.distinct).mp same
    subst index
    rfl
  · intro item member other there same
    obtain ⟨i, below, rfl⟩ := mem_retired.mp member
    obtain ⟨j, below', rfl⟩ := mem_retired.mp there
    have index := tombstone_injective same
    subst index
    rfl

/-- The names an import writes. -/
def ImportTransaction.written (x : ImportTransaction) : List Text :=
  [x.journal, x.staging, x.target] ++ x.retired.map ImportRecoveryItem.source ++
    x.retired.map ImportRecoveryItem.tombstone

/-- What each name of a transaction holds; every other name is as it was before. -/
structure Layout (x : ImportTransaction) (before d : Disk) (journal staging target : Option Entry)
    (item : ImportRecoveryItem → Option Entry → Option Entry → Prop) : Prop where
  journal : d.find? x.journal = journal
  staging : d.find? x.staging = staging
  target : d.find? x.target = target
  items : ∀ i ∈ x.retired, item i (d.find? i.source) (d.find? i.tombstone)
  others : ∀ name, name ∉ x.written → d.find? name = before.find? name

namespace Layout

variable {before : Disk} {journal staging target : Option Entry}
  {item : ImportRecoveryItem → Option Entry → Option Entry → Prop}

theorem mem_written {i : ImportRecoveryItem} (member : i ∈ x.retired) :
    i.source ∈ x.written ∧ i.tombstone ∈ x.written := by
  constructor <;> simp only [ImportTransaction.written, List.mem_append, List.mem_map]
  · exact .inl (.inr ⟨i, member, rfl⟩)
  · exact .inr ⟨i, member, rfl⟩

/-- A change of one of the three single names. -/
theorem setJournal (layout : Layout x before d journal staging target item) (apart : Apart x)
    (same : ∀ name, name ≠ x.journal → t.find? name = d.find? name) :
    Layout x before t (t.find? x.journal) staging target item where
  journal := rfl
  staging := (same _ apart.staging_journal).trans layout.staging
  target := (same _ apart.target_journal).trans layout.target
  items i member := by
    rw [same _ (apart.source i member).1, same _ (apart.tombstone i member).1]
    exact layout.items i member
  others name other := by
    rw [same, layout.others name other]
    rintro rfl
    exact other (by simp [ImportTransaction.written])

theorem setStaging (layout : Layout x before d journal staging target item) (apart : Apart x)
    (same : ∀ name, name ≠ x.staging → t.find? name = d.find? name) :
    Layout x before t journal (t.find? x.staging) target item where
  journal := (same _ apart.staging_journal.symm).trans layout.journal
  staging := rfl
  target := (same _ apart.target_staging).trans layout.target
  items i member := by
    rw [same _ (apart.source i member).2.1, same _ (apart.tombstone i member).2.1]
    exact layout.items i member
  others name other := by
    rw [same, layout.others name other]
    rintro rfl
    exact other (by simp [ImportTransaction.written])

theorem setTarget (layout : Layout x before d journal staging target item) (apart : Apart x)
    (same : ∀ name, name ≠ x.target → t.find? name = d.find? name) :
    Layout x before t journal staging (t.find? x.target) item where
  journal := (same _ apart.target_journal.symm).trans layout.journal
  staging := (same _ apart.target_staging.symm).trans layout.staging
  target := rfl
  items i member := by
    rw [same _ (apart.source i member).2.2, same _ (apart.tombstone i member).2.2]
    exact layout.items i member
  others name other := by
    rw [same, layout.others name other]
    rintro rfl
    exact other (by simp [ImportTransaction.written])

/-- A change of the two names of one item. -/
theorem setItem (layout : Layout x before d journal staging target item) (apart : Apart x)
    {changed : ImportRecoveryItem} (member : changed ∈ x.retired)
    (same : ∀ name, name ≠ changed.source → name ≠ changed.tombstone →
      t.find? name = d.find? name)
    {item' : ImportRecoveryItem → Option Entry → Option Entry → Prop}
    (now : item' changed (t.find? changed.source) (t.find? changed.tombstone))
    (still : ∀ i ∈ x.retired, i ≠ changed → item i (d.find? i.source) (d.find? i.tombstone) →
      item' i (d.find? i.source) (d.find? i.tombstone)) :
    Layout x before t journal staging target item' where
  journal := by
    rw [same _ (apart.source _ member).1.symm (apart.tombstone _ member).1.symm, layout.journal]
  staging := by
    rw [same _ (apart.source _ member).2.1.symm (apart.tombstone _ member).2.1.symm,
      layout.staging]
  target := by
    rw [same _ (apart.source _ member).2.2.symm (apart.tombstone _ member).2.2.symm,
      layout.target]
  items i there := by
    by_cases own : i = changed
    · subst own
      exact now
    · have source : i.source ≠ changed.source :=
        fun equal => own (apart.sources i there changed member equal)
      have tombstone : i.tombstone ≠ changed.tombstone :=
        fun equal => own (apart.tombstones i there changed member equal)
      rw [same _ source (apart.across i there changed member),
        same _ (apart.across changed member i there).symm tombstone]
      exact still i there own (layout.items i there)
  others name other := by
    obtain ⟨source, tombstone⟩ := mem_written member
    rw [same, layout.others name other]
    · rintro rfl
      exact other source
    · rintro rfl
      exact other tombstone

theorem weaken (layout : Layout x before d journal staging target item)
    {item' : ImportRecoveryItem → Option Entry → Option Entry → Prop}
    (still : ∀ i ∈ x.retired, item i (d.find? i.source) (d.find? i.tombstone) →
      item' i (d.find? i.source) (d.find? i.tombstone)) :
    Layout x before d journal staging target item' :=
  ⟨layout.journal, layout.staging, layout.target,
    fun i member => still i member (layout.items i member), layout.others⟩

end Layout

/-! The tree below a directory goes piece by piece. -/

theorem piece_others {name : Text} {ok : Bool} (piece : Piece name d ok t) (other : Text)
    (apart : other ≠ name) : t.find? other = d.find? other := by
  cases piece with
  | leaf found leaf => exact OrderedMap.find?_insert_ne _ _ (Ne.symm apart)
  | last found empty => exact OrderedMap.find?_erase_ne _ (Ne.symm apart)
  | other none => rfl

/-- How many pieces of a directory are left, itself counted. -/
def pieces (d : Disk) (name : Text) : Nat :=
  match d.find? name with
  | some (.directory tree) => tree.toList.length + 1
  | _ => 0

theorem piece_pieces {name : Text} {ok : Bool} (piece : Piece name d ok t)
    (kind : pathKind d name ≠ .regularFile) :
    pieces t name = pieces d name - 1 ∧ pathKind t name ≠ .regularFile := by
  cases piece with
  | @leaf tree path found leaf =>
    obtain ⟨node, there⟩ := Option.isSome_iff_exists.mp leaf.1
    have size := OrderedMap.size_erase there
    have positive := OrderedMap.size_pos there
    simp only [OrderedMap.size] at size positive
    simp only [pieces, found, OrderedMap.find?_insert_self, pathKind]
    exact ⟨by omega, by simp⟩
  | @last tree found empty => simp [pieces, found, pathKind, empty]
  | other none =>
    refine ⟨?_, kind⟩
    unfold pieces
    split
    · next tree found => exact absurd found (none tree)
    · rfl

theorem missing_of_pieces {name : Text} (kind : pathKind d name ≠ .regularFile)
    (gone : pieces d name = 0) : d.find? name = none := by
  unfold pieces at gone
  unfold pathKind at kind
  cases found : d.find? name with
  | none => rfl
  | some entry =>
    cases entry with
    | file bytes => simp [found] at kind
    | directory tree => simp [found] at gone

/-- After `removeTree` the name is missing; a crash leaves the others alone. -/
theorem holds_removeTree {α : Type} {name : Text} {next : Script α} {crashed : Disk → Prop}
    {after : α → Disk → Prop} (kind : pathKind d name ≠ .regularFile)
    (cut : ∀ t, (∀ other, other ≠ name → t.find? other = d.find? other) →
      pathKind t name ≠ .regularFile → crashed t)
    (rest : ∀ t, (∀ other, other ≠ name → t.find? other = d.find? other) →
      t.find? name = none → Holds disk crashed next after t) :
    Holds disk crashed (removeTree name next) after d := by
  unfold removeTree
  change Holds disk crashed (match d.find? name with
    | some (.directory tree) =>
      Prog.writeAll (List.replicate (tree.toList.length + 1) (.removePiece name)) next
    | _ => next) after d
  cases found : d.find? name with
  | none => exact rest d (fun _ _ => rfl) found
  | some entry =>
    cases entry with
    | file bytes => simp [pathKind, found] at kind
    | directory tree =>
      have count : pieces d name = tree.toList.length + 1 := by simp [pieces, found]
      have steps : List.replicate (tree.toList.length + 1) (Op.removePiece name) =
          (List.range (tree.toList.length + 1)).map (fun _ => Op.removePiece name) := by
        simp
      dsimp only
      rw [steps]
      apply Holds.writeAll (fun behind t => (∀ other, other ≠ name → t.find? other = d.find? other) ∧
        pathKind t name ≠ .regularFile ∧ pieces t name = pieces d name - behind.length)
      · rintro behind b ahead t - ⟨same, still, -⟩
        exact cut t same still
      · rintro behind b ahead s ok t - ⟨same, still, left⟩ piece
        have step := piece_pieces piece still
        refine ⟨fun other apart => ?_, step.2, ?_⟩
        · rw [piece_others piece other apart, same other apart]
        · rw [step.1, left, List.length_append, List.length_singleton]
          omega
      · exact ⟨fun _ _ => rfl, kind, by simp⟩
      · rintro t ⟨same, still, left⟩
        apply rest t same (missing_of_pieces still _)
        rw [left, count, List.length_range]
        omega

end Baas.Resource.Import
