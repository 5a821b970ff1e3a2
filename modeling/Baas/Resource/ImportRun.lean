import Baas.Resource.ImportRecovery

/-! An import that is cut at any step, and the recoveries after it, which may be cut as
well. -/
namespace Baas.Resource.Import

open Durable

variable {T : Type} {codec : JournalCodec T} {x : ImportTransaction} {before d t : Disk}

/-- What an import writes: its journal, the name of the journal as the marker, and no other
marker. -/
structure Built (codec : JournalCodec T) (x : ImportTransaction) : Prop where
  chunks : x.chunks.flatten = codec.dump x.document
  markerChunks : x.markerChunks.flatten = x.journal
  build : ∀ write ∈ x.build, write.1 ≠ marker

theorem find?_foldl_other {writes : List (Path × Node)} {path : Path}
    (other : ∀ write ∈ writes, write.1 ≠ path) (tree : Tree) :
    (writes.foldl (fun tree write => tree.insert write.1 write.2) tree).find? path =
      tree.find? path := by
  induction writes generalizing tree with
  | nil => rfl
  | cons write rest ih =>
    rw [List.foldl_cons, ih (fun write member => other write (by simp [member]))]
    exact OrderedMap.find?_insert_ne _ _ (other write (by simp))

theorem find?_fileWrites (path : Path) (chunks : List Text) (tree : Tree) :
    ((ImportTransaction.fileWrites path chunks).foldl
      (fun tree write => tree.insert write.1 write.2) tree).find? path =
        some (.file chunks.flatten) := by
  simp [ImportTransaction.fileWrites, List.range_succ]

theorem complete_marker (built : Built codec x) :
    x.complete.find? marker = some (.file x.journal) := by
  rw [ImportTransaction.complete, ImportTransaction.stagingWrites, List.foldl_append,
    find?_foldl_other built.build, find?_fileWrites, built.markerChunks]

theorem journal_length (sized : x.Sized) : x.journal.length ≤ 1024 := by
  have sizes := journal_sizes
  have short := transaction_length x sized
  simp only [ImportTransaction.journal, List.length_append, sizes.1, sizes.2]
  omega

theorem recoverJournal_holds (recorded : Recorded x codec) (built : Built codec x)
    (start : Startable codec x before) (held : Old codec x before d ∨ New codec x before d) :
    Holds disk (Recoverable codec x before) (recoverJournal codec x.journal)
      (fun ok t => ok = true ∧ (Unchanged before t ∨ Imported x before t)) d := by
  have journal : d.find? x.journal = some (.file (codec.dump x.document)) := by
    obtain ⟨_, _, layout⟩ | layout := held
    · exact layout.journal
    · exact layout.journal
  unfold recoverJournal
  apply Holds.read
  rw [journal]
  dsimp only
  rw [if_neg (Nat.not_lt.mpr recorded.short), importRecoveryRecord_read x codec recorded]
  dsimp only
  obtain old | new := held
  · have target : d.find? x.target = none := by
      obtain ⟨_, _, layout⟩ := old
      exact layout.target
    have open_ : committed d x.target x.journal = false := by simp [committed, target]
    rw [open_]
    apply (rollBack_holds recorded.apart start old).post
    exact fun ok t held => ⟨held.1, .inl held.2⟩
  · have through : committed d x.target x.journal = true := by
      have target := new.target
      simp [committed, target, complete_marker built, journal_length recorded.sized]
    rw [through]
    apply (rollForward_holds recorded.apart new).post
    exact fun ok t held => ⟨held.1, .inr held.2⟩

theorem not_written {name : Text} (valid : hidden name = false)
    (target : name ≠ x.target) (sources : ∀ i ∈ x.retired, name ≠ i.source) :
    name ∉ x.written := by
  simp only [ImportTransaction.written, List.mem_append, List.mem_cons, List.not_mem_nil,
    or_false, List.mem_map, not_or, not_exists, not_and]
  refine ⟨⟨⟨?_, ?_, target⟩, fun i member same => sources i member same.symm⟩, ?_⟩
  · rintro rfl
    rw [journal_hidden] at valid
    cases valid
  · rintro rfl
    rw [staging_hidden] at valid
    cases valid
  · rintro i member rfl
    obtain ⟨k, _, rfl⟩ := mem_retired.mp member
    rw [tombstone_hidden] at valid
    cases valid

/-- No name but that of the journal looks like one. -/
theorem Layout.journals {journal staging target : Option Entry}
    {item : ImportRecoveryItem → Option Entry → Option Entry → Prop}
    (layout : Layout x before d journal staging target item) (recorded : Recorded x codec)
    (start : Startable codec x before) {name : Text} (looks : isJournal name = true)
    (other : name ≠ x.journal) : d.find? name = none := by
  have fresh : name ∉ x.written := by
    simp only [ImportTransaction.written, List.mem_append, List.mem_cons, List.not_mem_nil,
      or_false, List.mem_map, not_or, not_exists, not_and]
    have hides := isJournal_hidden looks
    refine ⟨⟨⟨other, ?_, ?_⟩, ?_⟩, ?_⟩
    · rintro rfl
      rw [isJournal_staging] at looks
      cases looks
    · rintro rfl
      rw [valid_not_hidden (target_valid x codec recorded.ascii recorded.sized)] at hides
      cases hides
    · rintro i member rfl
      have valid := recorded.valid i.source (by
        rw [← retired_sources]
        exact List.mem_map_of_mem member)
      rw [valid_not_hidden valid] at hides
      cases hides
    · rintro i member rfl
      obtain ⟨k, _, rfl⟩ := mem_retired.mp member
      rw [isJournal_tombstone] at looks
      cases looks
  rw [layout.others name fresh, start.journals name looks]

theorem mem_names {name : Text} : name ∈ names d ↔ (d.find? name).isSome = true := by
  rw [Option.isSome_iff_exists]
  simp only [names, List.mem_map]
  constructor
  · rintro ⟨⟨name, entry⟩, member, rfl⟩
    exact ⟨entry, OrderedMap.mem_toList_iff.mp member⟩
  · rintro ⟨entry, found⟩
    exact ⟨(name, entry), OrderedMap.mem_toList_iff.mpr found, rfl⟩

theorem names_nodup : (names d).Nodup := by
  unfold names List.Nodup
  rw [List.pairwise_map]
  exact d.sorted.imp (fun below => ne_of_lt below)

theorem eq_singleton {l : List Text} {a : Text} (distinct : l.Nodup) (there : a ∈ l)
    (only : ∀ b ∈ l, b = a) : l = [a] := by
  cases l with
  | nil => cases there
  | cons b rest =>
    cases only b (by simp)
    cases rest with
    | nil => rfl
    | cons c rest =>
      cases only c (by simp)
      simp at distinct

theorem journals_none (none : ∀ name, isJournal name = true → d.find? name = none) :
    (names d).filter isJournal = [] := by
  rw [List.filter_eq_nil_iff]
  intro name member looks
  have found := mem_names.mp member
  rw [none name looks] at found
  cases found

theorem journals_one (there : (d.find? x.journal).isSome = true)
    (others : ∀ name, isJournal name = true → name ≠ x.journal → d.find? name = none) :
    (names d).filter isJournal = [x.journal] := by
  apply eq_singleton (names_nodup.filter _)
  · exact List.mem_filter.mpr ⟨mem_names.mpr there, isJournal_journal⟩
  · intro name member
    obtain ⟨found, looks⟩ := List.mem_filter.mp member
    by_contra other
    rw [mem_names, others name looks other] at found
    cases found

/-! The markers that are left. -/

theorem cleanMarker_unchanged (start : Startable codec x before) {name : Text}
    (same : Unchanged before d) :
    Holds disk (Recoverable codec x before) (cleanMarker codec name)
      (fun ok t => ok = true ∧ Unchanged before t) d := by
  have quiet : Holds disk (Recoverable codec x before) (Prog.done true)
      (fun ok t => ok = true ∧ Unchanged before t) d :=
    ⟨.inr (.inr (.inr same)), rfl, same⟩
  unfold cleanMarker
  apply Holds.read
  cases found : d.find? name with
  | none => exact quiet
  | some entry =>
    cases entry with
    | file bytes => exact quiet
    | directory tree =>
      cases valid : validResourceId codec.toCodec name 1024 with
      | false => exact quiet
      | true =>
        have none := start.markers name tree valid ((same name).symm.trans found)
        simpa [none] using quiet

/-- The names behind have no marker any more. -/
def Cleaning (x : ImportTransaction) (before : Disk) (behind : List Text) (d : Disk) : Prop :=
  Published x before d ∧ (x.target ∈ behind → Imported x before d)

theorem cleanMarker_published (recorded : Recorded x codec) (built : Built codec x)
    (start : Startable codec x before) {behind : List Text} {name : Text}
    (cleaning : Cleaning x before behind d) :
    Holds disk (Recoverable codec x before) (cleanMarker codec name)
      (fun ok t => ok = true ∧ Cleaning x before (behind ++ [name]) t) d := by
  obtain ⟨published, through⟩ := cleaning
  have crash : Recoverable codec x before d := .inr (.inr (.inl published))
  have valid := target_valid x codec recorded.ascii recorded.sized
  obtain ⟨tree, shape, layout⟩ := published
  unfold cleanMarker
  apply Holds.read
  by_cases own : name = x.target
  · subst own
    rw [layout.target]
    dsimp only
    rw [valid]
    obtain rfl | rfl := shape
    · simp only [complete_marker built, Bool.not_true, Bool.false_eq_true, if_false]
      apply removeMarker_holds recorded.apart layout crash
      intro t layout
      have next : Published x before t := ⟨_, .inr rfl, layout⟩
      exact ⟨.inr (.inr (.inl next)), next, fun _ => layout⟩
    · simp only [OrderedMap.find?_erase_self, Bool.not_true, Bool.false_eq_true, if_false]
      exact ⟨crash, rfl, ⟨_, .inr rfl, layout⟩, fun _ => layout⟩
  · have quiet : Holds disk (Recoverable codec x before) (Prog.done true)
        (fun ok t => ok = true ∧ Cleaning x before (behind ++ [name]) t) d := by
      refine ⟨crash, rfl, ⟨tree, shape, layout⟩, fun member => through ?_⟩
      simpa [Ne.symm own] using member
    cases found : d.find? name with
    | none => exact quiet
    | some entry =>
      cases entry with
      | file bytes => exact quiet
      | directory other =>
        cases open_ : validResourceId codec.toCodec name 1024 with
        | false => exact quiet
        | true =>
          have fresh : name ∉ x.written := by
            apply not_written (valid_not_hidden open_) own
            rintro i member rfl
            rw [(layout.items i member).1] at found
            cases found
          rw [layout.others name fresh] at found
          simpa [start.markers name other open_ found] using quiet

/-! The recovery from every disk it may find. -/

theorem cleanMarkers_holds (recorded : Recorded x codec) (built : Built codec x)
    (start : Startable codec x before) (held : Unchanged before d ∨ Published x before d) :
    Holds disk (Recoverable codec x before) (Prog.forAll (cleanMarker codec) (names d))
      (fun ok t => ok = true ∧ (Unchanged before t ∨ Imported x before t)) d := by
  obtain same | published := held
  · have loop : Holds disk _ (Prog.forAll (cleanMarker codec) (names d)) _ d := Holds.forAll
      (fun _ t => Unchanged before t)
      (fun _ _ _ t _ same => cleanMarker_unchanged start same)
      (fun t same => .inr (.inr (.inr same))) same
    exact loop.post (fun ok t held => ⟨held.1, .inl held.2⟩)
  · have there : x.target ∈ names d := by
      obtain ⟨tree, -, layout⟩ := published
      rw [mem_names, layout.target]
      rfl
    have loop : Holds disk _ (Prog.forAll (cleanMarker codec) (names d)) _ d := Holds.forAll
      (Cleaning x before)
      (fun _ _ _ t _ cleaning => cleanMarker_published recorded built start cleaning)
      (fun t cleaning => .inr (.inr (.inl cleaning.1))) ⟨published, by simp⟩
    exact loop.post (fun ok t held => ⟨held.1, .inr (held.2.2 there)⟩)

theorem recover_holds (recorded : Recorded x codec) (built : Built codec x)
    (start : Startable codec x before) (held : Recoverable codec x before d) :
    Holds disk (Recoverable codec x before) (recoverImportTransactions codec)
      (fun ok t => ok = true ∧ (Unchanged before t ∨ Imported x before t)) d := by
  have rest {t : Disk} (held : Unchanged before t ∨ Published x before t) :
      Holds disk (Recoverable codec x before)
        (.read fun d => Prog.forAll (cleanMarker codec) (names d))
        (fun ok t => ok = true ∧ (Unchanged before t ∨ Imported x before t)) t :=
    cleanMarkers_holds recorded built start held
  have empty (none : ∀ name, isJournal name = true → d.find? name = none)
      (held : Unchanged before d ∨ Published x before d) :
      Holds disk (Recoverable codec x before) (recoverImportTransactions codec)
        (fun ok t => ok = true ∧ (Unchanged before t ∨ Imported x before t)) d := by
    have crash : Recoverable codec x before d := by
      obtain same | published := held
      · exact .inr (.inr (.inr same))
      · exact .inr (.inr (.inl published))
    unfold recoverImportTransactions
    simp only [Holds, journals_none none]
    exact Holds.andThen ⟨crash, rfl, rest held⟩
  have one (journal : d.find? x.journal = some (.file (codec.dump x.document)))
      (others : ∀ name, isJournal name = true → name ≠ x.journal → d.find? name = none)
      (held : Old codec x before d ∨ New codec x before d) :
      Holds disk (Recoverable codec x before) (recoverImportTransactions codec)
        (fun ok t => ok = true ∧ (Unchanged before t ∨ Imported x before t)) d := by
    have kind : pathKind d x.journal = .regularFile := by simp [pathKind, journal]
    unfold recoverImportTransactions
    simp only [Holds, journals_one (by simp [journal]) others]
    simp only [List.length_singleton, List.any_cons, kind]
    apply Holds.andThen
    apply Holds.andThen
    apply (recoverJournal_holds recorded built start held).post
    rintro ok t ⟨yes, end_⟩
    have settled : Unchanged before t ∨ Published x before t :=
      end_.imp_right (fun layout => ⟨_, .inr rfl, layout⟩)
    have crash : Recoverable codec x before t := by
      obtain same | published := settled
      · exact .inr (.inr (.inr same))
      · exact .inr (.inr (.inl published))
    exact ⟨yes, crash, rfl, rest settled⟩
  obtain old | new | published | same := held
  · have layout := old
    obtain ⟨_, _, layout⟩ := layout
    exact one layout.journal (fun _ => layout.journals recorded start) (.inl old)
  · exact one new.journal (fun _ => Layout.journals new recorded start) (.inr new)
  · have layout := published
    obtain ⟨_, _, layout⟩ := layout
    apply empty _ (.inr published)
    intro name looks
    by_cases own : name = x.journal
    · rw [own, layout.journal]
    · exact layout.journals recorded start looks own
  · apply empty _ (.inl same)
    intro name looks
    rw [same, start.journals name looks]

/-! The import. -/

/-- The journal has its name and not all of its bytes. -/
def Torn (codec : JournalCodec T) (x : ImportTransaction) (before d : Disk) : Prop :=
  ∃ bytes, bytes <+: codec.dump x.document ∧ bytes ≠ codec.dump x.document ∧
    Layout x before d (some (.file bytes)) none none (Kept before)

def Cut (codec : JournalCodec T) (x : ImportTransaction) (before d : Disk) : Prop :=
  Recoverable codec x before d ∨ Torn codec x before d

theorem layout_before (start : Startable codec x before) :
    Layout x before before none none none (Kept before) where
  journal := start.journals _ isJournal_journal
  staging := start.staging
  target := start.target
  items := fun i member => ⟨rfl, start.tombstones i member⟩
  others := fun _ _ => rfl

theorem old_of_kept {staging : Option Entry} (kind : staging = none ∨ Directory staging)
    (layout : Layout x before d (some (.file (codec.dump x.document))) staging none
      (Kept before)) : Old codec x before d :=
  ⟨staging, kind, layout.weaken (fun _ _ kept => .inl kept)⟩

theorem cut_of_prefix {bytes : Text} (part : bytes <+: codec.dump x.document)
    (layout : Layout x before d (some (.file bytes)) none none (Kept before)) :
    Cut codec x before d := by
  by_cases whole : bytes = codec.dump x.document
  · subst whole
    exact .inl (.inl (old_of_kept (.inl rfl) layout))
  · exact .inr ⟨bytes, part, whole, layout⟩

/-- What has been built in the staging directory so far. -/
def built (writes : List (Path × Node)) : Tree :=
  writes.foldl (fun tree write => tree.insert write.1 write.2) .empty

/-- The configurations behind are under their tombstones. -/
def Retiring (codec : JournalCodec T) (x : ImportTransaction) (before : Disk)
    (behind : List ImportRecoveryItem) (d : Disk) : Prop :=
  Layout x before d (some (.file (codec.dump x.document))) (some (.directory x.complete)) none
    (fun i source tombstone => (i ∈ behind ∧ Moved before i source tombstone) ∨
      (i ∉ behind ∧ Kept before i source tombstone))

theorem Retiring.cut {behind : List ImportRecoveryItem}
    (retiring : Retiring codec x before behind d) : Cut codec x before d := by
  left
  left
  refine ⟨_, .inr ⟨_, rfl⟩, Layout.weaken retiring ?_⟩
  rintro i - (⟨-, moved⟩ | ⟨-, kept⟩)
  · exact .inr moved
  · exact .inl kept

theorem retired_nodup (recorded : Recorded x codec) : x.retired.Nodup := by
  apply List.Nodup.of_map ImportRecoveryItem.source
  rw [retired_sources]
  exact recorded.distinct

theorem retire_step (recorded : Recorded x codec) (start : Startable codec x before)
    {behind ahead : List ImportRecoveryItem} {item : ImportRecoveryItem} {ok : Bool}
    (split : x.retired = behind ++ item :: ahead) (retiring : Retiring codec x before behind d)
    (step : disk.effect (.rename item.source item.tombstone) d ok t) :
    Retiring codec x before (behind ++ [item]) t := by
  have apart := recorded.apart
  have member : item ∈ x.retired := by simp [split]
  have fresh : item ∉ behind := by
    have distinct := retired_nodup recorded
    rw [split, List.nodup_append] at distinct
    exact fun there => distinct.2.2 item there item (by simp) rfl
  obtain ⟨tree, there⟩ := start.sources item member
  have here := retiring.items item member
  simp only [fresh, false_and, false_or, not_false_eq_true, true_and] at here
  obtain ⟨source, tombstone⟩ := here
  obtain ⟨-, rfl⟩ := perform_rename (source.trans there) tombstone step
  apply Layout.setItem retiring apart member
  · intro name source tombstone
    rw [find?_rename, if_neg tombstone, if_neg source]
  · refine .inl ⟨by simp, ?_, ?_⟩
    · rw [find?_rename, if_neg (apart.across item member item member), if_pos rfl]
    · rw [find?_rename, if_pos rfl, there]
  · rintro i - other held
    simpa [other] using held

theorem publish_step (recorded : Recorded x codec) (start : Startable codec x before)
    {ok : Bool} (retiring : Retiring codec x before x.retired d)
    (step : disk.effect (.rename x.staging x.target) d ok t) : New codec x before t := by
  have apart := recorded.apart
  obtain ⟨-, rfl⟩ := perform_rename retiring.staging retiring.target step
  have without := Layout.setStaging retiring apart
    (fun name other => OrderedMap.find?_erase_ne d (Ne.symm other))
  rw [OrderedMap.find?_erase_self] at without
  have within := without.setTarget apart
    (fun name other => OrderedMap.find?_insert_ne _ (Entry.directory x.complete)
      (Ne.symm other))
  rw [OrderedMap.find?_insert_self] at within
  apply within.weaken
  rintro i member (⟨-, source, tombstone⟩ | ⟨absent, -⟩)
  · refine ⟨source, .inr ?_⟩
    obtain ⟨tree, there⟩ := start.sources i member
    exact ⟨tree, tombstone.trans there⟩
  · exact absurd member absent

theorem finish_holds (apart : Apart x) (clearing : Clearing codec x before x.retired d) :
    Holds disk (Cut codec x before) x.finish (fun _ t => Imported x before t) d := by
  have cleared : Layout x before d (some (.file (codec.dump x.document))) none
      (some (.directory x.complete)) Cleared :=
    Layout.weaken clearing (fun i member held => ⟨held.1.1, held.2 member⟩)
  have all : x.retired.all (fun item => pathKind d item.tombstone = .missing) = true := by
    rw [List.all_eq_true]
    intro i member
    simp [pathKind, (cleared.items i member).2]
  unfold ImportTransaction.finish
  simp only [Holds, all, if_true]
  refine ⟨.inl (.inr (.inl clearing.new)), fun ok t step => ?_⟩
  change perform d (.removeFile x.journal) = (ok, t) at step
  simp only [perform, cleared.journal, Prod.mk.injEq] at step
  obtain ⟨rfl, rfl⟩ := step
  have now := cleared.setJournal apart
    (fun name other => OrderedMap.find?_erase_ne d (Ne.symm other))
  rw [OrderedMap.find?_erase_self] at now
  simp only [if_true]
  refine ⟨.inl (.inr (.inr (.inl ⟨_, .inl rfl, now⟩))), fun ok t step => ?_⟩
  change perform _ (.removeBelow x.target marker) = (ok, t) at step
  simp only [perform, now.target, Prod.mk.injEq] at step
  obtain ⟨rfl, rfl⟩ := step
  have last := now.setTarget apart (fun name other =>
    OrderedMap.find?_insert_ne _ (Entry.directory (x.complete.erase marker)) (Ne.symm other))
  rw [OrderedMap.find?_insert_self] at last
  exact ⟨.inl (.inr (.inr (.inl ⟨_, .inr rfl, last⟩))), last⟩

theorem removeTombstones_holds (apart : Apart x) {behind ahead : List ImportRecoveryItem}
    (split : x.retired = behind ++ ahead) (clearing : Clearing codec x before behind d) :
    Holds disk (Cut codec x before) (ImportTransaction.removeTombstones ahead x.finish)
      (fun _ t => Imported x before t) d := by
  induction ahead generalizing behind d with
  | nil =>
    rw [List.append_nil] at split
    subst split
    exact finish_holds apart clearing
  | cons item rest ih =>
    have member : item ∈ x.retired := by simp [split]
    have kind : pathKind d item.tombstone ≠ .regularFile := by
      obtain none | ⟨tree, there⟩ := (clearing.items item member).1.2
      · simp [pathKind, none]
      · simp [pathKind, there]
    apply holds_removeTree kind
    · exact fun t same kind => .inl (.inr (.inl (clearing.change apart member same kind)))
    · intro t same missing
      exact ih (by simpa using split) (clearing.clear apart member same missing)

/-- From the first write to the last, an import that is cut leaves a disk the recovery can
handle or a torn journal. -/
theorem import_holds (recorded : Recorded x codec) (made : Built codec x)
    (start : Startable codec x before) :
    Holds disk (Cut codec x before) x.importConfig (fun _ t => Imported x before t) before := by
  have apart := recorded.apart
  have first := layout_before start
  unfold ImportTransaction.importConfig ImportTransaction.publication
  simp only [Prog.writeAll_append]
  refine ⟨.inl (.inr (.inr (.inr (fun _ => rfl)))), fun ok d step => ?_⟩
  change perform before (.create x.journal) = (ok, d) at step
  simp only [perform, first.journal, Prod.mk.injEq] at step
  obtain ⟨rfl, rfl⟩ := step
  have named := first.setJournal apart
    (fun name other => OrderedMap.find?_insert_ne before (.file []) (Ne.symm other))
  rw [OrderedMap.find?_insert_self] at named
  -- The bytes of the journal.
  apply Holds.writeAll (fun behind t =>
    Layout x before t (some (.file behind.flatten)) none none (Kept before))
  · intro behind chunk ahead t split layout
    apply cut_of_prefix _ layout
    rw [← made.chunks, split]
    simp
  · intro behind chunk ahead s ok t split layout step
    change perform s (.append x.journal chunk) = (ok, t) at step
    simp only [perform, layout.journal, Prod.mk.injEq] at step
    obtain ⟨rfl, rfl⟩ := step
    have next := layout.setJournal apart (fun name other =>
      OrderedMap.find?_insert_ne s (.file (behind.flatten ++ chunk)) (Ne.symm other))
    rw [OrderedMap.find?_insert_self] at next
    simpa using next
  · exact named
  intro d layout
  rw [made.chunks] at layout
  -- The staging directory.
  refine ⟨.inl (.inl (old_of_kept (.inl rfl) layout)), fun ok t step => ?_⟩
  change perform d (.makeDirectory x.staging) = (ok, t) at step
  simp only [perform, layout.staging, Prod.mk.injEq] at step
  obtain ⟨rfl, rfl⟩ := step
  have staged := layout.setStaging apart (fun name other =>
    OrderedMap.find?_insert_ne d (.directory .empty) (Ne.symm other))
  rw [OrderedMap.find?_insert_self] at staged
  apply Holds.writeAll (fun behind t => Layout x before t
    (some (.file (codec.dump x.document))) (some (.directory (built behind))) none (Kept before))
  · intro behind write ahead t split layout
    exact .inl (.inl (old_of_kept (.inr ⟨_, rfl⟩) layout))
  · intro behind write ahead s ok t split layout step
    change perform s (.put x.staging write.1 write.2) = (ok, t) at step
    simp only [perform, layout.staging, Prod.mk.injEq] at step
    obtain ⟨rfl, rfl⟩ := step
    have next := layout.setStaging apart (fun name other => OrderedMap.find?_insert_ne s
      (.directory ((built behind).insert write.1 write.2)) (Ne.symm other))
    rw [OrderedMap.find?_insert_self] at next
    simpa [built] using next
  · exact staged
  intro d layout
  -- The renames.
  apply Holds.writeAll (Retiring codec x before)
  · exact fun behind item ahead t split retiring => retiring.cut
  · intro behind item ahead s ok t split retiring step
    exact retire_step recorded start split retiring step
  · exact layout.weaken (fun i _ kept => .inr ⟨by simp, kept⟩)
  intro d retiring
  refine ⟨retiring.cut, fun ok t step => ?_⟩
  have new := publish_step recorded start retiring step
  have split : x.retired = [] ++ x.retired := rfl
  apply removeTombstones_holds apart split
  exact Layout.weaken new (fun i _ held => ⟨held, by simp⟩)

/-! Which crashes the recovery gets over. -/

/-- However often the recovery is cut first, one that comes to its end answers yes and
leaves the old configurations or the new one. -/
def Recovers (codec : JournalCodec T) (x : ImportTransaction) (before d : Disk) : Prop :=
  ∀ t, Restarts disk (recoverImportTransactions codec) d t →
    (∃ ok u, Exec disk (recoverImportTransactions codec) t (some ok) u) ∧
      ∀ ok u, Exec disk (recoverImportTransactions codec) t (some ok) u →
        ok = true ∧ (Unchanged before u ∨ Imported x before u)

theorem recovers_of_recoverable (recorded : Recorded x codec) (built : Built codec x)
    (start : Startable codec x before) (held : Recoverable codec x before d) :
    Recovers codec x before d := by
  intro t restarts
  have cut := Restarts.holds (fun s => recover_holds recorded built start) held restarts
  refine ⟨Exec.completes _ _ t, fun ok u run => ?_⟩
  exact ((recover_holds recorded built start cut).exec run).2 ok rfl

/-- A torn journal is refused, and stays. -/
theorem torn_refused (recorded : Recorded x codec) (start : Startable codec x before)
    (torn : Torn codec x before d) :
    Holds disk (Torn codec x before) (recoverImportTransactions codec)
      (fun ok _ => ok = false) d := by
  have here := torn
  obtain ⟨bytes, part, less, layout⟩ := here
  have found := layout.journal
  have kind : pathKind d x.journal = .regularFile := by simp [pathKind, found]
  have others := fun name => @Layout.journals _ _ _ _ _ _ _ _ _ layout recorded start name
  have small : ¬ 65536 < bytes.length :=
    Nat.not_lt.mpr (part.length_le.trans recorded.short)
  have unread : importRecoveryRecord codec bytes x.journal = none := by
    unfold importRecoveryRecord
    rw [parse_journal_name x recorded.sized, recorded.torn bytes part less]
  unfold recoverImportTransactions
  simp [Holds, journals_one (by simp [found]) others, kind, Prog.forAll, Prog.andThen,
    recoverJournal, Prog.bind, found, small, unread, torn]

theorem recovers_iff (recorded : Recorded x codec) (built : Built codec x)
    (start : Startable codec x before) (d : Disk)
    (crash : Exec disk x.importConfig before none d) :
    Recovers codec x before d ↔ ¬ Torn codec x before d := by
  constructor
  · intro recovers torn
    obtain ⟨⟨ok, u, run⟩, yes⟩ := recovers d .refl
    have no := ((torn_refused recorded start torn).exec run).2 ok rfl
    rw [(yes ok u run).1] at no
    cases no
  · intro whole
    have cut := ((import_holds recorded built start).exec crash).1
    exact recovers_of_recoverable recorded built start (cut.resolve_right whole)

/-! One import. -/

def sampleText : Text :=
  utf8 ("\x7b\"retired\":[\x7b\"source\":\"1\"," ++
    "\"tombstone\":\".baas-import-retired-1-2-1-0\"\x7d]," ++
    "\"staging\":\".baas-import-1-2-1\",\"target\":\"2\",\"version\":1\x7d")

/-- Process 1 replaces the configuration `1` at the time 2. -/
def sample : ImportTransaction where
  processId := 1
  timestamp := 2
  sequence := 1
  replaced := [utf8 "1"]
  chunks := [sampleText]
  markerChunks := [utf8 ".baas-import-journal-1-2-1.json"]
  build := [([utf8 "config.json"], .file []), ([utf8 "config.json"], .file (utf8 "\x7b\x7d"))]

def sampleCodec : JournalCodec Unit where
  parse _ := none
  dump _ := sampleText
  pretty _ := []
  dumpItems _ := []
  bounded _ := true
  timestampValue _ := none
  projectSetupToml _ := none
  mergeSetupToml _ _ := none
  validUtf8 _ := true
  parseJournal bytes := if bytes = sampleText then some sample.document else none

def sampleDisk : Disk := OrderedMap.empty.insert (utf8 "1") (.directory .empty)

def sampleTorn : Disk := sampleDisk.insert sample.journal (.file [])

theorem sample_names : isJournal (utf8 "1") = false ∧ hidden (utf8 "1") = false ∧
    sample.journal ≠ utf8 "1" ∧ sample.staging ≠ utf8 "1" ∧ sample.target ≠ utf8 "1" := by
  decide +kernel

theorem sample_texts :
    (∀ id ∈ sample.replaced, validResourceId sampleCodec.toCodec id 1024 = true) ∧
      sample.markerChunks.flatten = sample.journal ∧
      (∀ write ∈ sample.build, write.1 ≠ marker) ∧
      sampleText.length ≤ 65536 ∧ 16 ≤ sampleText.length := by
  decide +kernel

theorem sample_recorded : Recorded sample sampleCodec where
  sized := ⟨by decide, by decide, by decide⟩
  distinct := by simp [sample]
  valid := sample_texts.1
  other := fun member => sample_names.2.2.2.2 (List.mem_singleton.mp member)
  ascii := fun _ _ => rfl
  short := sample_texts.2.2.2.1
  reads := by simp [sampleCodec]
  torn := by
    intro bytes _ less
    simpa [sampleCodec] using less
  weight := sample_texts.2.2.2.2

theorem sample_built : Built sampleCodec sample where
  chunks := by simp [sample, sampleCodec]
  markerChunks := sample_texts.2.1
  build := sample_texts.2.2.1

theorem sample_find? {name : Text} (other : name ≠ utf8 "1") : sampleDisk.find? name = none := by
  rw [sampleDisk, OrderedMap.find?_insert_ne _ _ (Ne.symm other), OrderedMap.find?_empty]

theorem sample_start : Startable sampleCodec sample sampleDisk where
  sources := by
    intro i member
    have same : i.source = utf8 "1" := by
      have listed := List.mem_map_of_mem (f := ImportRecoveryItem.source) member
      rw [retired_sources] at listed
      simpa [sample] using listed
    exact ⟨.empty, by rw [same, sampleDisk, OrderedMap.find?_insert_self]⟩
  tombstones := by
    intro i member
    obtain ⟨k, _, rfl⟩ := mem_retired.mp member
    apply sample_find?
    intro same
    have hides : hidden (utf8 "1") = true := same ▸ tombstone_hidden k
    rw [sample_names.2.1] at hides
    cases hides
  staging := sample_find? sample_names.2.2.2.1
  target := sample_find? sample_names.2.2.2.2
  journals := by
    intro name looks
    apply sample_find?
    rintro rfl
    rw [sample_names.1] at looks
    cases looks
  markers := by
    intro name tree _ found
    by_cases same : name = utf8 "1"
    · rw [same, sampleDisk, OrderedMap.find?_insert_self] at found
      cases found
      rfl
    · rw [sample_find? same] at found
      cases found

/-- The process ends after the journal has got its name. -/
theorem sample_cut : Exec disk sample.importConfig sampleDisk none sampleTorn := by
  have free : sampleDisk.find? sample.journal = none := sample_find? sample_names.2.2.1
  have created : perform sampleDisk (.create sample.journal) = (true, sampleTorn) := by
    simp [perform, free, sampleTorn]
  exact .write created .crash

theorem sample_torn : Torn sampleCodec sample sampleDisk sampleTorn := by
  have long := sample_texts.2.2.2.2
  refine ⟨[], List.nil_prefix, fun empty => ?_, ?_⟩
  · rw [← show [] = sampleText from empty] at long
    cases long
  have named := (layout_before sample_start).setJournal sample_recorded.apart
    (fun name other => OrderedMap.find?_insert_ne sampleDisk (Entry.file []) (Ne.symm other))
  rw [OrderedMap.find?_insert_self] at named
  exact named

theorem recovers_iff_sample : ¬ Recovers sampleCodec sample sampleDisk sampleTorn := by
  have exact_ := recovers_iff sample_recorded sample_built sample_start sampleTorn sample_cut
  rw [exact_, not_not]
  exact sample_torn

/-- No recovery of the directory succeeds, although only the import has written there. -/
theorem torn_journal_refused : ∃ d, Exec disk sample.importConfig sampleDisk none d ∧
    ∀ t, Restarts disk (recoverImportTransactions sampleCodec) d t → ∀ ok u,
      Exec disk (recoverImportTransactions sampleCodec) t (some ok) u → ok = false := by
  refine ⟨sampleTorn, sample_cut, fun t restarts ok u run => ?_⟩
  have still := Restarts.holds (fun s => torn_refused sample_recorded sample_start)
    sample_torn restarts
  exact ((torn_refused sample_recorded sample_start still).exec run).2 ok rfl

end Baas.Resource.Import
