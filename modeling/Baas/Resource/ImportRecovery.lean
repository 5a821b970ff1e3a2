import Baas.Resource.ImportLayout

/-! What the recovery makes of each disk that a crash of an import or of the recovery
itself can leave. -/
namespace Baas.Resource.Import

open Durable

variable {T : Type} {codec : JournalCodec T} {x : ImportTransaction} {before d t : Disk}

/-- The directory an import publishes, its marker included. -/
def ImportTransaction.complete (x : ImportTransaction) : Tree :=
  x.stagingWrites.foldl (fun tree write => tree.insert write.1 write.2) .empty

def Directory (entry : Option Entry) : Prop := ∃ tree, entry = some (.directory tree)

/-- A configuration that is where it was. -/
def Kept (before : Disk) (i : ImportRecoveryItem) (source tombstone : Option Entry) : Prop :=
  source = before.find? i.source ∧ tombstone = none

/-- A configuration that is under its tombstone. -/
def Moved (before : Disk) (i : ImportRecoveryItem) (source tombstone : Option Entry) : Prop :=
  source = none ∧ tombstone = before.find? i.source

/-- A replaced configuration, with what is left of its tombstone. -/
def Gone (_ : ImportRecoveryItem) (source tombstone : Option Entry) : Prop :=
  source = none ∧ (tombstone = none ∨ Directory tombstone)

def Cleared (_ : ImportRecoveryItem) (source tombstone : Option Entry) : Prop :=
  source = none ∧ tombstone = none

/-- What the import and the recovery find before they start. -/
structure Startable (codec : JournalCodec T) (x : ImportTransaction) (before : Disk) : Prop where
  sources : ∀ i ∈ x.retired, Directory (before.find? i.source)
  tombstones : ∀ i ∈ x.retired, before.find? i.tombstone = none
  staging : before.find? x.staging = none
  target : before.find? x.target = none
  journals : ∀ name, isJournal name = true → before.find? name = none
  markers : ∀ name tree, validResourceId codec.toCodec name 1024 = true →
    before.find? name = some (.directory tree) → tree.find? marker = none

/-- The journal is complete and the target is not there. -/
def Old (codec : JournalCodec T) (x : ImportTransaction) (before d : Disk) : Prop :=
  ∃ staging, (staging = none ∨ Directory staging) ∧
    Layout x before d (some (.file (codec.dump x.document))) staging none
      (fun i source tombstone => Kept before i source tombstone ∨ Moved before i source tombstone)

/-- The journal is complete and the target is there. -/
def New (codec : JournalCodec T) (x : ImportTransaction) (before d : Disk) : Prop :=
  Layout x before d (some (.file (codec.dump x.document))) none
    (some (.directory x.complete)) Gone

/-- The import is through, with or without its marker. -/
def Published (x : ImportTransaction) (before d : Disk) : Prop :=
  ∃ tree, (tree = x.complete ∨ tree = x.complete.erase marker) ∧
    Layout x before d none none (some (.directory tree)) Cleared

def Imported (x : ImportTransaction) (before d : Disk) : Prop :=
  Layout x before d none none (some (.directory (x.complete.erase marker))) Cleared

def Unchanged (before d : Disk) : Prop := ∀ name, d.find? name = before.find? name

def Recoverable (codec : JournalCodec T) (x : ImportTransaction) (before d : Disk) : Prop :=
  Old codec x before d ∨ New codec x before d ∨ Published x before d ∨ Unchanged before d

/-- Without journal, staging directory and tombstones, with every configuration in place. -/
theorem unchanged_of_layout (start : Startable codec x before)
    (layout : Layout x before d none none none (Kept before)) : Unchanged before d := by
  intro name
  by_cases own : name ∈ x.written
  · simp only [ImportTransaction.written, List.mem_append, List.mem_cons, List.not_mem_nil,
      or_false, List.mem_map] at own
    obtain ((rfl | rfl | rfl) | ⟨i, member, rfl⟩) | ⟨i, member, rfl⟩ := own
    · rw [layout.journal, start.journals _ isJournal_journal]
    · rw [layout.staging, start.staging]
    · rw [layout.target, start.target]
    · exact (layout.items i member).1
    · rw [(layout.items i member).2, start.tombstones i member]
  · exact layout.others name own

theorem find?_rename {source target : Text} {entry : Entry} (name : Text) :
    ((d.erase source).insert target entry).find? name =
      if name = target then some entry else if name = source then none else d.find? name := by
  by_cases first : name = target
  · simp [first]
  · rw [OrderedMap.find?_insert_ne _ _ (Ne.symm first), if_neg first]
    by_cases second : name = source
    · simp [second]
    · rw [OrderedMap.find?_erase_ne _ (Ne.symm second), if_neg second]

theorem perform_rename {source target : Text} {entry : Entry} {ok : Bool}
    (found : d.find? source = some entry) (free : d.find? target = none)
    (step : disk.effect (.rename source target) d ok t) :
    ok = true ∧ t = (d.erase source).insert target entry := by
  change perform d (.rename source target) = (ok, t) at step
  simp only [perform, found, free, Prod.mk.injEq] at step
  exact ⟨step.1.symm, step.2.symm⟩

section RollBack

/-- The items behind are back in place. -/
def Restoring (codec : JournalCodec T) (x : ImportTransaction) (before : Disk)
    (behind : List ImportRecoveryItem) (d : Disk) : Prop :=
  ∃ staging, (staging = none ∨ Directory staging) ∧
    Layout x before d (some (.file (codec.dump x.document))) staging none
      (fun i source tombstone => Kept before i source tombstone ∨
        (i ∉ behind ∧ Moved before i source tombstone))

theorem Restoring.old {behind : List ImportRecoveryItem}
    (restoring : Restoring codec x before behind d) : Old codec x before d := by
  obtain ⟨staging, kind, layout⟩ := restoring
  refine ⟨staging, kind, layout.weaken (fun i _ held => ?_)⟩
  exact held.imp_right And.right

theorem restore_holds (apart : Apart x) (start : Startable codec x before)
    {behind : List ImportRecoveryItem} {item : ImportRecoveryItem} (member : item ∈ x.retired)
    (restoring : Restoring codec x before behind d) :
    Holds disk (Recoverable codec x before) (restore item)
      (fun ok t => ok = true ∧ Restoring codec x before (behind ++ [item]) t) d := by
  have old := restoring.old
  obtain ⟨staging, kind, layout⟩ := restoring
  obtain ⟨tree, there⟩ := start.sources item member
  have widen {t : Disk} (layout : Layout x before t (some (.file (codec.dump x.document)))
      staging none (fun i source tombstone => Kept before i source tombstone ∨
        (i ∉ behind ++ [item] ∧ Moved before i source tombstone))) :
      Restoring codec x before (behind ++ [item]) t := ⟨staging, kind, layout⟩
  unfold restore
  apply Holds.read
  obtain ⟨source, tombstone⟩ | ⟨-, source, tombstone⟩ := layout.items item member
  · have kinds : pathKind d item.tombstone = .missing ∧ pathKind d item.source = .directory := by
      simp [pathKind, source, tombstone, there]
    rw [kinds.1, kinds.2]
    refine ⟨.inl old, rfl, widen (layout.setItem apart member (fun _ _ _ => rfl) ?_ ?_)⟩
    · exact .inl ⟨source, tombstone⟩
    · rintro i - other (kept | ⟨ahead, moved⟩)
      · exact .inl kept
      · exact .inr ⟨by simp [ahead, other], moved⟩
  · have kinds : pathKind d item.tombstone = .directory ∧ pathKind d item.source = .missing := by
      simp [pathKind, source, tombstone, there]
    rw [kinds.1, kinds.2]
    refine ⟨.inl old, fun ok t step => ?_⟩
    obtain ⟨rfl, rfl⟩ := perform_rename (tombstone.trans there) source step
    have next : Restoring codec x before (behind ++ [item])
        ((d.erase item.tombstone).insert item.source (.directory tree)) := by
      refine widen (layout.setItem apart member ?_ ?_ ?_)
      · intro name source tombstone
        rw [find?_rename, if_neg source, if_neg tombstone]
      · left
        refine ⟨by rw [find?_rename, if_pos rfl, there], ?_⟩
        rw [find?_rename, if_neg (apart.across item member item member).symm, if_pos rfl]
      · rintro i - other (kept | ⟨ahead, moved⟩)
        · exact .inl kept
        · exact .inr ⟨by simp [ahead, other], moved⟩
    exact ⟨.inl next.old, rfl, next⟩

theorem removeStaging_holds (apart : Apart x) {after : Disk → Prop}
    {crashed : Disk → Prop} {journal target : Option Entry}
    {item : ImportRecoveryItem → Option Entry → Option Entry → Prop} {staging : Option Entry}
    (layout : Layout x before d journal staging target item)
    (kind : staging = none ∨ Directory staging)
    (cut : ∀ t staging, (staging = none ∨ Directory staging) →
      Layout x before t journal staging target item → crashed t)
    (rest : ∀ t, Layout x before t journal none target item → after t) :
    Holds disk crashed (removeStaging x.staging) (fun ok t => ok = true ∧ after t) d := by
  have noFile {t : Disk} (here : t.find? x.staging = none ∨ Directory (t.find? x.staging)) :
      pathKind t x.staging ≠ .regularFile := by
    obtain none | ⟨tree, found⟩ := here
    · simp [pathKind, none]
    · simp [pathKind, found]
  have toKind {t : Disk} (here : pathKind t x.staging ≠ .regularFile) :
      t.find? x.staging = none ∨ Directory (t.find? x.staging) := by
    unfold pathKind at here
    cases found : t.find? x.staging with
    | none => exact .inl rfl
    | some entry =>
      cases entry with
      | file bytes => simp [found] at here
      | directory tree => exact .inr ⟨tree, rfl⟩
  have gone (t : Disk) (same : ∀ other, other ≠ x.staging → t.find? other = d.find? other)
      (missing : t.find? x.staging = none) :
      Holds disk crashed (isMissing x.staging) (fun ok t => ok = true ∧ after t) t := by
    have now := layout.setStaging apart same
    rw [missing] at now
    exact ⟨cut t none (.inl rfl) now, by simp [pathKind, missing], rest t now⟩
  have here := noFile (layout.staging.symm ▸ kind)
  unfold removeStaging
  apply Holds.read
  cases found : pathKind d x.staging with
  | regularFile => exact absurd found here
  | missing =>
    apply gone d (fun _ _ => rfl)
    unfold pathKind at found
    split at found <;> simp_all
  | directory =>
    apply holds_removeTree here
    · intro t same kind
      exact cut t _ (toKind kind) (layout.setStaging apart same)
    · exact gone

theorem removeJournal_holds (apart : Apart x) {after crashed : Disk → Prop}
    {bytes : Text} {staging target : Option Entry}
    {item : ImportRecoveryItem → Option Entry → Option Entry → Prop}
    (layout : Layout x before d (some (.file bytes)) staging target item) (cut : crashed d)
    (rest : ∀ t, Layout x before t none staging target item → crashed t ∧ after t) :
    Holds disk crashed (durableRemove x.journal) (fun ok t => ok = true ∧ after t) d := by
  refine ⟨cut, fun ok t step => ?_⟩
  change perform d (.removeFile x.journal) = (ok, t) at step
  simp only [perform, layout.journal, Prod.mk.injEq] at step
  obtain ⟨rfl, rfl⟩ := step
  have now := layout.setJournal apart
    (fun name other => OrderedMap.find?_erase_ne d (Ne.symm other))
  rw [OrderedMap.find?_erase_self] at now
  obtain ⟨crash, done⟩ := rest _ now
  exact ⟨crash, rfl, done⟩

theorem rollBack_holds (apart : Apart x) (start : Startable codec x before)
    (old : Old codec x before d) :
    Holds disk (Recoverable codec x before)
      (rollBack ⟨x.staging, x.target, x.retired⟩ x.journal)
      (fun ok t => ok = true ∧ Unchanged before t) d := by
  obtain ⟨staging, kind, layout⟩ := old
  apply Holds.andThen
  have loop : Holds disk _ (Prog.forAll restore x.retired.reverse) _ d := Holds.forAll
    (Restoring codec x before)
    (fun behind item ahead t split restoring => restore_holds apart start
      (by rw [← List.mem_reverse, split]; simp) restoring)
    (fun t restoring => .inl restoring.old)
    ⟨staging, kind, layout.weaken (fun i _ held => held.imp_right (fun moved => ⟨by simp, moved⟩))⟩
  apply loop.post
  rintro ok t ⟨yes, staging, kind, layout⟩
  refine ⟨yes, ?_⟩
  have kept : Layout x before t (some (.file (codec.dump x.document))) staging none
      (Kept before) := by
    apply layout.weaken
    rintro i member (kept | ⟨ahead, -⟩)
    · exact kept
    · exact absurd (List.mem_reverse.mpr member) ahead
  apply Holds.andThen
  apply removeStaging_holds apart kept kind
  · intro t staging kind layout
    exact .inl ⟨staging, kind, layout.weaken (fun _ _ kept => .inl kept)⟩
  · intro t layout
    apply removeJournal_holds apart layout
    · exact .inl ⟨none, .inl rfl, layout.weaken (fun _ _ kept => .inl kept)⟩
    · intro t layout
      have unchanged := unchanged_of_layout start layout
      exact ⟨.inr (.inr (.inr unchanged)), unchanged⟩

end RollBack

section RollForward

/-- The tombstones behind are gone. -/
def Clearing (codec : JournalCodec T) (x : ImportTransaction) (before : Disk)
    (behind : List ImportRecoveryItem) (d : Disk) : Prop :=
  Layout x before d (some (.file (codec.dump x.document))) none (some (.directory x.complete))
    (fun i source tombstone => Gone i source tombstone ∧ (i ∈ behind → tombstone = none))

theorem Clearing.new {behind : List ImportRecoveryItem}
    (clearing : Clearing codec x before behind d) : New codec x before d :=
  Layout.weaken clearing (fun _ _ held => held.1)

theorem pathKind_directory {name : Text} (kind : pathKind d name = .directory) :
    Directory (d.find? name) := by
  unfold pathKind at kind
  cases found : d.find? name with
  | none => simp [found] at kind
  | some entry =>
    cases entry with
    | file bytes => simp [found] at kind
    | directory tree => exact ⟨tree, rfl⟩

theorem pathKind_missing {name : Text} (kind : pathKind d name = .missing) :
    d.find? name = none := by
  unfold pathKind at kind
  cases found : d.find? name with
  | none => rfl
  | some entry => cases entry <;> simp [found] at kind

/-- What may stand under a tombstone while it is removed. -/
theorem gone_of_kind {i : ImportRecoveryItem} {source : Option Entry} (missing : source = none)
    {name : Text} (kind : pathKind d name ≠ .regularFile) : Gone i source (d.find? name) := by
  refine ⟨missing, ?_⟩
  cases found : pathKind d name with
  | missing => exact .inl (pathKind_missing found)
  | regularFile => exact absurd found kind
  | directory => exact .inr (pathKind_directory found)

theorem Clearing.change (apart : Apart x) {behind : List ImportRecoveryItem}
    {item : ImportRecoveryItem} (member : item ∈ x.retired)
    (clearing : Clearing codec x before behind d)
    (same : ∀ other, other ≠ item.tombstone → t.find? other = d.find? other)
    (kind : pathKind t item.tombstone ≠ .regularFile) : New codec x before t := by
  have source : t.find? item.source = d.find? item.source :=
    same _ (apart.across item member item member)
  apply clearing.new.setItem apart member
  · exact fun name _ tombstone => same name tombstone
  · exact gone_of_kind (source.trans (clearing.items item member).1.1) kind
  · exact fun _ _ _ held => held

theorem Clearing.clear (apart : Apart x) {behind : List ImportRecoveryItem}
    {item : ImportRecoveryItem} (member : item ∈ x.retired)
    (clearing : Clearing codec x before behind d)
    (same : ∀ other, other ≠ item.tombstone → t.find? other = d.find? other)
    (missing : t.find? item.tombstone = none) :
    Clearing codec x before (behind ++ [item]) t := by
  have source : t.find? item.source = d.find? item.source :=
    same _ (apart.across item member item member)
  apply Layout.setItem clearing apart member
  · exact fun name _ tombstone => same name tombstone
  · exact ⟨⟨source.trans (clearing.items item member).1.1, .inl missing⟩, fun _ => missing⟩
  · rintro i - other ⟨gone, cleared⟩
    exact ⟨gone, fun behind => cleared (by simpa [other] using behind)⟩

theorem removeTombstone_holds (apart : Apart x) {behind : List ImportRecoveryItem}
    {item : ImportRecoveryItem} (member : item ∈ x.retired)
    (clearing : Clearing codec x before behind d) :
    Holds disk (Recoverable codec x before) (removeTombstone item)
      (fun ok t => ok = true ∧ Clearing codec x before (behind ++ [item]) t) d := by
  have done {t : Disk} (same : ∀ other, other ≠ item.tombstone → t.find? other = d.find? other)
      (missing : t.find? item.tombstone = none) :
      Holds disk (Recoverable codec x before) (isMissing item.tombstone)
        (fun ok t => ok = true ∧ Clearing codec x before (behind ++ [item]) t) t := by
    have next := clearing.clear apart member same missing
    exact ⟨.inr (.inl next.new), by simp [pathKind, missing], next⟩
  unfold removeTombstone
  apply Holds.read
  cases found : pathKind d item.tombstone with
  | missing => exact done (fun _ _ => rfl) (pathKind_missing found)
  | regularFile =>
    obtain none | ⟨tree, there⟩ := (clearing.items item member).1.2
    · simp [pathKind, none] at found
    · simp [pathKind, there] at found
  | directory =>
    apply holds_removeTree (by simp [found])
    · exact fun t same kind => .inr (.inl (clearing.change apart member same kind))
    · exact fun t same missing => done same missing

theorem removeMarker_holds (apart : Apart x) {crashed after : Disk → Prop} {tree : Tree}
    {journal staging : Option Entry}
    {item : ImportRecoveryItem → Option Entry → Option Entry → Prop}
    (layout : Layout x before d journal staging (some (.directory tree)) item)
    (cut : crashed d)
    (rest : ∀ t, Layout x before t journal staging (some (.directory (tree.erase marker))) item →
      crashed t ∧ after t) :
    Holds disk crashed (durableRemoveMarker x.target) (fun ok t => ok = true ∧ after t) d := by
  refine ⟨cut, fun ok t step => ?_⟩
  change perform d (.removeBelow x.target marker) = (ok, t) at step
  simp only [perform, layout.target, Prod.mk.injEq] at step
  obtain ⟨rfl, rfl⟩ := step
  have now := layout.setTarget apart
    (fun name other => OrderedMap.find?_insert_ne d (.directory (tree.erase marker)) (Ne.symm other))
  rw [OrderedMap.find?_insert_self] at now
  obtain ⟨crash, done⟩ := rest _ now
  exact ⟨crash, rfl, done⟩

theorem rollForward_holds (apart : Apart x) (new : New codec x before d) :
    Holds disk (Recoverable codec x before)
      (rollForward ⟨x.staging, x.target, x.retired⟩ x.journal)
      (fun ok t => ok = true ∧ Imported x before t) d := by
  apply Holds.andThen
  have loop : Holds disk _ (Prog.forAll removeTombstone x.retired) _ d := Holds.forAll
    (Clearing codec x before)
    (fun behind item ahead t split clearing => removeTombstone_holds apart
      (by rw [split]; simp) clearing)
    (fun t clearing => .inr (.inl clearing.new))
    (new.weaken (fun i _ held => ⟨held, by simp⟩))
  apply loop.post
  rintro ok t ⟨yes, clearing⟩
  refine ⟨yes, ?_⟩
  have cleared : Layout x before t (some (.file (codec.dump x.document))) none
      (some (.directory x.complete)) Cleared := by
    apply Layout.weaken clearing
    exact fun i member held => ⟨held.1.1, held.2 member⟩
  apply Holds.andThen
  apply removeJournal_holds apart cleared (.inr (.inl clearing.new))
  intro t layout
  have published : Recoverable codec x before t :=
    .inr (.inr (.inl ⟨x.complete, .inl rfl, layout⟩))
  refine ⟨published, removeMarker_holds apart layout published ?_⟩
  intro t layout
  exact ⟨.inr (.inr (.inl ⟨_, .inr rfl, layout⟩)), layout⟩

end RollForward

end Baas.Resource.Import
