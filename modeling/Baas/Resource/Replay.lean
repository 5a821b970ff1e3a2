import Baas.Resource.Store

/-! A subscriber that has pulled a cached document and applies every update of its key
since, beside the cache of the store. -/
namespace Baas.Resource

open Transition

variable {N T : Type}

def updatesOf (key : ResourceKey) (updates : List (ResourceUpdate N T)) :
    List (ResourceUpdate N T) :=
  updates.filter (·.key = key)

/-- What a subscriber of the key holds after the updates. -/
def replay (key : ResourceKey) (document : Option (Json N))
    (updates : List (ResourceUpdate N T)) : Option (Json N) :=
  (updatesOf key updates).foldl (fun document update => replayItems document update.operations)
    document

def cachedText (s : State N T) (key : ResourceKey) : Option Text :=
  (s.resources.find? key).map ResourceSnapshot.dataJson

/-- The subscriber's document is the cached one. -/
def Synced (codec : Codec N T) (key : ResourceKey) (document : Option (Json N))
    (s : State N T) : Prop :=
  cachedText s key = document.map codec.dump

/-- From `s` to `t` at most one update of the key comes out, and one does when its cached
document changes. -/
def AnnouncedOnce (key : ResourceKey) (s t : State N T) : Prop :=
  ∃ updates, t.published = s.published ++ updates ∧ (updatesOf key updates).length ≤ 1 ∧
    (cachedText s key ≠ cachedText t key → (updatesOf key updates).length = 1)

/-- A call that gets past the checks of `refresh` and `invalidate_and_publish`. -/
def Examined (codec : Codec N T) (s : State N T) (key : ResourceKey) (origin : Text) : Prop :=
  origin.length ≤ s.limits.maxOriginBytes ∧ codec.validUtf8 origin = true ∧
    validKey codec s.limits key = true

def LoadResult.succeeds (load : LoadResult N T) : Prop := ∃ loaded, load = .ok loaded

/-- The calls that change the cached document of a key and announce nothing: a first load,
a patch that finds the file changed, and a removal whose update cannot be built. -/
def Silent (codec : Codec N T) (key : ResourceKey) (s : State N T) : Call N T → Prop
  | .pull pulled stopped load =>
    canonicalKey pulled = key ∧ stopped = false ∧ validKey codec s.limits pulled = true ∧
      s.resources.find? key = none ∧ load.succeeds ∧ s.resources.size < s.limits.maxResources
  | .applyPatch request readings =>
    (∃ expected, checkRequest codec s.limits request = .ok (key, expected)) ∧
      readings.stopped = false ∧
      ((s.resources.find? key = none ∧ readings.first.succeeds ∧
          s.resources.size < s.limits.maxResources) ∨
        ∃ found disk, s.resources.find? key = some found ∧ readings.disk = .ok disk ∧
          codec.dump disk.document ≠ found.dataJson)
  | .refresh refreshed origin load clock prepared =>
    canonicalKey refreshed = key ∧ Examined codec s refreshed origin ∧
      (s.resources.find? key).isSome ∧ ¬load.succeeds ∧ (clock = none ∨ prepared = false)
  | .invalidateAndPublish retired origin clock prepared =>
    canonicalKey retired = key ∧ Examined codec s retired origin ∧
      (s.resources.find? key).isSome ∧ (clock = none ∨ prepared = false)

/-- What one call does to the key of a subscriber: its update, if there is one, carries the
document it holds to the one the cache now has. -/
def Follows (codec : Codec N T) (key : ResourceKey) (s t : State N T) : Prop :=
  ∃ updates, t.published = s.published ++ updates ∧ (updatesOf key updates).length ≤ 1 ∧
    (cachedText s key ≠ cachedText t key → (updatesOf key updates).length = 1) ∧
    ∀ document, Synced codec key document s → Synced codec key (replay key document updates) t

variable {codec : Codec N T} {key : ResourceKey} {s t : State N T}

theorem follows_quiet (silent : t.published = s.published)
    (same : cachedText t key = cachedText s key) : Follows codec key s t := by
  refine ⟨[], by simpa using silent, by simp [updatesOf], ?_, ?_⟩
  · intro changed
    exact absurd same.symm changed
  · intro document synced
    simpa [Synced, replay, updatesOf, same] using synced

theorem follows_refl : Follows codec key s s := follows_quiet rfl rfl

/-- A change of one key that comes with its update. -/
theorem follows_update {changed : ResourceKey} {update : ResourceUpdate N T}
    (owner : update.key = changed) (published : t.published = s.published ++ [update])
    (frame : ∀ key, key ≠ changed → cachedText t key = cachedText s key)
    (carries : ∀ document, Synced codec changed document s →
      Synced codec changed (replayItems document update.operations) t) :
    Follows codec key s t := by
  by_cases own : key = changed
  · subst own
    refine ⟨[update], published, by simp [updatesOf, owner], by simp [updatesOf, owner], ?_⟩
    intro document synced
    simpa [replay, updatesOf, owner] using carries document synced
  · have other : ¬update.key = key := by
      rw [owner]
      exact fun same => own same.symm
    refine ⟨[update], published, by simp [updatesOf, other], ?_, ?_⟩
    · intro changed
      exact absurd (frame key own).symm changed
    · intro document synced
      have kept := frame key own
      simpa [Synced, replay, updatesOf, other, kept] using synced

theorem cachedText_insert (snapshot : ResourceSnapshot T) (changed : ResourceKey)
    (resources : t.resources = s.resources.insert changed snapshot) (key : ResourceKey) :
    cachedText t key = if key = changed then some snapshot.dataJson else cachedText s key := by
  by_cases own : key = changed
  · simp [cachedText, resources, own]
  · have apart : changed ≠ key := fun same => own same.symm
    simp [cachedText, resources, own, OrderedMap.find?_insert_ne _ _ apart]

theorem cachedText_erase (changed : ResourceKey)
    (resources : t.resources = s.resources.erase changed) (key : ResourceKey) :
    cachedText t key = if key = changed then none else cachedText s key := by
  by_cases own : key = changed
  · simp [cachedText, resources, own]
  · have apart : changed ≠ key := fun same => own same.symm
    simp [cachedText, resources, own, OrderedMap.find?_erase_ne _ apart]

@[simp] theorem replayItems_rootReplace (document : Option (Json N)) (value : Json N) :
    replayItems document [⟨"replace", [], some value⟩] = some value := by
  simp [replayItems, replayItem, PatchItem.removesRoot, splitPointer, applyRead]

@[simp] theorem replayItems_rootRemove (document : Option (Json N)) :
    replayItems document rootRemove = none := by
  simp [replayItems, replayItem, PatchItem.removesRoot, splitPointer, rootRemove]

theorem pull_follows (pulled : ResourceKey) (stopped : Bool) (load : LoadResult N T)
    (heard : ¬Silent codec key s (.pull pulled stopped load)) :
    Follows codec key s (pull codec s pulled stopped load).1 := by
  unfold pull
  by_cases stops : stopped = true
  · simpa [stops] using follows_refl
  by_cases valid : validKey codec s.limits pulled = true
  swap
  · simpa [stops, valid] using follows_refl
  cases load with
  | error error => simpa [stops, valid] using follows_refl
  | ok loaded =>
    cases found : s.resources.find? (canonicalKey pulled) with
    | some snapshot => simpa [stops, valid, found] using follows_refl
    | none =>
      by_cases full : s.resources.size ≥ s.limits.maxResources
      · simpa [stops, valid, found, full] using follows_refl
      · simp only [stops, valid, full, Bool.not_true, Bool.false_eq_true, if_false]
        refine follows_quiet rfl ?_
        rw [cachedText_insert _ (canonicalKey pulled) rfl, if_neg]
        intro own
        apply heard
        refine ⟨own.symm, by simpa using stops, valid, ?_, ⟨loaded, rfl⟩, by omega⟩
        rw [own, found]

theorem retire_follows (retired : ResourceKey) (origin : Text) (clock : Option T)
    (prepared : Bool) (heard : ¬(retired = key ∧ (clock = none ∨ prepared = false))) :
    Follows codec key s (retire s retired origin clock prepared).1 := by
  have quietly (lost : clock = none ∨ prepared = false) (t : State N T)
      (published : t.published = s.published)
      (resources : t.resources = s.resources.erase retired) : Follows codec key s t := by
    apply follows_quiet published
    rw [cachedText_erase retired resources, if_neg]
    intro own
    exact heard ⟨own.symm, lost⟩
  unfold retire
  cases clock with
  | none => exact quietly (.inl rfl) _ rfl rfl
  | some now =>
    cases prepared with
    | false => exact quietly (.inr rfl) _ rfl rfl
    | true =>
      have owner : (⟨retired, now, rootRemove, origin⟩ : ResourceUpdate N T).key = retired := rfl
      apply follows_update owner rfl
      · intro key other
        rw [cachedText_erase retired rfl, if_neg other]
      · intro document _
        rw [replayItems_rootRemove, Synced, cachedText_erase retired rfl, if_pos rfl]
        rfl

/-- A document that the store replaces whole. -/
theorem replaced_follows {changed : ResourceKey} {snapshot : ResourceSnapshot T}
    {update : ResourceUpdate N T} {document : Json N}
    (resources : t.resources = s.resources.insert changed snapshot)
    (published : t.published = s.published ++ [update]) (owner : update.key = changed)
    (text : snapshot.dataJson = codec.dump document)
    (carries : ∀ held, Synced codec changed held s →
      replayItems held update.operations = some document) :
    Follows codec key s t := by
  apply follows_update owner published
  · intro key other
    rw [cachedText_insert snapshot changed resources, if_neg other]
  · intro held synced
    rw [carries held synced, Synced, cachedText_insert snapshot changed resources, if_pos rfl,
      text]
    rfl

theorem refresh_follows (refreshed : ResourceKey) (origin : Text) (load : LoadResult N T)
    (clock : Option T) (prepared : Bool)
    (heard : ¬Silent codec key s (.refresh refreshed origin load clock prepared)) :
    Follows codec key s (refresh codec s refreshed origin load clock prepared).1 := by
  unfold refresh
  by_cases refused : origin.length > s.limits.maxOriginBytes ∨ (!codec.validUtf8 origin) = true
  · simpa only [refused, if_true] using follows_refl
  by_cases valid : validKey codec s.limits refreshed = true
  swap
  · simpa [refused, valid] using follows_refl
  have examined : Examined codec s refreshed origin := by
    simp only [not_or, Bool.not_eq_true', Bool.not_eq_false] at refused
    exact ⟨by omega, refused.2, valid⟩
  simp only [refused, valid, Bool.not_true, Bool.false_eq_true, if_false]
  cases load with
  | error error =>
    cases found : s.resources.find? (canonicalKey refreshed) with
    | none => exact follows_refl
    | some snapshot =>
      apply retire_follows
      rintro ⟨own, lost⟩
      apply heard
      refine ⟨own, examined, ?_, ?_, lost⟩
      · simp [← own, found]
      · rintro ⟨loaded, same⟩
        cases same
  | ok loaded =>
    cases found : s.resources.find? (canonicalKey refreshed) with
    | some snapshot =>
      by_cases same : snapshot.dataJson = (loadedSnapshot codec loaded).dataJson
      · simp only [same, if_true]
        refine follows_quiet rfl ?_
        rw [cachedText_insert _ (canonicalKey refreshed) rfl]
        split
        · next own => simp [own, cachedText, found, same]
        · rfl
      · cases prepared with
        | false => simpa [same] using follows_refl
        | true =>
          simp only [same, Bool.not_true, Bool.false_eq_true, if_false]
          exact replaced_follows rfl rfl rfl rfl (fun held _ => replayItems_rootReplace held _)
    | none =>
      cases prepared with
      | false => simpa using follows_refl
      | true =>
        simp only [Bool.not_true, Bool.false_eq_true, if_false]
        split
        · exact follows_refl
        · exact replaced_follows rfl rfl rfl rfl (fun held _ => replayItems_rootReplace held _)

theorem invalidate_follows (retired : ResourceKey) (origin : Text) (clock : Option T)
    (prepared : Bool)
    (heard : ¬Silent codec key s (.invalidateAndPublish retired origin clock prepared)) :
    Follows codec key s (invalidateAndPublish codec s retired origin clock prepared).1 := by
  unfold invalidateAndPublish
  by_cases refused : origin.length > s.limits.maxOriginBytes ∨ (!codec.validUtf8 origin) = true
  · simpa only [refused, if_true] using follows_refl
  by_cases valid : validKey codec s.limits retired = true
  swap
  · simpa [refused, valid] using follows_refl
  simp only [refused, valid, Bool.not_true, Bool.false_eq_true, if_false]
  cases found : s.resources.find? (canonicalKey retired) with
  | none => exact follows_refl
  | some snapshot =>
    apply retire_follows
    rintro ⟨own, lost⟩
    apply heard
    simp only [not_or, Bool.not_eq_true', Bool.not_eq_false] at refused
    exact ⟨own, ⟨by omega, refused.2, valid⟩, by simp [← own, found], lost⟩

/-- The update of a commit carries the document the patch started from to the committed
one. -/
theorem planCommit_carries {limits : ResourceStoreLimits} {changed : ResourceKey}
    {operations : List ResourcePatchOperation} {sourceBytes : Text}
    {document next committed : Json N} {items : List (PatchItem N)}
    (applied : applyOperations codec.parse document operations = .ok next)
    (planned : planCommit codec limits changed operations sourceBytes next =
      .ok (committed, items)) :
    replayItems (some document) items = some committed := by
  unfold planCommit at planned
  split at planned
  · split at planned
    · cases planned
    split at planned
    · cases planned
    split at planned
    · cases planned
    · dsimp only at planned
      split at planned
      · cases planned
      · cases planned
        exact replayItems_rootReplace _ _
  · split at planned
    · cases planned
    · cases planned
      exact replayItems_of_applied applied

/-- What the two documents of a commit have in common with the cache around it. -/
theorem commitPatch_follows [LinearOrder T]
    (reads : ∀ document read : Json N,
      codec.parse (codec.dump document) = some read → read = document)
    (changed : ResourceKey) (expected : T) (operations : List ResourcePatchOperation)
    (readings : PatchReadings N T) (found : ResourceSnapshot T) (sourceBytes : Text)
    (cached : s.resources.find? changed = some found) :
    Follows codec key s
      (commitPatch codec s changed expected operations readings found sourceBytes).1 := by
  unfold commitPatch
  split
  · exact follows_refl
  cases parsed : codec.parse found.dataJson with
  | none => exact follows_refl
  | some document =>
    dsimp only
    cases applied : applyOperations codec.parse document operations with
    | error error => exact follows_refl
    | ok next =>
      dsimp only
      split
      · exact follows_refl
      split
      · exact follows_refl
      cases readings.clock with
      | none => exact follows_refl
      | some now =>
        dsimp only
        cases planned : planCommit codec s.limits changed operations sourceBytes next with
        | error error => exact follows_refl
        | ok plan =>
          dsimp only
          split
          · exact follows_refl
          split
          · exact follows_refl
          have text : (⟨max expected now, codec.dump plan.1⟩ : ResourceSnapshot T).dataJson =
              codec.dump plan.1 := rfl
          apply replaced_follows rfl rfl rfl text
          intro held synced
          have text : some found.dataJson = held.map codec.dump := by
            simpa [Synced, cachedText, cached] using synced
          cases held with
          | none => simp at text
          | some held =>
            simp only [Option.map_some, Option.some.injEq] at text
            have same : document = held := reads held document (text ▸ parsed)
            subst same
            exact planCommit_carries applied planned

theorem cacheFirst_ok {first : LoadResult N T} {u : State N T} {found : ResourceSnapshot T}
    {changed : ResourceKey} (cached : cacheFirst codec s changed first = .ok (u, found)) :
    (s.resources.find? changed = some found ∧ u = s) ∨
      (s.resources.find? changed = none ∧ s.resources.size < s.limits.maxResources ∧
        first.succeeds ∧ u = { s with resources := s.resources.insert changed found }) := by
  unfold cacheFirst at cached
  cases old : s.resources.find? changed with
  | some snapshot =>
    rw [old] at cached
    cases cached
    exact .inl ⟨rfl, rfl⟩
  | none =>
    rw [old] at cached
    cases first with
    | error error => cases cached
    | ok loaded =>
      dsimp only at cached
      split at cached
      · cases cached
      · next room =>
        cases cached
        exact .inr ⟨rfl, by omega, ⟨loaded, rfl⟩, rfl⟩

/-- A call that changes the cache at another key and announces nothing of this one. -/
theorem follows_after {u : State N T} (published : u.published = s.published)
    (same : cachedText u key = cachedText s key) (rest : Follows codec key u t) :
    Follows codec key s t := by
  obtain ⟨updates, whole, atMost, changed, carries⟩ := rest
  refine ⟨updates, by rw [whole, published], atMost, ?_, ?_⟩
  · rwa [← same]
  · intro document synced
    apply carries
    simpa [Synced, same] using synced

theorem applyPatch_follows [LinearOrder T]
    (reads : ∀ document read : Json N,
      codec.parse (codec.dump document) = some read → read = document)
    (request : ResourcePatchRequest) (readings : PatchReadings N T)
    (heard : ¬Silent codec key s (.applyPatch request readings)) :
    Follows codec key s (applyPatch codec s request readings).1 := by
  unfold applyPatch
  cases checked : checkRequest codec s.limits request with
  | error error => exact follows_refl
  | ok pair =>
    obtain ⟨changed, expected⟩ := pair
    dsimp only
    split
    · exact follows_refl
    next running =>
    have going : readings.stopped = false := by simpa using running
    cases cached : cacheFirst codec s changed readings.first with
    | error error => exact follows_refl
    | ok pair =>
      obtain ⟨u, found⟩ := pair
      dsimp only
      -- Loading another key leaves this one alone; loading this one is silent.
      have loaded : u.published = s.published ∧ cachedText u key = cachedText s key ∧
          u.resources.find? changed = some found ∧
          (changed = key → s.resources.find? key = some found) := by
        obtain ⟨old, rfl⟩ | ⟨absent, room, succeeds, rfl⟩ := cacheFirst_ok cached
        · exact ⟨rfl, rfl, old, fun own => own ▸ old⟩
        · have other : key ≠ changed := by
            rintro rfl
            exact heard ⟨⟨expected, checked⟩, going, .inl ⟨absent, succeeds, room⟩⟩
          refine ⟨rfl, ?_, by simp, fun own => absurd own.symm other⟩
          rw [cachedText_insert found changed rfl, if_neg other]
      obtain ⟨published, same, present, before⟩ := loaded
      apply follows_after published same
      cases disk : readings.disk with
      | error error => exact follows_refl
      | ok disk' =>
        dsimp only
        by_cases outside : codec.dump disk'.document ≠ found.dataJson
        · simp only [outside, ne_eq, not_false_eq_true, if_true, conflict]
          refine follows_quiet rfl ?_
          have other : key ≠ changed := by
            rintro rfl
            exact heard ⟨⟨expected, checked⟩, going,
              .inr ⟨found, disk', before rfl, disk, outside⟩⟩
          rw [cachedText_insert _ changed rfl, if_neg other]
        · simp only [outside, if_false]
          exact commitPatch_follows reads changed expected _ readings found _ present

theorem perform_follows [LinearOrder T]
    (reads : ∀ document read : Json N,
      codec.parse (codec.dump document) = some read → read = document)
    (call : Call N T) (heard : ¬Silent codec key s call) :
    Follows codec key s (perform codec s call).1 := by
  cases call with
  | pull pulled stopped load => exact pull_follows pulled stopped load heard
  | applyPatch request readings => exact applyPatch_follows reads request readings heard
  | refresh refreshed origin load clock prepared =>
    exact refresh_follows refreshed origin load clock prepared heard
  | invalidateAndPublish retired origin clock prepared =>
    exact invalidate_follows retired origin clock prepared heard

theorem replay_append (document : Option (Json N)) (old new : List (ResourceUpdate N T)) :
    replay key document (old ++ new) = replay key (replay key document old) new := by
  simp [replay, updatesOf]

/-- The subscriber after the events since its pull, and each change among them. -/
structure Following (codec : Codec N T) (key : ResourceKey) (document : Json N)
    (origin : State N T) (events : List (Event (State N T) (Exchange N T)))
    (s : State N T) : Prop where
  updates : ∃ updates, s.published = origin.published ++ updates ∧
    Synced codec key (replay key (some document) updates) s
  announced : ∀ e ∈ events, AnnouncedOnce key e.source e.target

/-- A pull of the key that returned the document in the cache. -/
def PulledCached (key : ResourceKey) (snapshot : ResourceSnapshot T)
    (e : Event (State N T) (Exchange N T)) : Prop :=
  (∃ pulled load, canonicalKey pulled = key ∧
    e.label = ⟨.pull pulled false load, .pulled (.ok snapshot)⟩) ∧
    e.target.resources.find? key = some snapshot

/-- As long as no call is silent about the key, the subscriber has the cached document and
every change of it came with one update, in the order of the changes. -/
theorem subscriber_follows [LinearOrder T] (codec : Codec N T)
    (reads : ∀ document read : Json N,
      codec.parse (codec.dump document) = some read → read = document)
    {before after : List (Event (State N T) (Exchange N T))}
    {first : Event (State N T) (Exchange N T)} {s : State N T}
    (run : Run (storeSystem codec) (before ++ first :: after) s)
    {key : ResourceKey} {snapshot : ResourceSnapshot T} (pulled : PulledCached key snapshot first)
    {document : Json N} (given : codec.dump document = snapshot.dataJson)
    (heard : ∀ e ∈ after, ¬Silent codec key e.source e.label.call) :
    Following codec key document first.target after s := by
  apply run.since (fun e => ¬Silent codec key e.source e.label.call)
    (Following codec key document first.target) _ _ heard
  · intro events s l t held step heard
    obtain ⟨published, whole, synced⟩ := held.updates
    have follows := perform_follows reads l.call heard
    have target : (perform codec s l.call).1 = t := congrArg Prod.fst step
    rw [target] at follows
    obtain ⟨updates, new, atMost, changed, carries⟩ := follows
    constructor
    · refine ⟨published ++ updates, by rw [new, whole, List.append_assoc], ?_⟩
      rw [replay_append]
      exact carries _ synced
    · intro e member
      rcases List.mem_append.mp member with old | last
      · exact held.announced e old
      · cases List.mem_singleton.mp last
        exact ⟨updates, new, atMost, changed⟩
  · constructor
    · refine ⟨[], by simp, ?_⟩
      simp [Synced, cachedText, pulled.2, replay, updatesOf, given]
    · intro e member
      cases member

/-! A codec that knows three documents, and calls on the key of `gui.json`. -/

def sampleDump : Json Nat → Text
  | .null => [110, 117, 108, 108]
  | .bool true => [116, 114, 117, 101]
  | .bool false => [102, 97, 108, 115, 101]
  | _ => []

def sampleCodec : Codec Nat Nat where
  parse text :=
    [.null, .bool true, .bool false].find? (fun document => sampleDump document = text)
  dump := sampleDump
  pretty := sampleDump
  dumpItems _ := []
  bounded _ := true
  timestampValue _ := some 5
  projectSetupToml _ := none
  mergeSetupToml _ _ := none
  validUtf8 _ := true

theorem sampleCodec_reads (document read : Json Nat)
    (parsed : sampleCodec.parse (sampleCodec.dump document) = some read) :
    read = document := by
  dsimp only [sampleCodec] at parsed
  have text := List.find?_some parsed
  simp only [decide_eq_true_eq] at text
  have known := List.mem_of_find?_eq_some parsed
  simp only [List.mem_cons, List.not_mem_nil, or_false] at known
  clear parsed
  obtain rfl | rfl | rfl := known <;> rcases document with _ | (_ | _) | _ | _ | _ | _ <;>
    simp_all [sampleDump]

def guiKey : ResourceKey := ⟨.gui, none⟩

def onDisk (document : Json Nat) : LoadResult Nat Nat := .ok ⟨1, document, []⟩

def sampleNext (s : State Nat Nat) (call : Call Nat Nat) : Exchange Nat Nat × State Nat Nat :=
  (⟨call, (perform sampleCodec s call).2⟩, (perform sampleCodec s call).1)

def sampleRequest : ResourcePatchRequest := ⟨guiKey, [], [⟨"replace", [], some (sampleDump .null)⟩]⟩

/-- A file that says `file` when the patch compares it with the cache. -/
def samplePatch (file : Json Nat) : Call Nat Nat :=
  .applyPatch sampleRequest ⟨false, onDisk file, onDisk file, some 9, .none, true, .committed⟩

theorem sampleNext_steps (s : State Nat Nat) (call : Call Nat Nat) :
    (storeSystem sampleCodec).step s (sampleNext s call).1 (sampleNext s call).2 := rfl

def sampleRefresh (file : Json Nat) : Call Nat Nat :=
  .refresh guiKey [] (onDisk file) (some 9) true

def samplePull : Call Nat Nat := .pull guiKey false (onDisk .null)

def samplePulled : Event (State Nat Nat) (Exchange Nat Nat) :=
  ⟨{ limits := {} }, (sampleNext { limits := {} } samplePull).1,
    (sampleNext { limits := {} } samplePull).2⟩

def sampleRun (calls : List (Call Nat Nat)) :
    List (Event (State Nat Nat) (Exchange Nat Nat)) × State Nat Nat :=
  play sampleNext samplePulled.target calls

theorem sampleRun_run (calls : List (Call Nat Nat)) :
    Run (storeSystem sampleCodec) ([] ++ samplePulled :: (sampleRun calls).1)
      (sampleRun calls).2 :=
  run_play sampleNext_steps (samplePull :: calls) ⟨{}, rfl⟩

theorem samplePulled_cached : PulledCached guiKey ⟨1, sampleDump .null⟩ samplePulled :=
  ⟨⟨guiKey, onDisk .null, rfl, rfl⟩, rfl⟩

/-- The patch is refused because the file now says `true`, the cache follows the file, and
the refresh that comes next finds nothing to announce. -/
theorem conflict_unannounced :
    ∃ (first : Event (State Nat Nat) (Exchange Nat Nat)) (after : _) (s : State Nat Nat)
      (snapshot : ResourceSnapshot Nat),
      Run (storeSystem sampleCodec) ([] ++ first :: after) s ∧
        PulledCached guiKey snapshot first ∧ sampleCodec.dump .null = snapshot.dataJson ∧
        ¬Following sampleCodec guiKey .null first.target after s := by
  refine ⟨samplePulled, _, _, _,
    sampleRun_run [samplePatch (.bool true), sampleRefresh (.bool true)],
    samplePulled_cached, rfl, ?_⟩
  intro follows
  obtain ⟨updates, published, synced⟩ := follows.updates
  have none : updates = [] := by
    change [] = [] ++ updates at published
    simpa using published.symm
  subst none
  cases synced

theorem subscriber_follows_played :
    Following sampleCodec guiKey .null samplePulled.target
      (sampleRun [samplePatch .null, sampleRefresh (.bool true)]).1
      (sampleRun [samplePatch .null, sampleRefresh (.bool true)]).2 := by
  apply subscriber_follows sampleCodec sampleCodec_reads
    (sampleRun_run [samplePatch .null, sampleRefresh (.bool true)]) samplePulled_cached rfl
  intro e member
  change e ∈ [_, _] at member
  simp only [List.mem_cons, List.not_mem_nil, or_false] at member
  obtain rfl | rfl := member
  · rintro ⟨-, -, ⟨absent, -⟩ | ⟨found, disk, here, there, outside⟩⟩
    · cases absent
    · cases here
      cases there
      exact outside rfl
  · rintro ⟨-, -, -, failed, -⟩
    exact failed ⟨_, rfl⟩

end Baas.Resource
