import Baas.Scheduler.Completion
import Baas.Scheduler.PolicyJsonWrite

/-! What is written is read back, as long as the reader's node limit lets it. -/
namespace Baas.Scheduler

/-- The limits that no request goes beyond. -/
def ceilingLimits : ParseLimits where
  maximumJsonBytes := hardMaximumJsonBytes
  maximumDepth := hardMaximumDepth
  maximumNodes := hardMaximumNodes
  maximumEvents := hardMaximumEvents
  maximumItemsPerEvent := hardMaximumItemsPerEvent
  maximumStringBytes := hardMaximumStringBytes
  maximumTotalStringBytes := hardMaximumTotalStringBytes

theorem effective_ceilings : effectiveLimits ceilingLimits = ceilingLimits := by
  simp only [effectiveLimits, ceilingLimits, Nat.min_self]

theorem effective_bounded (limits : ParseLimits) : (effectiveLimits limits).Bounded :=
  ⟨Nat.min_le_right _ _, Nat.min_le_right _ _, Nat.min_le_right _ _⟩

/-- The library reads back what it wrote for the document. -/
def JsonLibrary.ReadsBack (library : JsonLibrary) (document : SchedulerDocument) : Prop :=
  (encodeDocument document).utf8 = true →
    library.read ((encodeDocument document).dump 0) = .ok (encodeDocument document)

/-- The strings the library reads from UTF-8 are UTF-8. -/
def JsonLibrary.KeepsUtf8 (library : JsonLibrary) (text : Text) : Prop :=
  isValidUtf8 text = true → ∀ value, library.read text = .ok value → value.utf8 = true

variable {library : JsonLibrary} {document : SchedulerDocument} {text : Text}

/-- A document that can be stored: valid, in UTF-8, and small enough for the reader. -/
structure SchedulerDocument.Storable (document : SchedulerDocument) : Prop where
  valid : validDocument document = true
  clean : document.Clean
  nodes : document.nodes ≤ hardMaximumNodes

theorem serialize_eq (serialized : serializeEventJson document = some text) :
    validDocument document = true ∧ document.Clean ∧ text = (encodeDocument document).dump 0 ∧
      text.length ≤ hardMaximumJsonBytes := by
  unfold serializeEventJson at serialized
  split at serialized
  · cases serialized
  rename_i valid
  split at serialized
  · cases serialized
  rename_i utf8
  dsimp only at serialized
  split at serialized
  · cases serialized
  rename_i short
  cases serialized
  rw [Bool.not_eq_true', Bool.not_eq_false] at valid utf8
  exact ⟨valid, document_utf8.mp utf8, rfl, Nat.not_lt.mp short⟩

/-- The reader's answer to a document that was written. -/
theorem parse_written (serialized : serializeEventJson document = some text)
    (inverse : library.ReadsBack document) :
    parseEventJson library text ceilingLimits =
      if document.nodes ≤ hardMaximumNodes then .ok document else .error .limitExceeded := by
  obtain ⟨valid, clean, rfl, short⟩ := serialize_eq serialized
  have octets := isValidUtf8_iff.mpr (document_octets clean)
  have read := inverse (document_utf8.mpr clean)
  have low := document_height document
  have deep : (encodeDocument document).height ≤ hardMaximumDepth := low.trans (by decide)
  unfold parseEventJson
  rw [effective_ceilings]
  dsimp only
  rw [if_neg (show ¬ _ > ceilingLimits.maximumJsonBytes from Nat.not_lt.mpr short), octets, read]
  dsimp only
  rw [checkShape_eq, document_nodes]
  simp only [Bool.not_true, Bool.false_eq_true, if_false, document_distinct]
  change (if _ ≤ hardMaximumNodes ∧ _ ≤ hardMaximumDepth then _ else _) >>= _ = _
  by_cases fits : document.nodes ≤ hardMaximumNodes
  · rw [if_pos ⟨fits, deep⟩, if_pos fits]
    exact parseRoot_encode ⟨rfl, rfl, rfl⟩ rfl valid
  · rw [if_neg fits, if_neg (fun both => fits both.1)]
    rfl

/-- What the parser makes of a value that is not too large. -/
theorem parseRoot_storable {limits : ParseLimits} {root : Json} (bounded : limits.Bounded)
    (few : limits.maximumEvents ≤ hardMaximumEvents) (small : root.nodes ≤ hardMaximumNodes)
    (clean : root.utf8 = true) (parsed : parseRoot limits root = .ok document) :
    document.Storable := by
  cases root with
  | array items =>
    simp only [parseRoot] at parsed
    split at parsed
    · cases parsed
    rename_i short
    split at parsed
    · cases parsed
    rename_i events taken
    cases parsed
    obtain ⟨length, sound, bytes, nodes, utf8⟩ := parseEvents_taken bounded (Nat.zero_le _) taken
    have total := bounded.total
    refine ⟨validDocument_iff.mpr ⟨?_, sound, ?_⟩, ?_, ?_⟩
    · dsimp only
      omega
    · dsimp only
      omega
    · rw [Json.utf8] at clean
      exact utf8 clean
    · rw [Json.nodes] at small
      unfold SchedulerDocument.nodes
      dsimp only
      omega
  | _ => cases parsed

theorem parse_storable {limits : ParseLimits} (keeps : library.KeepsUtf8 text)
    (parsed : parseEventJson library text limits = .ok document) : document.Storable := by
  unfold parseEventJson at parsed
  dsimp only at parsed
  split at parsed
  · cases parsed
  split at parsed
  · cases parsed
  rename_i octets
  rw [Bool.not_eq_true', Bool.not_eq_false] at octets
  split at parsed
  · rename_i events _
    cases shape : checkShape (effectiveLimits limits) events with
    | error problem =>
      rw [shape] at parsed
      cases parsed
    | ok _ =>
      rw [shape] at parsed
      cases parsed
  rename_i root read
  rw [checkShape_eq] at parsed
  split at parsed
  · rename_i small
    change (if root.hasDuplicateKey then _ else _) = _ at parsed
    split at parsed
    · cases parsed
    exact parseRoot_storable (effective_bounded limits) (Nat.min_le_right _ _)
      (small.1.trans (Nat.min_le_right _ _)) (keeps octets root read) parsed
  · cases parsed

theorem serialize_short (valid : validDocument document = true) (clean : document.Clean)
    (short : ((encodeDocument document).dump 0).length ≤ hardMaximumJsonBytes) :
    serializeEventJson document = some ((encodeDocument document).dump 0) := by
  unfold serializeEventJson
  rw [valid, document_utf8.mpr clean]
  simp only [Bool.not_true, Bool.false_eq_true, if_false]
  rw [if_neg (Nat.not_lt.mpr short)]

theorem storable_serializes (storable : document.Storable) :
    ∃ text, serializeEventJson document = some text := by
  obtain ⟨few, sound, bytes⟩ := validDocument_iff.mp storable.valid
  have nodes := storable.nodes
  have size := document_length sound
  -- the byte limit is the node limit and the string limit, at sixteen and at six bytes each
  have limit : hardMaximumJsonBytes = 16 * hardMaximumNodes + 6 * hardMaximumTotalStringBytes := rfl
  exact ⟨_, serialize_short storable.valid storable.clean (by omega)⟩

/-! Completions. -/

structure Completion where
  eventIndex : Nat
  outcome : CompletionOutcome
  now : EvaluationTime
  requestedDelaySeconds : Option Int

def completed (document : SchedulerDocument) (completions : List Completion) : SchedulerDocument :=
  completions.foldl (fun document completion => (applyCompletion document completion.eventIndex
    completion.outcome completion.now completion.requestedDelaySeconds).document) document

/-- A completion sets the tick of one event, within its range, or nothing. -/
theorem applyCompletion_document (valid : validDocument document = true) (eventIndex : Nat)
    (outcome : CompletionOutcome) (now : EvaluationTime) (delay : Option Int) :
    (applyCompletion document eventIndex outcome now delay).document = document ∨
      ∃ event tick, document.events[eventIndex]? = some event ∧ 0 ≤ tick ∧
        tick ≤ maximumUnixSeconds ∧
        (applyCompletion document eventIndex outcome now delay).document =
          ⟨document.events.set eventIndex { event with nextTick := tick }⟩ := by
  unfold applyCompletion
  rw [if_neg (by simp [valid])]
  split
  · exact .inl rfl
  rename_i time
  rw [Bool.not_eq_true', Bool.not_eq_false] at time
  cases found : document.events[eventIndex]? with
  | none => exact .inl rfl
  | some event =>
    simp only
    split
    · exact .inl rfl
    split
    · exact .inl rfl
    have least := nextTickAfter_least time (times_of_valid valid (List.mem_of_getElem? found)) delay
    cases chosen : nextTickAfter now event delay with
    | none => exact .inl rfl
    | some tick =>
      rw [chosen] at least
      have ahead := (nextTick_ahead time least.1).1
      have present := (valid_time time).1
      exact .inr ⟨event, tick, rfl, by omega, least.2, rfl⟩

theorem map_set {α β : Type} {f : α → β} {l : List α} {i : Nat} {a b : α} (there : l[i]? = some a)
    (same : f b = f a) : (l.set i b).map f = l.map f := by
  obtain ⟨inside, here⟩ := List.getElem?_eq_some_iff.mp there
  have bound : i < (l.map f).length := by rwa [List.length_map]
  have value : (l.map f)[i] = f b := by rw [List.getElem_map, here, same]
  rw [List.map_set, ← value, List.set_getElem_self]

theorem Sound_nextTick {event : SchedulerEvent} {tick : Int} (sound : event.Sound)
    (least : 0 ≤ tick) (most : tick ≤ maximumUnixSeconds) :
    ({ event with nextTick := tick } : SchedulerEvent).Sound := by
  obtain ⟨strings, interval, -, lists⟩ := inBounds_iff.mp sound.bounds
  exact ⟨inBounds_iff.mpr ⟨strings, interval, ⟨least, most⟩, lists⟩, sound.strings, sound.times⟩

theorem storable_completion (storable : document.Storable) (completion : Completion) :
    (applyCompletion document completion.eventIndex completion.outcome completion.now
      completion.requestedDelaySeconds).document.Storable := by
  rcases applyCompletion_document storable.valid completion.eventIndex completion.outcome
    completion.now completion.requestedDelaySeconds
    with same | ⟨event, tick, here, least, most, same⟩
  · rw [same]
    exact storable
  rw [same]
  obtain ⟨few, sound, bytes⟩ := validDocument_iff.mp storable.valid
  have member := List.mem_of_getElem? here
  refine ⟨validDocument_iff.mpr ⟨?_, ?_, ?_⟩, ?_, ?_⟩
  · rwa [List.length_set]
  · intro other listed
    rcases List.mem_or_eq_of_mem_set listed with old | rfl
    · exact sound other old
    · exact Sound_nextTick (sound event member) least most
  · have counts :=
      map_set (f := SchedulerEvent.bytes) (b := { event with nextTick := tick }) here rfl
    exact (congrArg List.sum counts).trans_le bytes
  · intro other listed
    rcases List.mem_or_eq_of_mem_set listed with old | rfl
    · exact storable.clean other old
    · exact storable.clean event member
  · have counts :=
      map_set (f := SchedulerEvent.nodes) (b := { event with nextTick := tick }) here rfl
    exact (congrArg (1 + List.sum ·) counts).trans_le storable.nodes

theorem storable_completed (storable : document.Storable) (completions : List Completion) :
    (completed document completions).Storable := by
  induction completions generalizing document with
  | nil => exact storable
  | cons completion rest ih => exact ih (storable_completion storable completion)

/-- A library that can read what is written for either of two documents. -/
def libraryOf (first second : SchedulerDocument) : JsonLibrary where
  read text :=
    if text = (encodeDocument first).dump 0 then .ok (encodeDocument first)
    else if text = (encodeDocument second).dump 0 then .ok (encodeDocument second)
    else .error []

theorem libraryOf_first (first second : SchedulerDocument) :
    (libraryOf first second).ReadsBack first := fun _ => if_pos rfl

theorem libraryOf_second {first second : SchedulerDocument}
    (other : (encodeDocument second).dump 0 ≠ (encodeDocument first).dump 0) :
    (libraryOf first second).ReadsBack second := fun _ => (if_neg other).trans (if_pos rfl)

theorem libraryOf_keeps {first second : SchedulerDocument} (firstClean : first.Clean)
    (secondClean : second.Clean) (text : Text) : (libraryOf first second).KeepsUtf8 text := by
  intro _ value read
  unfold libraryOf at read
  dsimp only at read
  split at read
  · cases read
    exact document_utf8.mpr firstClean
  split at read
  · cases read
    exact document_utf8.mpr secondClean
  · cases read

def sampleDocument : SchedulerDocument := ⟨[sampleEvent]⟩

theorem sampleDocument_storable : sampleDocument.Storable :=
  ⟨by decide, by unfold SchedulerDocument.Clean; decide, by decide⟩

def crowdedEvent : SchedulerEvent := { sampleEvent with preTasks := List.replicate 64 [97] }

/-- Within every limit that the writer checks. -/
def crowded : SchedulerDocument := ⟨List.replicate 1024 crowdedEvent⟩

end Baas.Scheduler
