import Baas.Resource.EventConfig

/-! What a completed event document keeps and what it gains, and when the completion stays within
the array that it fills. -/
namespace Baas.Resource.Events

/-- Resets that are no triples may have been replaced. -/
def Repaired (old new : Document) : Prop :=
  ∃ resets resets', old = .array resets ∧ new = .array resets' ∧
    List.Forall₂ (fun reset reset' => reset' = reset ∨ reset' = zeroReset) resets resets'

/-- The same event, perhaps with more fields and with other resets. -/
def Keeps (event event' : Document) : Prop :=
  ∀ key value, field key event = some value → ∃ value', field key event' = some value' ∧
    (value' = value ∨ key = resetKey ∧ Repaired value value')

/-- An event for the function of a default event, with all the fields of that. -/
def Completes (item event : Document) : Prop :=
  isEvent (functionOf item) event = true ∧
    ∀ key, (field key item).isSome → (field key event).isSome

structure Migrated (items events result : List Document) : Prop where
  kept : List.SublistForall₂ Keeps events result
  complete : ∀ item ∈ items, ∃ event ∈ result, Completes item event

/-- What is expected of the outcome: an array with an event for every default function, and unless
it is the default array itself, everything of the source in its order and nothing missing. -/
def Meets (source : Option Document) (user : Document) (defaults : EventDefaults) : Outcome → Prop
  | .thrown => True
  | .outside => False
  | .returned document => ∃ result, document = .array result ∧
    (∀ item ∈ defaults.items, ∃ event ∈ result, isEvent (functionOf item) event = true) ∧
    (serverEventDefaults user defaults = some result ∨
      ∃ events, source = some (.array events) ∧ Migrated defaults.items events result)

def usable (event : Document) : Bool :=
  match field resetKey event with
  | some (.array resets) => resets.all fun reset => (normalReset reset).isSome
  | _ => false

/-- The event of the source for this function has resets that make the migration fall back. -/
def broken (events : List Document) (function : Text) : Bool :=
  match events.find? (isEvent function) with
  | none => false
  | some event => !usable event

/-- The functions of some default events for which the source has no event. -/
def lacking (events items : List Document) : Finset Text :=
  (items.map functionOf).toFinset.filter fun name => events.any (isEvent name) = false

/-- A default event whose function is neither in the source nor among the defaults before it has at
most as many defaults before it as there are events in the source and lacking functions before it;
a fallback in front of it settles the matter too. -/
def Fits (source : Option Document) (user : Document) (defaults : EventDefaults) : Prop :=
  ∀ events, source = some (.array events) →
    (∀ event ∈ events, (field functionKey event).isSome) →
    (valueOr (spell "new_event_enable_state") (spell "default") user).isSome →
    ∀ before item after, serverEventDefaults user defaults = some (before ++ item :: after) →
      (∀ event ∈ events, isEvent (functionOf item) event = false) →
      (∀ earlier ∈ before, functionOf earlier ≠ functionOf item) →
      (∃ earlier ∈ before, broken events (functionOf earlier)) ∨
        before.length ≤ events.length + (lacking events before).card

theorem field_assign (key name : Text) (value : Document) (members : Members) :
    field key (.object (assign name value members)) =
      if name = key then some value else field key (.object members) :=
  member?_assign name key value members

theorem function_ne_reset : functionKey ≠ resetKey := by decide
theorem enabled_ne_reset : enabledKey ≠ resetKey := by decide
theorem enabled_ne_function : enabledKey ≠ functionKey := by decide

/-- What the code relies on in a default event. -/
structure Usual (item : Document) : Prop where
  isObject : ∃ members, item = .object members
  named : field functionKey item = some (.string (functionOf item))
  usable : usable item = true

theorem validReset_normal {reset : Document} (valid : validReset reset = true) :
    (normalReset reset).isSome ∧ (normalReset (shiftReset reset)).isSome := by
  rw [validReset.eq_def] at valid
  split at valid
  · rename_i hour minute second
    refine ⟨rfl, ?_⟩
    rw [shiftReset.eq_def]
    split
    · rename_i same
      cases same
      rfl
    · rfl
  · cases valid

theorem validEntry_usual {item : Document} (valid : validEntry item = true) : Usual item := by
  rw [validEntry, Bool.and_eq_true] at valid
  obtain ⟨named, resets⟩ := valid
  refine ⟨?_, ?_, ?_⟩
  · cases item with
    | object members => exact ⟨members, rfl⟩
    | _ => cases named
  · rw [functionOf]
    split at named
    · rename_i name found
      rw [found]
    · cases named
  · split at resets
    · rename_i found
      rw [usable, found]
      exact List.all_eq_true.mpr fun reset there =>
        (validReset_normal (List.all_eq_true.mp resets reset there)).1
    · cases resets

theorem field_shiftEntry {key : Text} (other : key ≠ resetKey) (item : Document) :
    field key (shiftEntry item) = field key item := by
  rw [shiftEntry.eq_def]
  split
  · split
    · rw [field_assign, if_neg (Ne.symm other)]
    · rfl
  · rfl

theorem functionOf_shiftEntry (item : Document) : functionOf (shiftEntry item) = functionOf item := by
  rw [functionOf, field_shiftEntry function_ne_reset, functionOf]

theorem shiftEntry_fields (key : Text) (item : Document) :
    (field key (shiftEntry item)).isSome = (field key item).isSome := by
  obtain rfl | other := Decidable.em (key = resetKey)
  · rw [shiftEntry.eq_def]
    split
    · split
      · rename_i members resets found
        rw [field_assign, if_pos rfl]
        exact (congrArg Option.isSome found).symm
      · rfl
    · rfl
  · rw [field_shiftEntry other]

theorem validEntry_shifted {item : Document} (valid : validEntry item = true) :
    Usual (shiftEntry item) := by
  have usual := validEntry_usual valid
  obtain ⟨members, rfl⟩ := usual.isObject
  rw [validEntry, Bool.and_eq_true] at valid
  obtain ⟨-, normal⟩ := valid
  split at normal
  · rename_i resets found
    have shifted : shiftEntry (.object members) =
        .object (assign resetKey (.array (resets.map shiftReset)) members) := by
      rw [shiftEntry, show member? resetKey members = _ from found]
    refine ⟨⟨_, shifted⟩, ?_, ?_⟩
    · rw [functionOf_shiftEntry, field_shiftEntry function_ne_reset]
      exact usual.named
    · rw [usable, shifted, field_assign, if_pos rfl]
      refine List.all_eq_true.mpr fun reset there => ?_
      obtain ⟨old, within, rfl⟩ := List.mem_map.mp there
      exact (validReset_normal (List.all_eq_true.mp normal old within)).2
  · cases normal

theorem Repaired.trans {first second third : Document} (one : Repaired first second)
    (two : Repaired second third) : Repaired first third := by
  obtain ⟨a, b, rfl, rfl, ab⟩ := one
  obtain ⟨b', c, same, rfl, bc⟩ := two
  cases same
  refine ⟨a, c, rfl, rfl, ?_⟩
  induction ab generalizing c with
  | nil =>
    cases bc
    exact .nil
  | cons first _ ih =>
    cases bc with
    | cons second rest =>
      refine .cons ?_ (ih _ rest)
      obtain rfl | rfl := second
      · exact first
      · exact .inr rfl

theorem Keeps.refl (event : Document) : Keeps event event :=
  fun _ value found => ⟨value, found, .inl rfl⟩

theorem Keeps.trans {first second third : Document} (one : Keeps first second)
    (two : Keeps second third) : Keeps first third := by
  intro key value found
  obtain ⟨value', found', change⟩ := one key value found
  obtain ⟨value'', found'', change'⟩ := two key value' found'
  refine ⟨value'', found'', ?_⟩
  obtain rfl | ⟨reset, repaired⟩ := change
  · exact change'
  · obtain rfl | ⟨-, again⟩ := change'
    · exact .inr ⟨reset, repaired⟩
    · exact .inr ⟨reset, repaired.trans again⟩

instance : Std.Refl Keeps := ⟨Keeps.refl⟩

instance : IsTrans Document Keeps := ⟨fun _ _ _ => Keeps.trans⟩

theorem Keeps.isSome {event event' : Document} (keeps : Keeps event event') {key : Text}
    (there : (field key event).isSome) : (field key event').isSome := by
  obtain ⟨value, found⟩ := Option.isSome_iff_exists.mp there
  obtain ⟨value', found', -⟩ := keeps key value found
  exact Option.isSome_iff_exists.mpr ⟨value', found'⟩

/-- An event stays one of its function. -/
theorem Keeps.isEvent {event event' : Document} (keeps : Keeps event event') {function : Text}
    (event_of : isEvent function event = true) (name : Text) :
    isEvent name event' = isEvent name event := by
  rw [Events.isEvent] at event_of
  split at event_of
  · rename_i own found
    obtain ⟨value, found', same | ⟨reset, -⟩⟩ := keeps _ _ found
    · rw [Events.isEvent, Events.isEvent, found, found', same]
    · exact absurd reset function_ne_reset
  · cases event_of

theorem addMissing_keeps {key : Text} {value : Document} (defaults : Members) {members : Members}
    (found : member? key members = some value) :
    member? key (addMissing defaults members) = some value := by
  induction defaults generalizing members with
  | nil => exact found
  | cons entry rest ih =>
    refine ih ?_
    dsimp only
    split
    · exact found
    · rename_i missing
      rw [member?_assign, if_neg ?_]
      · exact found
      · rintro rfl
        exact missing (Option.isSome_iff_exists.mpr ⟨value, found⟩)

theorem addMissing_isSome {key : Text} {members : Members} (defaults : Members)
    (there : (member? key members).isSome) : (member? key (addMissing defaults members)).isSome := by
  obtain ⟨value, found⟩ := Option.isSome_iff_exists.mp there
  exact Option.isSome_iff_exists.mpr ⟨value, addMissing_keeps defaults found⟩

theorem addMissing_gains {key : Text} {defaults : Members} (members : Members)
    (there : (member? key defaults).isSome) : (member? key (addMissing defaults members)).isSome := by
  induction defaults generalizing members with
  | nil => cases there
  | cons entry rest ih =>
    obtain ⟨name, value⟩ := entry
    rw [member?_cons] at there
    split at there
    · rename_i same
      refine addMissing_isSome rest ?_
      dsimp only
      split
      · rename_i has
        exact same ▸ has
      · rw [member?_assign, if_pos same]
        rfl
    · exact ih _ there

theorem normalReset_cases {reset reset' : Document} (normal : normalReset reset = some reset') :
    (reset' = reset ∨ reset' = zeroReset) ∧ (normalReset reset').isSome := by
  rw [normalReset.eq_def] at normal
  split at normal
  · cases normal
  · cases normal
  · cases normal
  · cases normal
    exact ⟨.inl rfl, rfl⟩
  · cases normal
    exact ⟨.inr rfl, rfl⟩

/-- All resets are normal, or else there is no result. -/
theorem mapM_normalReset (resets : List Document) :
    (resets.mapM normalReset).isSome = resets.all (fun reset => (normalReset reset).isSome) ∧
    ∀ resets', resets.mapM normalReset = some resets' →
      List.Forall₂ (fun reset reset' => reset' = reset ∨ reset' = zeroReset) resets resets' ∧
      resets'.all (fun reset => (normalReset reset).isSome) = true := by
  induction resets with
  | nil =>
    refine ⟨rfl, ?_⟩
    rintro resets' ⟨⟩
    exact ⟨.nil, rfl⟩
  | cons reset rest ih =>
    rw [List.mapM_cons, List.all_cons]
    cases normal : normalReset reset with
    | none => exact ⟨rfl, fun resets' no => by cases no⟩
    | some reset' =>
      obtain ⟨change, again⟩ := normalReset_cases normal
      cases whole : rest.mapM normalReset with
      | none =>
        rw [whole] at ih
        exact ⟨ih.1, fun resets' no => by cases no⟩
      | some rest' =>
        rw [whole] at ih
        refine ⟨ih.1, ?_⟩
        rintro resets' ⟨⟩
        obtain ⟨changes, all⟩ := ih.2 rest' rfl
        exact ⟨.cons change changes, by rw [List.all_cons, again, all]; rfl⟩

/-- An event with usable resets is completed, and no other. -/
theorem completeEvent_isSome (item event : Document) :
    (completeEvent item event).isSome = usable event := by
  rw [completeEvent.eq_def, usable]
  cases event with
  | object members =>
    dsimp only [field]
    split
    · rename_i resets found
      rw [Option.isSome_map, found]
      exact (mapM_normalReset resets).1
    · rename_i other
      split
      · rename_i resets found
        exact absurd found (other resets)
      · rfl
  | _ => rfl

theorem completeEvent_does {item event event' : Document} (usual : Usual item)
    (completed : completeEvent item event = some event') :
    Keeps event event' ∧ usable event' = true ∧
      ∀ key, (field key item).isSome → (field key event').isSome := by
  obtain ⟨defaults, rfl⟩ := usual.isObject
  rw [completeEvent.eq_def] at completed
  split at completed
  · rename_i members
    split at completed
    · rename_i resets found
      obtain ⟨resets', normal, rfl⟩ := Option.map_eq_some_iff.mp completed
      obtain ⟨changes, all⟩ := (mapM_normalReset resets).2 resets' normal
      have put := fun key => member?_assign resetKey key (Json.array resets') members
      refine ⟨?_, ?_, ?_⟩
      · intro key value there
        obtain rfl | other := Decidable.em (resetKey = key)
        · have same : value = .array resets := Option.some.inj (there.symm.trans found)
          refine ⟨.array resets', addMissing_keeps defaults ((put _).trans (if_pos rfl)), .inr ?_⟩
          exact ⟨rfl, resets, resets', same, rfl, changes⟩
        · exact ⟨value, addMissing_keeps defaults (((put key).trans (if_neg other)).trans there),
            .inl rfl⟩
      · have kept := addMissing_keeps defaults ((put resetKey).trans (if_pos rfl))
        rw [usable, field, kept]
        exact all
      · intro key there
        exact addMissing_gains _ there
    · cases completed
  · cases completed

theorem insertedEvent_field (enable : Text) {key : Text} (other : enabledKey ≠ key)
    (item : Document) : field key (insertedEvent enable item) = field key item := by
  rw [insertedEvent.eq_def]
  split
  · split
    · rw [field_assign, if_neg other]
    · split
      · rw [field_assign, if_neg other]
      · rfl
  · rfl

theorem insertedEvent_isSome (enable : Text) {key : Text} {item : Document}
    (there : (field key item).isSome) : (field key (insertedEvent enable item)).isSome := by
  obtain rfl | other := Decidable.em (enabledKey = key)
  · rw [insertedEvent.eq_def]
    split
    · split
      · rw [field_assign, if_pos rfl]
        rfl
      · split
        · rw [field_assign, if_pos rfl]
          rfl
        · exact there
    · exact there
  · rwa [insertedEvent_field enable other]

theorem insertedEvent_isEvent (enable name : Text) (item : Document) :
    isEvent name (insertedEvent enable item) = isEvent name item := by
  rw [isEvent, insertedEvent_field enable enabled_ne_function, isEvent]

theorem insertedEvent_usable (enable : Text) (item : Document) :
    usable (insertedEvent enable item) = usable item := by
  rw [usable, insertedEvent_field enable enabled_ne_reset, usable]

theorem Usual.isEvent {item : Document} (usual : Usual item) (name : Text) :
    isEvent name item = decide (functionOf item = name) := by
  rw [Events.isEvent, usual.named]

section lists

variable {α : Type} {p : α → Bool} {a b : α}

theorem insertIdx_split (a : α) {l : List α} {i : Nat} (inside : i ≤ l.length) :
    l.insertIdx i a = l.take i ++ a :: l.drop i := by
  induction l generalizing i with
  | nil =>
    cases Nat.le_zero.mp inside
    rfl
  | cons b rest ih =>
    cases i with
    | zero => rfl
    | succ i =>
      rw [List.insertIdx_succ_cons, ih (Nat.le_of_succ_le_succ inside)]
      rfl

theorem find?_without {front back : List α} (no : p a = false) :
    (front ++ a :: back).find? p = (front ++ back).find? p := by
  rw [List.find?_append, List.find?_append, List.find?_cons_of_neg (by rw [no]; exact Bool.noConfusion)]

theorem find?_here {front back : List α} (none : ∀ b ∈ front, p b = false) (yes : p a = true) :
    (front ++ a :: back).find? p = Option.some a := by
  have nothing : front.find? p = Option.none :=
    List.find?_eq_none.mpr fun b there => by rw [none b there]; exact Bool.noConfusion
  rw [List.find?_append, nothing, List.find?_cons_of_pos yes]
  rfl

/-- Around the first element that is looked for. -/
theorem findIdx?_split {l : List α} {i : Nat} (found : l.findIdx? p = Option.some i) :
    ∃ front a back, l = front ++ a :: back ∧ i = front.length ∧ p a = true ∧
      ∀ b ∈ front, p b = false := by
  obtain ⟨inside, yes, none⟩ := List.findIdx?_eq_some_iff_getElem.mp found
  refine ⟨l.take i, l[i], l.drop (i + 1), ?_, (List.length_take_of_le (Nat.le_of_lt inside)).symm,
    yes, ?_⟩
  · rw [← List.drop_eq_getElem_cons inside, List.take_append_drop]
  · intro b there
    obtain ⟨j, small, rfl⟩ := List.mem_iff_getElem.mp there
    rw [List.getElem_take]
    rw [List.length_take] at small
    exact Bool.eq_false_iff.mpr (none j (Nat.lt_of_lt_of_le small (Nat.min_le_left _ _)))

end lists

/-- Neither the source nor an earlier default event is for its function. -/
def Fresh (events before : List Document) (item : Document) : Prop :=
  (∀ event ∈ events, isEvent (functionOf item) event = false) ∧
    ∀ earlier ∈ before, functionOf earlier ≠ functionOf item

/-- Where the loop stands behind some of the default events. -/
structure Stands (events before result : List Document) : Prop where
  kept : List.SublistForall₂ Keeps events result
  length : result.length = events.length + (lacking events before).card
  named : ∀ name, (∃ event ∈ result, isEvent name event = true) ↔
    (∃ event ∈ events, isEvent name event = true) ∨ ∃ item ∈ before, functionOf item = name
  usable : ∀ name event, result.find? (isEvent name) = some event →
    usable event = !broken events name
  complete : ∀ item ∈ before, ∃ event ∈ result, Completes item event

section loop

variable {events before result : List Document} {item : Document}

theorem stands_nil (events : List Document) : Stands events [] events := by
  refine ⟨refl events, rfl, fun name => ?_, fun name event found => ?_, ?_⟩
  · exact ⟨.inl, fun given => given.elim id fun ⟨_, no, _⟩ => (List.not_mem_nil no).elim⟩
  · rw [broken, found, Bool.not_not]
  · intro item no
    exact (List.not_mem_nil no).elim

theorem lacking_snoc (events before : List Document) (item : Document) :
    lacking events (before ++ [item]) =
      if events.any (isEvent (functionOf item)) = false then
        insert (functionOf item) (lacking events before)
      else lacking events before := by
  rw [lacking, List.map_append, List.toFinset_append, Finset.union_comm, List.map_singleton,
    List.toFinset_cons, List.toFinset_nil, Finset.insert_union, Finset.empty_union,
    Finset.filter_insert]
  rfl

theorem mem_lacking {name : Text} : name ∈ lacking events before ↔
    (∃ earlier ∈ before, functionOf earlier = name) ∧ events.any (isEvent name) = false := by
  rw [lacking, Finset.mem_filter, List.mem_toFinset, List.mem_map]

theorem lacking_fresh (fresh : Fresh events before item) :
    (lacking events (before ++ [item])).card = (lacking events before).card + 1 := by
  have none : events.any (isEvent (functionOf item)) = false :=
    List.any_eq_false.mpr fun event there => by rw [fresh.1 event there]; exact Bool.noConfusion
  rw [lacking_snoc, if_pos none, Finset.card_insert_of_notMem]
  intro known
  obtain ⟨earlier, there, same⟩ := (mem_lacking.mp known).1
  exact fresh.2 earlier there same

theorem lacking_known (known : ¬Fresh events before item) :
    lacking events (before ++ [item]) = lacking events before := by
  rw [lacking_snoc]
  split
  · rename_i none
    refine Finset.insert_eq_self.mpr (mem_lacking.mpr ⟨?_, none⟩)
    by_contra apart
    refine known ⟨fun event there => Bool.eq_false_iff.mpr (List.any_eq_false.mp none event there),
      fun earlier there same => apart ⟨earlier, there, same⟩⟩
  · rfl

/-- What is looked for in vain is fresh. -/
theorem Stands.fresh_iff (stands : Stands events before result) (item : Document) :
    result.findIdx? (isEvent (functionOf item)) = none ↔ Fresh events before item := by
  rw [List.findIdx?_eq_none_iff]
  constructor
  · intro none
    have nowhere : ¬∃ event ∈ result, isEvent (functionOf item) event = true := by
      rintro ⟨event, there, yes⟩
      rw [none event there] at yes
      cases yes
    rw [stands.named, not_or] at nowhere
    refine ⟨fun event there => Bool.eq_false_iff.mpr fun yes => nowhere.1 ⟨event, there, yes⟩, ?_⟩
    exact fun earlier there same => nowhere.2 ⟨earlier, there, same⟩
  · intro fresh event there
    refine Bool.eq_false_iff.mpr fun yes => ?_
    obtain ⟨source, within, known⟩ | ⟨earlier, within, known⟩ :=
      (stands.named (functionOf item)).mp ⟨event, there, yes⟩
    · rw [fresh.1 source within] at known
      cases known
    · exact fresh.2 earlier within known

theorem named_snoc (before : List Document) (item : Document) (name : Text) :
    (∃ earlier ∈ before ++ [item], functionOf earlier = name) ↔
      (∃ earlier ∈ before, functionOf earlier = name) ∨ functionOf item = name := by
  constructor
  · rintro ⟨earlier, there, same⟩
    obtain old | new := List.mem_append.mp there
    · exact .inl ⟨earlier, old, same⟩
    · exact .inr (List.mem_singleton.mp new ▸ same)
  · rintro (⟨earlier, there, same⟩ | same)
    · exact ⟨earlier, List.mem_append_left _ there, same⟩
    · exact ⟨item, List.mem_append_right _ (List.mem_singleton_self item), same⟩

/-- A missing default event is put in, at any place of the array. -/
theorem Stands.insert (stands : Stands events before result) (usual : Usual item)
    (fresh : Fresh events before item) (enable : Text) {i : Nat} (inside : i ≤ result.length) :
    Stands events (before ++ [item]) (result.insertIdx i (insertedEvent enable item)) := by
  have own := fun name => (insertedEvent_isEvent enable name item).trans (usual.isEvent name)
  rw [insertIdx_split _ inside]
  have whole := List.take_append_drop i result
  generalize result.take i = front at whole
  generalize result.drop i = back at whole
  subst whole
  have grown : (front ++ back).Sublist (front ++ insertedEvent enable item :: back) :=
    (List.Sublist.refl front).append (List.sublist_cons_self _ back)
  refine ⟨IsTrans.trans _ _ _ stands.kept grown.sublistForall₂, ?_, ?_, ?_, ?_⟩
  · rw [lacking_fresh fresh, ← Nat.add_assoc, ← stands.length, List.length_append,
      List.length_append, List.length_cons, Nat.add_assoc]
  · intro name
    rw [named_snoc, ← or_assoc, ← stands.named]
    constructor
    · rintro ⟨event, there, yes⟩
      obtain left | here | right := by simpa using there
      · exact .inl ⟨event, List.mem_append_left _ left, yes⟩
      · rw [here, own] at yes
        exact .inr (of_decide_eq_true yes)
      · exact .inl ⟨event, List.mem_append_right _ right, yes⟩
    · rintro (⟨event, there, yes⟩ | same)
      · exact ⟨event, grown.subset there, yes⟩
      · exact ⟨_, List.mem_append_right _ List.mem_cons_self,
          (own name).trans (decide_eq_true same)⟩
  · intro name event found
    obtain rfl | other := Decidable.em (functionOf item = name)
    · have none : ∀ b ∈ front, isEvent (functionOf item) b = false := fun b there =>
        List.findIdx?_eq_none_iff.mp ((stands.fresh_iff item).mpr fresh) b
          (List.mem_append_left _ there)
      rw [find?_here none ((own _).trans (decide_eq_true rfl))] at found
      cases found
      have nowhere : events.find? (isEvent (functionOf item)) = Option.none :=
        List.find?_eq_none.mpr fun b there => by rw [fresh.1 b there]; exact Bool.noConfusion
      rw [insertedEvent_usable, usual.usable, broken, nowhere]
      rfl
    · rw [find?_without ((own name).trans (decide_eq_false other))] at found
      exact stands.usable name event found
  · intro earlier there
    obtain old | new := List.mem_append.mp there
    · obtain ⟨event, within, completes⟩ := stands.complete earlier old
      exact ⟨event, grown.subset within, completes⟩
    · cases List.mem_singleton.mp new
      exact ⟨_, List.mem_append_right _ List.mem_cons_self,
        (own _).trans (decide_eq_true rfl), fun key => insertedEvent_isSome enable⟩

/-- An event that is there already is completed in its place. -/
theorem Stands.complete_at (stands : Stands events before result) (usual : Usual item)
    {position : Nat} {event event' : Document}
    (found : result.findIdx? (isEvent (functionOf item)) = some position)
    (there : result[position]? = some event) (completed : completeEvent item event = some event') :
    Stands events (before ++ [item]) (result.set position event') := by
  have known : ¬Fresh events before item := fun fresh => by
    rw [(stands.fresh_iff item).mpr fresh] at found
    cases found
  obtain ⟨keeps, normal, gains⟩ := completeEvent_does usual completed
  obtain ⟨front, _, back, rfl, rfl, yes, first⟩ := findIdx?_split found
  rw [List.getElem?_append_right (Nat.le_refl _), Nat.sub_self] at there
  cases there
  have own := fun name => keeps.isEvent yes name
  have put : (front ++ event :: back).set front.length event' = front ++ event' :: back := by
    rw [List.set_append_right _ _ (Nat.le_refl _), Nat.sub_self, List.set_cons_zero]
  rw [put]
  have better : List.SublistForall₂ Keeps (front ++ event :: back) (front ++ event' :: back) :=
    List.sublistForall₂_iff.mpr ⟨_, List.rel_append (List.forall₂_refl front)
      (.cons keeps (List.forall₂_refl back)), List.Sublist.refl _⟩
  -- each event has its successor, of the same functions
  have moved : ∀ old ∈ front ++ event :: back, ∃ new ∈ front ++ event' :: back, Keeps old new ∧
      ∀ name, isEvent name new = isEvent name old := by
    intro old within
    obtain left | right := List.mem_append.mp within
    · exact ⟨old, List.mem_append_left _ left, .refl old, fun _ => rfl⟩
    · obtain rfl | right := List.mem_cons.mp right
      · exact ⟨event', List.mem_append_right _ List.mem_cons_self, keeps, own⟩
      · exact ⟨old, List.mem_append_right _ (List.mem_cons_of_mem _ right), .refl old,
          fun _ => rfl⟩
  refine ⟨IsTrans.trans _ _ _ stands.kept better, ?_, ?_, ?_, ?_⟩
  · have length := stands.length
    rw [lacking_known known]
    rwa [List.length_append, List.length_cons] at length ⊢
  · intro name
    rw [named_snoc, ← or_assoc, ← stands.named]
    constructor
    · rintro ⟨new, within, same⟩
      obtain left | right := List.mem_append.mp within
      · exact .inl ⟨new, List.mem_append_left _ left, same⟩
      · obtain rfl | right := List.mem_cons.mp right
        · exact .inl ⟨event, List.mem_append_right _ List.mem_cons_self, (own name).symm.trans same⟩
        · exact .inl ⟨new, List.mem_append_right _ (List.mem_cons_of_mem _ right), same⟩
    · rintro (⟨old, within, same⟩ | rfl)
      · obtain ⟨new, there, -, still⟩ := moved old within
        exact ⟨new, there, (still name).trans same⟩
      · exact ⟨event', List.mem_append_right _ List.mem_cons_self, (own _).trans yes⟩
  · intro name other found
    have sound := stands.usable name
    by_cases same : isEvent name event = true
    · cases ahead : front.find? (isEvent name) with
      | some b =>
        rw [List.find?_append, ahead] at found sound
        exact sound other found
      | none =>
        rw [List.find?_append, ahead, List.find?_cons_of_pos ((own name).trans same)] at found
        rw [List.find?_append, ahead, List.find?_cons_of_pos same] at sound
        cases found
        have before := sound event rfl
        rw [normal, ← before, ← completeEvent_isSome item event, completed]
        rfl
    · rw [Bool.not_eq_true] at same
      rw [find?_without ((own name).trans same)] at found
      rw [find?_without same] at sound
      exact sound other found
  · intro earlier within
    obtain old | new := List.mem_append.mp within
    · obtain ⟨one, there, its, all⟩ := stands.complete earlier old
      obtain ⟨new, here, keeps, still⟩ := moved one there
      exact ⟨new, here, (still _).trans its, fun key has => keeps.isSome (all key has)⟩
    · cases List.mem_singleton.mp new
      exact ⟨event', List.mem_append_right _ List.mem_cons_self, (own _).trans yes, gains⟩

/-- Some default event would be put behind the end, if nothing makes the migration fall back
before. -/
def Overflows (events before items : List Document) : Prop :=
  ∃ middle item after, items = middle ++ item :: after ∧ Fresh events (before ++ middle) item ∧
    (∀ earlier ∈ before ++ middle, broken events (functionOf earlier) = false) ∧
    events.length + (lacking events (before ++ middle)).card < (before ++ middle).length

theorem overflows_cons {items : List Document} : Overflows events before (item :: items) ↔
    (Fresh events before item ∧ (∀ earlier ∈ before, broken events (functionOf earlier) = false) ∧
      events.length + (lacking events before).card < before.length) ∨
    Overflows events (before ++ [item]) items := by
  constructor
  · rintro ⟨middle, last, after, whole, fits⟩
    cases middle with
    | nil =>
      cases whole
      rw [List.append_nil] at fits
      exact .inl fits
    | cons first middle =>
      cases whole
      refine .inr ⟨middle, last, after, rfl, ?_⟩
      rwa [List.append_assoc]
  · rintro (fits | ⟨middle, last, after, rfl, fits⟩)
    · exact ⟨[], item, items, rfl, by rwa [List.append_nil]⟩
    · refine ⟨item :: middle, last, after, rfl, ?_⟩
      rwa [List.append_assoc] at fits

/-- The loop leaves the array at an overflow and nowhere else. -/
theorem migrateFrom_runs (enable : Text) {items : List Document}
    (stands : Stands events before result) (usual : ∀ item ∈ items, Usual item)
    (sound : ∀ earlier ∈ before, broken events (functionOf earlier) = false) :
    match migrateFrom enable before.length items result with
    | .done result' => Stands events (before ++ items) result' ∧ ¬Overflows events before items
    | .fallback => ¬Overflows events before items
    | .outside => Overflows events before items := by
  induction items generalizing before result with
  | nil =>
    rw [migrateFrom, List.append_nil]
    refine ⟨stands, ?_⟩
    rintro ⟨middle, item, after, whole, -⟩
    exact List.append_ne_nil_of_right_ne_nil middle (List.cons_ne_nil item after) whole.symm
  | cons item items ih =>
    have here := usual item List.mem_cons_self
    have later := fun next there => usual next (List.mem_cons_of_mem item there)
    have length : before.length + 1 = (before ++ [item]).length := by simp
    have whole : before ++ item :: items = before ++ [item] ++ items := by simp
    have further : broken events (functionOf item) = false →
        ∀ earlier ∈ before ++ [item], broken events (functionOf earlier) = false := by
      intro own earlier there
      obtain old | new := List.mem_append.mp there
      · exact sound earlier old
      · cases List.mem_singleton.mp new
        exact own
    rw [migrateFrom]
    cases found : result.findIdx? (isEvent (functionOf item)) with
    | none =>
      have fresh := (stands.fresh_iff item).mp found
      have own : broken events (functionOf item) = false := by
        have nowhere : events.find? (isEvent (functionOf item)) = Option.none :=
          List.find?_eq_none.mpr fun b there => by rw [fresh.1 b there]; exact Bool.noConfusion
        rw [broken, nowhere]
      dsimp only
      by_cases inside : before.length ≤ result.length
      · have next := ih (stands.insert here fresh enable inside) later (further own)
        have fits : ¬events.length + (lacking events before).card < before.length := by
          rw [← stands.length]
          exact Nat.not_lt.mpr inside
        have same : Overflows events before (item :: items) ↔
            Overflows events (before ++ [item]) items :=
          overflows_cons.trans (or_iff_right fun given => fits given.2.2)
        rw [if_pos inside, length, whole, same]
        exact next
      · rw [if_neg inside]
        refine overflows_cons.mpr (.inl ⟨fresh, sound, ?_⟩)
        rw [← stands.length]
        exact Nat.lt_of_not_le inside
    | some position =>
      have known : ¬Fresh events before item := fun fresh => by
        rw [(stands.fresh_iff item).mpr fresh] at found
        cases found
      have same : Overflows events before (item :: items) ↔
          Overflows events (before ++ [item]) items :=
        overflows_cons.trans (or_iff_right fun given => known given.1)
      obtain ⟨front, event, back, split, place, yes, first⟩ := findIdx?_split found
      have there : result[position]? = some event := by
        rw [split, place, List.getElem?_append_right (Nat.le_refl _), Nat.sub_self]
        rfl
      have usability := stands.usable (functionOf item) event (by rw [split, find?_here first yes])
      dsimp only
      rw [there, Option.bind_some]
      cases completed : completeEvent item event with
      | none =>
        dsimp only
        rw [same]
        rintro ⟨middle, last, after, -, -, fine, -⟩
        have own := fine item
          (List.mem_append_left _ (List.mem_append_right _ (List.mem_singleton_self item)))
        rw [own, ← completeEvent_isSome item event, completed] at usability
        cases usability
      | some event' =>
        dsimp only
        have own : broken events (functionOf item) = false := by
          rw [← completeEvent_isSome item event, completed] at usability
          simpa using usability
        have next := ih (stands.complete_at here found there completed) later (further own)
        rw [length, whole, same]
        exact next

end loop

theorem EventDefaults.entry (defaults : EventDefaults) {item : Document}
    (there : item ∈ defaults.items) : validEntry item = true :=
  List.all_eq_true.mp defaults.valid item there

/-- The default events for a server are those of the file, up to their hours. -/
theorem serverEventDefaults_like {user : Document} {defaults : EventDefaults}
    {items : List Document} (given : serverEventDefaults user defaults = some items) :
    (∀ item ∈ items, Usual item) ∧ ∀ item ∈ defaults.items, ∃ like ∈ items,
      functionOf like = functionOf item ∧ ∀ key, (field key like).isSome = (field key item).isSome := by
  obtain ⟨server, -, same⟩ := Option.map_eq_some_iff.mp given
  split at same
  · subst same
    exact ⟨fun item there => validEntry_usual (defaults.entry there),
      fun item there => ⟨item, there, rfl, fun _ => rfl⟩⟩
  · subst same
    constructor
    · intro item there
      obtain ⟨old, within, rfl⟩ := List.mem_map.mp there
      exact validEntry_shifted (defaults.entry within)
    · intro item there
      exact ⟨shiftEntry item, List.mem_map_of_mem there, functionOf_shiftEntry item,
        fun key => shiftEntry_fields key item⟩

/-- The default events themselves have an event for every default function. -/
theorem meets_defaults (source : Option Document) {user : Document} {defaults : EventDefaults}
    {items : List Document} (given : serverEventDefaults user defaults = some items) :
    Meets source user defaults (.returned (.array items)) := by
  obtain ⟨usual, like⟩ := serverEventDefaults_like given
  refine ⟨items, rfl, fun item there => ?_, .inl given⟩
  obtain ⟨own, within, named, -⟩ := like item there
  exact ⟨own, within, by rw [(usual own within).isEvent, named, decide_eq_true rfl]⟩

/-- The loop overflows exactly where the condition on the inputs fails. -/
theorem not_overflows_iff (events items : List Document) : ¬Overflows events [] items ↔
    ∀ before item after, items = before ++ item :: after → Fresh events before item →
      (∃ earlier ∈ before, broken events (functionOf earlier)) ∨
        before.length ≤ events.length + (lacking events before).card := by
  constructor
  · intro within before item after whole fresh
    by_contra apart
    rw [not_or, Nat.not_le] at apart
    refine within ⟨before, item, after, whole, fresh, fun earlier there => ?_, apart.2⟩
    exact Bool.eq_false_iff.mpr fun yes => apart.1 ⟨earlier, there, yes⟩
  · rintro fits ⟨before, item, after, whole, fresh, sound, behind⟩
    obtain ⟨earlier, there, yes⟩ | within := fits before item after whole fresh
    · rw [sound earlier there] at yes
      cases yes
    · exact absurd behind (Nat.not_lt.mpr within)

end Baas.Resource.Events
