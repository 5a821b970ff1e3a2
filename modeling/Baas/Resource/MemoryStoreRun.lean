import Baas.Resource.MemoryStore

/-! What the calls of an `InMemoryResourceStore` leave behind: what a single call does, and
when every stored document stays readable. -/
namespace Baas.Resource.Memory

open Transition

variable {N T : Type}

/-! Documents as the library gives them. -/

/-- The members of every object are in the order of their keys, each key once. -/
inductive Canonical : Json N → Prop
  | null : Canonical .null
  | bool {value : Bool} : Canonical (.bool value)
  | number {value : N} : Canonical (.number value)
  | string {value : Text} : Canonical (.string value)
  | array {items : List (Json N)} : (∀ item ∈ items, Canonical item) → Canonical (.array items)
  | object {members : List (Text × Json N)} :
      members.Pairwise (fun a b => a.1 < b.1) → (∀ member ∈ members, Canonical member.2) →
      Canonical (.object members)

/-- What the JSON library is relied on for: documents come in canonical form, what it writes of
one it reads back, and the double of a number it made is the one it was made of. -/
structure LawfulLibrary (library : JsonLibrary N T) : Prop where
  canonical : ∀ text value, library.parse text = some value → Canonical value
  reads : ∀ value text, Canonical value → library.dump value = some text →
    library.parse text = some value
  writes : ∀ time, (library.dump (.number (library.number time))).isSome
  double : ∀ time, library.double (library.number time) = some time

theorem mem_assign {key : Text} {value : Json N} {members : List (Text × Json N)}
    {member : Text × Json N} (there : member ∈ assign key value members) :
    member = (key, value) ∨ member ∈ members := by
  induction members with
  | nil => exact .inl (List.mem_singleton.mp there)
  | cons first rest ih =>
    obtain ⟨k, v⟩ := first
    unfold assign at there
    split at there
    · exact (List.mem_cons.mp there).imp_right (List.mem_cons_of_mem _)
    · split at there
      · exact List.mem_cons.mp there
      · obtain same | later := List.mem_cons.mp there
        · exact .inr (same ▸ List.mem_cons_self)
        · exact (ih later).imp_right (List.mem_cons_of_mem _)

theorem assign_sorted {key : Text} {value : Json N} {members : List (Text × Json N)}
    (sorted : members.Pairwise (fun a b => a.1 < b.1)) :
    (assign key value members).Pairwise (fun a b => a.1 < b.1) := by
  induction members with
  | nil => exact List.pairwise_singleton _ _
  | cons first rest ih =>
    obtain ⟨k, v⟩ := first
    obtain ⟨above, others⟩ := List.pairwise_cons.mp sorted
    unfold assign
    by_cases same : k = key
    · rw [if_pos same]
      subst same
      exact List.pairwise_cons.mpr ⟨above, others⟩
    by_cases before : key < k
    · rw [if_neg same, if_pos before]
      refine List.pairwise_cons.mpr ⟨fun member there => ?_, sorted⟩
      obtain rfl | later := List.mem_cons.mp there
      · exact before
      · exact lt_trans before (above member later)
    · rw [if_neg same, if_neg before]
      refine List.pairwise_cons.mpr ⟨fun member there => ?_, ih others⟩
      obtain rfl | later := mem_assign there
      · exact lt_of_le_of_ne (not_lt.mp before) same
      · exact above member later

theorem assign_canonical {key : Text} {value : Json N} {members : List (Text × Json N)}
    (canonical : Canonical (.object members)) (fine : Canonical value) :
    Canonical (.object (assign key value members)) := by
  cases canonical with
  | object sorted each =>
    refine .object (assign_sorted sorted) (fun member there => ?_)
    obtain rfl | old := mem_assign there
    · exact fine
    · exact each member old

theorem member_canonical {key : Text} {child : Json N} {members : List (Text × Json N)}
    (canonical : Canonical (.object members)) (found : member? key members = some child) :
    Canonical child := by
  cases canonical with
  | object sorted each =>
    obtain ⟨member, there, rfl⟩ := Option.map_eq_some_iff.mp found
    exact each member (List.mem_of_find?_eq_some there)

theorem items_canonical {items : List (Json N)} (canonical : Canonical (.array items)) :
    ∀ item ∈ items, Canonical item := by
  cases canonical with
  | array each => exact each

theorem applyLeaf_canonical {op : String} {leaf : Text} {value document next : Json N}
    (fine : Canonical value) (canonical : Canonical document)
    (applied : applyLeaf op leaf value document = .ok next) : Canonical next := by
  cases document with
  | null => cases applied
  | bool _ => cases applied
  | number _ => cases applied
  | string _ => cases applied
  | object members =>
    simp only [applyLeaf] at applied
    by_cases removes : op = "remove"
    · rw [if_pos removes] at applied
      by_cases absent : (member? leaf members).isNone
      · rw [if_pos absent] at applied
        cases applied
      · rw [if_neg absent] at applied
        cases applied
        cases canonical with
        | object sorted each =>
          exact .object (sorted.filter _)
            (fun member there => each member (List.mem_of_mem_filter there))
    · rw [if_neg removes] at applied
      cases applied
      exact assign_canonical canonical fine
  | array items =>
    have each := items_canonical canonical
    simp only [applyLeaf] at applied
    by_cases append : op = "add" ∧ leaf = [45]
    · rw [if_pos append] at applied
      cases applied
      refine .array (fun item there => ?_)
      obtain old | new := List.mem_append.mp there
      · exact each item old
      · exact List.mem_singleton.mp new ▸ fine
    rw [if_neg append] at applied
    cases index : arrayIndex leaf with
    | none => simp only [index] at applied; cases applied
    | some position =>
      simp only [index] at applied
      split at applied
      · split at applied
        · cases applied
        · cases applied
          refine .array (fun item there => ?_)
          have fits : position ≤ items.length := by omega
          obtain rfl | old := (List.mem_insertIdx fits).mp there
          · exact fine
          · exact each item old
      · split at applied
        · cases applied
        · split at applied
          · cases applied
            refine .array (fun item there => ?_)
            obtain old | rfl := List.mem_or_eq_of_mem_set there
            · exact each item old
            · exact fine
          · cases applied
            exact .array (fun item there => each item (List.mem_of_mem_eraseIdx there))

theorem applyParts_canonical {op : String} {leaf : Text} {value : Json N} (fine : Canonical value)
    {parts : List Text} {document next : Json N} (canonical : Canonical document)
    (applied : applyParts op leaf value parts document = .ok next) : Canonical next := by
  induction parts generalizing document next with
  | nil => exact applyLeaf_canonical fine canonical applied
  | cons part parts ih =>
    cases document with
    | null => cases applied
    | bool _ => cases applied
    | number _ => cases applied
    | string _ => cases applied
    | object members =>
      simp only [applyParts] at applied
      cases found : member? part members with
      | none => simp only [found] at applied; cases applied
      | some child =>
        simp only [found] at applied
        cases inner : applyParts op leaf value parts child with
        | error error => rw [inner] at applied; cases applied
        | ok child' =>
          rw [inner] at applied
          cases applied
          exact assign_canonical canonical (ih (member_canonical canonical found) inner)
    | array items =>
      have each := items_canonical canonical
      simp only [applyParts] at applied
      cases found : (arrayIndex part).bind
          (fun position => items[position]?.map (position, ·)) with
      | none => simp only [found] at applied; cases applied
      | some place =>
        obtain ⟨position, child⟩ := place
        simp only [found] at applied
        have there : items[position]? = some child := by
          obtain ⟨index, _, pair⟩ := Option.bind_eq_some_iff.mp found
          obtain ⟨item, at_, same⟩ := Option.map_eq_some_iff.mp pair
          cases same
          exact at_
        cases inner : applyParts op leaf value parts child with
        | error error => rw [inner] at applied; cases applied
        | ok child' =>
          rw [inner] at applied
          cases applied
          have changed := ih (each child (List.mem_of_getElem? there)) inner
          refine .array (fun item member => ?_)
          obtain old | rfl := List.mem_or_eq_of_mem_set member
          · exact each item old
          · exact changed

section Documents

variable {library : JsonLibrary N T} {limits : MemoryStoreLimits}

theorem parse_of_parseJson {text : Text} {value : Json N}
    (parsed : parseJson library limits text = some value) : library.parse text = some value := by
  unfold parseJson at parsed
  split at parsed
  · cases parsed
  · split at parsed
    · cases parsed
    · next found =>
      split at parsed
      · cases parsed
        exact found
      · cases parsed

theorem applyRead_canonical {document next : Json N} {op : String} {parts : List Text}
    {value : Option (Json N)} (fine : ∀ v, value = some v → Canonical v)
    (canonical : Canonical document) (applied : applyRead document op parts value = .ok next) :
    Canonical next := by
  have given : Canonical (value.getD .null) := by
    cases value with
    | none => exact .null
    | some v => exact fine v rfl
  unfold applyRead at applied
  split at applied
  · split at applied
    · cases applied
    · cases applied
      exact given
  · exact applyParts_canonical given canonical applied

theorem applyOperation_canonical (lawful : LawfulLibrary library) {document next : Json N}
    {operation : ResourcePatchOperation} (canonical : Canonical document)
    (applied : applyOperation (parseJson library limits) document operation = .ok next) :
    Canonical next := by
  unfold applyOperation at applied
  split at applied
  · cases applied
  · split at applied
    · split at applied
      · cases applied
      · split at applied
        · cases applied
        · next value parsed =>
          refine applyRead_canonical ?_ canonical applied
          intro v same
          cases same
          exact lawful.canonical _ _ (parse_of_parseJson parsed)
    · split at applied
      · cases applied
      · exact applyRead_canonical (fun _ none => by cases none) canonical applied

theorem applyOperations_canonical (lawful : LawfulLibrary library)
    {operations : List ResourcePatchOperation} {document next : Json N}
    (canonical : Canonical document)
    (applied : applyOperations (parseJson library limits) document operations = .ok next) :
    Canonical next := by
  induction operations generalizing document with
  | nil =>
    cases applied
    exact canonical
  | cons operation rest ih =>
    unfold applyOperations at applied
    rw [List.foldlM_cons] at applied
    cases first : applyOperation (parseJson library limits) document operation with
    | error error => rw [first] at applied; cases applied
    | ok mid =>
      rw [first] at applied
      exact ih (applyOperation_canonical lawful canonical first) applied

theorem composed_canonical (lawful : LawfulLibrary library) {document next : Json N}
    {operations : List ResourcePatchOperation} (canonical : Canonical document)
    (applied : composed library limits document operations = .ok next) : Canonical next := by
  unfold composed at applied
  cases plain : applyOperations (parseJson library limits) document operations with
  | error error => rw [plain] at applied; cases applied
  | ok value =>
    rw [plain] at applied
    cases applied
    exact applyOperations_canonical lawful canonical plain

theorem checkRequest_accepts {request : ResourcePatchRequest} {expected : T} {text : Text}
    (accepted : checkRequest library limits request = .ok (expected, text)) :
    timestampValue library limits request.expectedTimestampJson = some expected ∧
      serializedOperations library request.operations = some text := by
  unfold checkRequest at accepted
  split at accepted
  · cases accepted
  split at accepted
  · cases accepted
  next time there =>
  split at accepted
  · cases accepted
  split at accepted
  · cases accepted
  split at accepted
  · split at accepted
    · cases accepted
    next written serialized =>
    split at accepted
    · cases accepted
    · cases accepted
      exact ⟨there, serialized⟩
  · cases accepted

/-- Nothing before the lock is answered with a failure of the store. -/
theorem checkRequest_error {request : ResourcePatchRequest} {error : ResourceStoreError}
    (refused : checkRequest library limits request = .error error) : error ≠ .internalError := by
  have operations : ∀ used rest, checkOperations library limits used rest ≠ .internalError := by
    intro used rest
    induction rest generalizing used with
    | nil => nofun
    | cons operation rest ih =>
      unfold checkOperations
      split
      · nofun
      · split
        · nofun
        · exact ih _
  unfold checkRequest at refused
  split at refused
  · cases refused; nofun
  split at refused
  · cases refused; nofun
  split at refused
  · cases refused; nofun
  split at refused
  · cases refused; nofun
  split at refused
  · split at refused
    · cases refused; nofun
    · split at refused
      · cases refused; nofun
      · cases refused
  · cases refused
    exact operations _ _

/-- Any number fits where one number does. -/
theorem bounded_number {n m : N} (fits : bounded limits (.number n) = true) :
    bounded limits (.number m : Json N) = true := fits

theorem timestampValue_number {text : Text} {time : T}
    (read : timestampValue library limits text = some time) :
    ∃ n, parseJson library limits text = some (.number n) ∧ library.double n = some time := by
  obtain ⟨value, parsed, number⟩ := Option.bind_eq_some_iff.mp read
  cases value with
  | number n => exact ⟨n, parsed, number⟩
  | _ => cases number

theorem bounded_of_parseJson {text : Text} {value : Json N}
    (parsed : parseJson library limits text = some value) : bounded limits value = true := by
  unfold parseJson at parsed
  split at parsed
  · cases parsed
  · split at parsed
    · cases parsed
    · split at parsed
      · next fits =>
        cases parsed
        exact fits
      · cases parsed

theorem parseJson_of {text : Text} {value : Json N} (short : text.length ≤ limits.maxJsonBytes)
    (parsed : library.parse text = some value) (fits : bounded limits value = true) :
    parseJson library limits text = some value := by
  unfold parseJson
  rw [if_neg (by omega), parsed]
  exact if_pos fits

theorem timestampJson_reads (lawful : LawfulLibrary library) (time : T) :
    library.parse (timestampJson library time) = some (.number (library.number time)) := by
  obtain ⟨text, written⟩ := Option.isSome_iff_exists.mp (lawful.writes time)
  rw [timestampJson, written]
  exact lawful.reads _ _ .number written

theorem find?_insert_other (resources : Resources) (key : ResourceKey) (snapshot : StoredSnapshot) :
    ∀ other, other ≠ key → (resources.insert key snapshot).find? other = resources.find? other :=
  fun _ different => OrderedMap.find?_insert_ne resources snapshot (Ne.symm different)

end Documents

/-! What a single call does. -/

section Calls

variable [LinearOrder T] (library : JsonLibrary N T) (limits : MemoryStoreLimits)

/-- A patch that was applied: the document is what the operations make of the old one, the time
is not before the old nor before the expected one, and there is one update. -/
def Applied (before after : Resources) (request : ResourcePatchRequest)
    (snapshot : StoredSnapshot) (published : List StoredUpdate) : Prop :=
  ∃ old document next expected oldTime newTime text,
    before.find? request.key = some old ∧
    after.find? request.key = some snapshot ∧
    (∀ other, other ≠ request.key → after.find? other = before.find? other) ∧
    parseJson library limits old.dataJson = some document ∧
    composed library limits document request.operations = .ok next ∧
    library.parse snapshot.dataJson = some next ∧
    timestampValue library limits request.expectedTimestampJson = some expected ∧
    timestampValue library limits old.timestampJson = some oldTime ∧
    (library.parse snapshot.timestampJson).bind (timestampOf library) = some newTime ∧
    oldTime ≤ newTime ∧ expected ≤ newTime ∧
    serializedOperations library request.operations = some text ∧
    published = [⟨request.key, snapshot.timestampJson, text, utf8 "frontend"⟩]

def Unchanged (before after : Resources) (published : List StoredUpdate) : Prop :=
  after = before ∧ published = []

/-- What a call of `apply_patch` may leave, by its answer. A failure that is the store's own
comes from a request to stop or from the clock. -/
def PatchMeets (before after : Resources) (request : ResourcePatchRequest) (stopped : Bool)
    (clock : Option T) (published : List StoredUpdate) : PatchAnswer → Prop
  | .threw => Unchanged before after published
  | .failed error => Unchanged before after published ∧
      (error = .internalError → stopped = true ∨ clock = none)
  | .answered ⟨.conflict, snapshot, _⟩ => Unchanged before after published ∧
      before.find? request.key = some snapshot
  | .answered ⟨.applied, snapshot, _⟩ =>
      Applied library limits before after request snapshot published

def ReplaceMeets (before after : Resources) (key : ResourceKey) (snapshot : StoredSnapshot)
    (operations origin : Text) (published : List StoredUpdate) : Bool → Prop
  | false => Unchanged before after published
  | true => (before.find? key).isSome ∧ after.find? key = some snapshot ∧
      (∀ other, other ≠ key → after.find? other = before.find? other) ∧
      published = [⟨key, snapshot.timestampJson, operations, origin⟩]

def Meets (before : Resources) (e : Exchange T) (after : Resources) : Prop :=
  match e.call, e.answer with
  | .applyPatch request stopped clock, .patch answer =>
    PatchMeets library limits before after request stopped clock e.published answer
  | .replaceAndPublish key snapshot operations origin, .replaced done =>
    ReplaceMeets before after key snapshot operations origin e.published done
  | _, _ => False

def AllReadable (resources : Resources) : Prop :=
  ∀ key snapshot, resources.find? key = some snapshot → validSnapshot library limits snapshot

/-- A patch that gets as far as its commit leaves a document and a time that fit the limits the
next patch will read them under. -/
def Careful (resources : Resources) : Call T → Prop
  | .replaceAndPublish _ _ _ _ => True
  | .applyPatch request stopped clock =>
    ∀ expected operations found current document next now dataJson,
      stopped = false → checkRequest library limits request = .ok (expected, operations) →
      resources.find? request.key = some found →
      timestampValue library limits found.timestampJson = some current → ¬ expected < current →
      parseJson library limits found.dataJson = some document →
      composed library limits document request.operations = .ok next →
      clock = some now → library.dump next = some dataJson →
      dataJson.length ≤ limits.maxJsonBytes →
      bounded limits next = true ∧
        (timestampJson library (max expected now)).length ≤ limits.maxJsonBytes

variable {library limits}

/-- A commit with everything in reach of the limits. -/
theorem commit_meets (lawful : LawfulLibrary library) {resources : Resources}
    {request : ResourcePatchRequest} {found : StoredSnapshot} {expected current : T}
    {text : Text} {document next : Json N} {clock : Option T}
    (asked : timestampValue library limits request.expectedTimestampJson = some expected)
    (serialized : serializedOperations library request.operations = some text)
    (there : resources.find? request.key = some found)
    (stamp : timestampValue library limits found.timestampJson = some current)
    (fresh : ¬ expected < current) (parsed : parseJson library limits found.dataJson = some document)
    (applied : composed library limits document request.operations = .ok next) :
    let done := commit library limits resources request.key expected text next clock
    PatchMeets library limits resources done.resources request false clock done.published
      done.answer := by
  cases clock with
  | none => exact ⟨⟨rfl, rfl⟩, fun _ => .inr rfl⟩
  | some now =>
    cases dumped : library.dump next with
    | none =>
      simp only [commit, dumped]
      exact ⟨rfl, rfl⟩
    | some dataJson =>
      simp only [commit, dumped]
      by_cases long : limits.maxJsonBytes < dataJson.length
      · rw [if_pos long]
        exact ⟨⟨rfl, rfl⟩, nofun⟩
      · rw [if_neg long]
        have canonical := composed_canonical lawful
          (lawful.canonical _ _ (parse_of_parseJson parsed)) applied
        refine ⟨found, document, next, expected, current, max expected now, text, there,
          OrderedMap.find?_insert_self _ _ _, find?_insert_other _ _ _, parsed, applied,
          lawful.reads _ _ canonical dumped, asked, stamp, ?_,
          le_trans (not_lt.mp fresh) (le_max_left _ _), le_max_left _ _, serialized, rfl⟩
        rw [timestampJson_reads lawful]
        exact lawful.double _

theorem applyLocked_meets (lawful : LawfulLibrary library) {resources : Resources}
    (readable : AllReadable library limits resources) {request : ResourcePatchRequest}
    {expected : T} {text : Text} (clock : Option T)
    (asked : timestampValue library limits request.expectedTimestampJson = some expected)
    (serialized : serializedOperations library request.operations = some text) :
    let done := applyLocked library limits resources request expected text clock
    PatchMeets library limits resources done.resources request false clock done.published
      done.answer := by
  unfold applyLocked
  cases there : resources.find? request.key with
  | none => exact ⟨⟨rfl, rfl⟩, nofun⟩
  | some found =>
    have valid := readable _ _ there
    simp only [validSnapshot, Bool.and_eq_true] at valid
    obtain ⟨current, stamp⟩ := Option.isSome_iff_exists.mp valid.1
    obtain ⟨document, parsed⟩ := Option.isSome_iff_exists.mp valid.2
    simp only [stamp, parsed]
    by_cases old : expected < current
    · rw [if_pos old]
      exact ⟨⟨rfl, rfl⟩, there⟩
    · rw [if_neg old]
      cases applied : composed library limits document request.operations with
      | error error => exact ⟨⟨rfl, rfl⟩, there⟩
      | ok next => exact commit_meets lawful asked serialized there stamp old parsed applied

theorem applyPatch_meets (lawful : LawfulLibrary library) {resources : Resources}
    (readable : AllReadable library limits resources) (request : ResourcePatchRequest)
    (stopped : Bool) (clock : Option T) :
    let done := applyPatch library limits resources request stopped clock
    PatchMeets library limits resources done.resources request stopped clock done.published
      done.answer := by
  unfold applyPatch
  cases stopped with
  | true => exact ⟨⟨rfl, rfl⟩, fun _ => .inl rfl⟩
  | false =>
    cases checked : checkRequest library limits request with
    | error error => exact ⟨⟨rfl, rfl⟩, fun blamed => absurd blamed (checkRequest_error checked)⟩
    | ok accepted =>
      obtain ⟨expected, text⟩ := accepted
      obtain ⟨asked, serialized⟩ := checkRequest_accepts checked
      exact applyLocked_meets lawful readable clock asked serialized

omit [LinearOrder T] in
theorem replaceAndPublish_meets (resources : Resources) (key : ResourceKey)
    (snapshot : StoredSnapshot) (operations origin : Text) :
    let done := replaceAndPublish library limits resources key snapshot operations origin
    ReplaceMeets resources done.resources key snapshot operations origin done.published
      done.answer := by
  unfold replaceAndPublish
  split
  · exact ⟨rfl, rfl⟩
  split
  · exact ⟨rfl, rfl⟩
  cases there : resources.find? key with
  | none => exact ⟨rfl, rfl⟩
  | some old =>
    exact ⟨by rw [there]; rfl, OrderedMap.find?_insert_self _ _ _, find?_insert_other _ _ _, rfl⟩

theorem perform_meets (lawful : LawfulLibrary library) {resources : Resources}
    (readable : AllReadable library limits resources) (call : Call T) :
    let done := perform library limits resources call
    Meets library limits resources ⟨call, done.answer, done.published⟩ done.resources := by
  cases call with
  | applyPatch request stopped clock => exact applyPatch_meets lawful readable request stopped clock
  | replaceAndPublish key snapshot operations origin =>
    exact replaceAndPublish_meets resources key snapshot operations origin

/-! When every document stays readable. -/

omit [LinearOrder T] in
theorem insert_readable {resources : Resources} (readable : AllReadable library limits resources)
    {key : ResourceKey} {snapshot : StoredSnapshot}
    (valid : validSnapshot library limits snapshot = true) :
    AllReadable library limits (resources.insert key snapshot) := by
  intro other stored found
  rw [OrderedMap.find?_insert] at found
  split at found
  · cases found
    exact valid
  · exact readable other stored found

omit [LinearOrder T] in
theorem construct_readable {initial : List (ResourceKey × StoredSnapshot)}
    {resources built : Resources} (readable : AllReadable library limits resources)
    (made : construct library limits initial resources = some built) :
    AllReadable library limits built := by
  induction initial generalizing resources with
  | nil =>
    cases made
    exact readable
  | cons first rest ih =>
    obtain ⟨key, snapshot⟩ := first
    unfold construct at made
    split at made
    · cases made
    · next fine =>
      simp only [not_or, Bool.not_eq_true', Bool.not_eq_true, Bool.not_eq_false] at fine
      exact ih (insert_readable readable fine.2.1) made

theorem commit_readable (lawful : LawfulLibrary library) {resources : Resources}
    (readable : AllReadable library limits resources) {key : ResourceKey} {expected now : T}
    {text dataJson : Text} {document : Json N} (canonical : Canonical document)
    (dumped : library.dump document = some dataJson)
    (short : dataJson.length ≤ limits.maxJsonBytes) (fits : bounded limits document = true)
    (stampFits : (timestampJson library (max expected now)).length ≤ limits.maxJsonBytes)
    {n : N} (number : bounded limits (.number n : Json N) = true) :
    AllReadable library limits
      (commit library limits resources key expected text document (some now)).resources := by
  simp only [commit, dumped, if_neg (Nat.not_lt.mpr short)]
  refine insert_readable readable ?_
  have data := parseJson_of short (lawful.reads _ _ canonical dumped) fits
  have stamp := parseJson_of stampFits (timestampJson_reads lawful (max expected now))
    (bounded_number number)
  simp only [validSnapshot, timestampValue, data, stamp, Option.bind_some, timestampOf,
    lawful.double, Option.isSome_some, Bool.and_self]

theorem perform_readable (lawful : LawfulLibrary library) {resources : Resources}
    (readable : AllReadable library limits resources) {call : Call T}
    (careful : Careful library limits resources call) :
    AllReadable library limits (perform library limits resources call).resources := by
  cases call with
  | replaceAndPublish key snapshot operations origin =>
    show AllReadable library limits
      (replaceAndPublish library limits resources key snapshot operations origin).resources
    unfold replaceAndPublish
    split
    · exact readable
    split
    · exact readable
    next fine =>
    simp only [not_or, Bool.not_eq_true', Bool.not_eq_false] at fine
    cases resources.find? key with
    | none => exact readable
    | some old => exact insert_readable readable fine.1
  | applyPatch request stopped clock =>
    show AllReadable library limits
      (applyPatch library limits resources request stopped clock).resources
    unfold applyPatch
    cases stopped with
    | true => exact readable
    | false =>
      cases checked : checkRequest library limits request with
      | error error => exact readable
      | ok accepted =>
        obtain ⟨expected, text⟩ := accepted
        show AllReadable library limits
          (applyLocked library limits resources request expected text clock).resources
        unfold applyLocked
        cases there : resources.find? request.key with
        | none => exact readable
        | some found =>
          cases stamp : timestampValue library limits found.timestampJson with
          | none =>
            simp only [stamp]
            exact readable
          | some current =>
            simp only [stamp]
            by_cases old : expected < current
            · rw [if_pos old]
              exact readable
            rw [if_neg old]
            cases parsed : parseJson library limits found.dataJson with
            | none => exact readable
            | some document =>
              cases applied : composed library limits document request.operations with
              | error error => simp only [applied]; exact readable
              | ok next =>
                simp only [applied]
                cases clock with
                | none => exact readable
                | some now =>
                  cases dumped : library.dump next with
                  | none => simp only [commit, dumped]; exact readable
                  | some dataJson =>
                    by_cases long : limits.maxJsonBytes < dataJson.length
                    · simp only [commit, dumped, if_pos long]
                      exact readable
                    · obtain ⟨fits, stampFits⟩ := careful _ _ _ _ _ _ _ _ rfl checked there stamp
                        old parsed applied rfl dumped (Nat.not_lt.mp long)
                      have canonical := composed_canonical lawful
                        (lawful.canonical _ _ (parse_of_parseJson parsed)) applied
                      obtain ⟨n, number, -⟩ := timestampValue_number stamp
                      exact commit_readable lawful readable canonical dumped (Nat.not_lt.mp long)
                        fits stampFits (bounded_of_parseJson number)

/-- As long as no patch grows a document, or its time, beyond the limits, every call does what it
should and every stored document stays readable. -/
theorem memory_store_meets (lawful : LawfulLibrary library)
    {es : List (Event Resources (Exchange T))} {s : Resources}
    (run : Run (storeSystem library limits) es s)
    (careful : ∀ e ∈ es, Careful library limits e.source e.label.call) :
    (∀ e ∈ es, Meets library limits e.source e.label e.target) ∧
      AllReadable library limits s := by
  refine run.history_while (fun e => Careful library limits e.source e.label.call)
    (fun es s => (∀ e ∈ es, Meets library limits e.source e.label e.target) ∧
      AllReadable library limits s) ?_ ?_ careful
  · rintro s ⟨initial, -, made⟩
    exact ⟨fun e there => absurd there List.not_mem_nil,
      construct_readable (fun _ _ found => by cases found) made⟩
  · rintro es s ⟨call, answer, published⟩ t run ⟨earlier, readable⟩ step care
    have done : perform library limits s call = ⟨t, answer, published⟩ := step
    have meets := perform_meets lawful readable call
    have kept := perform_readable lawful readable care
    rw [done] at meets kept
    refine ⟨fun e member => ?_, kept⟩
    obtain old | new := List.mem_append.mp member
    · exact earlier e old
    · cases List.mem_singleton.mp new
      exact meets

end Calls

/-! A document that grows one level at a time. -/

def nested0 : Text := [91, 93]
def nested1 : Text := [91, 91, 93, 93]
def nested2 : Text := [91, 91, 91, 93, 93, 93]

def sampleItem : Json (Fin 10) :=
  .object [(utf8 "op", .string (utf8 "add")), (utf8 "path", .string (utf8 "/0/-")),
    (utf8 "value", .array [])]

def sampleItems : Text := utf8 "[\x7b\"op\":\"add\",\"path\":\"/0/-\",\"value\":[]\x7d]"

def sampleParse (text : Text) : Option (Json (Fin 10)) :=
  match text with
  | [c] => if 48 ≤ c ∧ c ≤ 57 then some (.number (Fin.ofNat 10 (c.toNat - 48))) else none
  | text =>
    if text = nested0 then some (.array [])
    else if text = nested1 then some (.array [.array []])
    else if text = nested2 then some (.array [.array [.array []]])
    else if text = sampleItems then some (.array [sampleItem])
    else none

def sampleDump : Json (Fin 10) → Option Text
  | .number n => some [48 + UInt8.ofNat n]
  | .array [] => some nested0
  | .array [.array []] => some nested1
  | .array [.array [.array []]] => some nested2
  | .array [.object [(op, .string add), (path, .string at_), (value, .array [])]] =>
    if op = utf8 "op" ∧ add = utf8 "add" ∧ path = utf8 "path" ∧ at_ = utf8 "/0/-" ∧
        value = utf8 "value" then some sampleItems
    else none
  | _ => none

def sampleLibrary : JsonLibrary (Fin 10) (Fin 10) where
  parse := sampleParse
  dump := sampleDump
  double := some
  number := id

theorem empty_canonical : Canonical (.array [] : Json (Fin 10)) :=
  .array (fun _ there => by cases there)

theorem sampleItem_canonical : Canonical sampleItem := by
  refine .object (by decide +kernel) (fun member there => ?_)
  simp only [List.mem_cons, List.not_mem_nil, or_false] at there
  obtain rfl | rfl | rfl := there
  · exact .string
  · exact .string
  · exact empty_canonical

theorem nested_canonical {items : List (Json (Fin 10))} {item : Json (Fin 10)}
    (fine : Canonical item) (same : items = [item]) : Canonical (.array items) := by
  subst same
  exact .array (fun other there => List.mem_singleton.mp there ▸ fine)

theorem sampleParse_digit (n : Fin 10) : sampleParse [48 + UInt8.ofNat n] = some (.number n) := by
  have digits : ∀ n : Fin 10, (48 ≤ 48 + UInt8.ofNat n ∧ 48 + UInt8.ofNat n ≤ 57) ∧
      Fin.ofNat 10 ((48 + UInt8.ofNat n).toNat - 48) = n := by decide
  obtain ⟨digit, same⟩ := digits n
  simp only [sampleParse]
  rw [if_pos digit, same]

theorem sampleItems_apart : sampleItems ≠ nested0 ∧ sampleItems ≠ nested1 ∧
    sampleItems ≠ nested2 ∧ sampleItems.length ≠ 1 := by
  decide +kernel

theorem sampleParse_items : sampleParse sampleItems = some (.array [sampleItem]) := by
  obtain ⟨other0, other1, other2, long⟩ := sampleItems_apart
  unfold sampleParse
  split
  · next single => exact absurd (congrArg List.length single) (by simpa using long)
  · simp only [if_neg other0, if_neg other1, if_neg other2, if_true]

theorem sampleLibrary_lawful : LawfulLibrary sampleLibrary where
  canonical := by
    intro text value parsed
    have read : sampleParse text = some value := parsed
    unfold sampleParse at read
    split at read
    · split at read
      · cases read
        exact .number
      · cases read
    · split at read
      · cases read
        exact empty_canonical
      split at read
      · cases read
        exact nested_canonical empty_canonical rfl
      split at read
      · cases read
        exact nested_canonical (nested_canonical empty_canonical rfl) rfl
      split at read
      · cases read
        exact nested_canonical sampleItem_canonical rfl
      · cases read
  reads := by
    intro value text _ dumped
    have written : sampleDump value = some text := dumped
    show sampleParse text = some value
    unfold sampleDump at written
    split at written
    · cases written
      exact sampleParse_digit _
    · cases written
      rfl
    · cases written
      rfl
    · cases written
      rfl
    · split at written
      · next same =>
        obtain ⟨rfl, rfl, rfl, rfl, rfl⟩ := same
        cases written
        exact sampleParse_items
      · cases written
    · cases written
  writes := fun _ => rfl
  double := fun _ => rfl

def guiKey : ResourceKey := ⟨.gui, none⟩

/-- Documents may be nested once. -/
def shallow : MemoryStoreLimits := { maxJsonDepth := 1 }

def deeper (time : Text) : ResourcePatchRequest :=
  ⟨guiKey, time, [⟨"add", utf8 "/0/-", some nested0⟩]⟩

def firstStored : StoredSnapshot := ⟨[49], nested1⟩
def lastStored : StoredSnapshot := ⟨[50], nested2⟩

def sampleStart : Resources := OrderedMap.empty.insert guiKey firstStored

def grown : Effect Answer :=
  perform sampleLibrary shallow sampleStart (.applyPatch (deeper [49]) false (some 2))

theorem sample_facts :
    validSnapshot sampleLibrary shallow firstStored = true ∧
      grown.resources.find? guiKey = some lastStored ∧
      validSnapshot sampleLibrary shallow lastStored = false ∧
      (applyPatch sampleLibrary shallow grown.resources (deeper [50]) false (some 3)).answer =
        .failed .internalError := by
  decide +kernel

theorem sample_constructed :
    construct sampleLibrary shallow [(guiKey, firstStored)] .empty = some sampleStart := by
  unfold construct
  rw [if_neg (by rw [sample_facts.1]; decide)]
  rfl

theorem sample_starts : (storeSystem sampleLibrary shallow).start sampleStart :=
  ⟨[(guiKey, firstStored)], by decide, sample_constructed⟩

theorem sample_run : Run (storeSystem sampleLibrary shallow)
    [⟨sampleStart, ⟨.applyPatch (deeper [49]) false (some 2), grown.answer, grown.published⟩,
      grown.resources⟩] grown.resources :=
  .step (.start sample_starts) rfl

/-- One patch makes the document too deep for the store to read again, and the next patch is
answered with a failure of the store. -/
theorem patch_grows_unreadable : LawfulLibrary sampleLibrary ∧
    ∃ es s snapshot, Run (storeSystem sampleLibrary shallow) es s ∧
      s.find? guiKey = some snapshot ∧ validSnapshot sampleLibrary shallow snapshot = false ∧
      (applyPatch sampleLibrary shallow s (deeper [50]) false (some 3)).answer =
        .failed .internalError := by
  obtain ⟨-, found, unreadable, blamed⟩ := sample_facts
  exact ⟨sampleLibrary_lawful, _, _, lastStored, sample_run, found, unreadable, blamed⟩

def roomy : MemoryStoreLimits := {}

def spacious : Effect Answer :=
  perform sampleLibrary roomy sampleStart (.applyPatch (deeper [49]) false (some 2))

theorem roomy_facts :
    validSnapshot sampleLibrary roomy firstStored = true ∧
      splitPointer (utf8 "/0/-") = some [[48], [45]] ∧ arrayIndex [48] = some 0 ∧
      sampleStart.find? guiKey = some firstStored ∧
      timestampValue sampleLibrary roomy [49] = some 1 := by
  decide +kernel

theorem roomy_starts : (storeSystem sampleLibrary roomy).start sampleStart := by
  refine ⟨[(guiKey, firstStored)], by decide, ?_⟩
  unfold construct
  rw [if_neg (by rw [roomy_facts.1]; decide)]
  rfl

theorem deeper_composed :
    composed sampleLibrary roomy (.array [.array []]) (deeper [49]).operations =
      .ok (.array [.array [.array []]]) := by
  obtain ⟨-, cut, position, -⟩ := roomy_facts
  have item : parseJson sampleLibrary roomy nested0 = some (.array []) := rfl
  have once : applyOperation (parseJson sampleLibrary roomy) (.array [.array []])
      ⟨"add", utf8 "/0/-", some nested0⟩ = .ok (.array [.array [.array []]]) := by
    simp only [applyOperation, cut, item]
    simp [needsValue, applyRead, applyParts, applyLeaf, position, Except.map]
  have applied : applyOperations (parseJson sampleLibrary roomy) (.array [.array []])
      (deeper [49]).operations = .ok (.array [.array [.array []]]) := by
    simp only [applyOperations, deeper, List.foldlM_cons, List.foldlM_nil, once]
    rfl
  rw [composed, applied]
  rfl

theorem deeper_careful : Careful sampleLibrary roomy sampleStart
    (.applyPatch (deeper [49]) false (some 2)) := by
  intro expected operations found current document next now dataJson _ checked there _ _ parsed
    applied clocked _ _
  obtain ⟨-, -, -, first, one⟩ := roomy_facts
  cases first.symm.trans there
  have read : parseJson sampleLibrary roomy nested1 = some (.array [.array []]) := rfl
  cases read.symm.trans parsed
  cases deeper_composed.symm.trans applied
  cases clocked
  have asked : timestampValue sampleLibrary roomy [49] = some expected :=
    (checkRequest_accepts checked).1
  cases one.symm.trans asked
  decide +kernel

/-- The same patch where there is room. -/
theorem memory_store_meets_deeper :
    (∀ e ∈ [(⟨sampleStart, ⟨.applyPatch (deeper [49]) false (some 2), spacious.answer,
        spacious.published⟩, spacious.resources⟩ : Event Resources (Exchange (Fin 10)))],
      Meets sampleLibrary roomy e.source e.label e.target) ∧
      AllReadable sampleLibrary roomy spacious.resources := by
  refine memory_store_meets sampleLibrary_lawful (.step (.start roomy_starts) rfl) ?_
  intro e member
  cases List.mem_singleton.mp member
  exact deeper_careful

end Baas.Resource.Memory
