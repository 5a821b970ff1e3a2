import Mathlib.Algebra.BigOperators.Group.List.Basic
import Baas.Auth.CanonicalJson

/-! What the writer writes for a value, and which values it writes. -/
namespace Baas.Auth

open JsonText

variable {limits : CanonicalJsonLimits}

theorem CanonicalJsonValue.induct {P : CanonicalJsonValue → Prop} (null : P .null)
    (boolean : ∀ value, P (.boolean value)) (integer : ∀ value, P (.integer value))
    (string : ∀ value, P (.string value))
    (array : ∀ items, (∀ item ∈ items, P item) → P (.array items))
    (object : ∀ members, (∀ member ∈ members, P member.2) → P (.object members))
    (value : CanonicalJsonValue) : P value := by
  refine @CanonicalJsonValue.rec P (fun items => ∀ item ∈ items, P item)
    (fun members => ∀ member ∈ members, P member.2) (fun member => P member.2)
    null boolean integer string array object ?_ ?_ ?_ ?_ ?_ value
  · simp
  · intro item rest first others
    exact List.forall_mem_cons.mpr ⟨first, others⟩
  · simp
  · intro member rest first others
    exact List.forall_mem_cons.mpr ⟨first, others⟩
  · exact fun _ _ value => value

/-! Sorted members. -/

section

variable {α β : Type}

theorem sortMembers_map (f : α → β) (members : List (Text × α)) :
    sortMembers (members.map (fun member => (member.1, f member.2))) =
      (sortMembers members).map (fun member => (member.1, f member.2)) := by
  unfold sortMembers
  symm
  apply List.map_insertionSort
  exact fun _ _ _ _ => Iff.rfl

theorem mem_sortMembers {members : List (Text × α)} {member : Text × α} :
    member ∈ sortMembers members ↔ member ∈ members :=
  List.mem_insertionSort _

theorem sortMembers_keys (members : List (Text × α)) :
    ((sortMembers members).map Prod.fst).Pairwise (· ≤ ·) := by
  rw [List.pairwise_map]
  exact List.pairwise_insertionSort _ members

theorem increasing_of_no_duplicate {keys : List Text} (sorted : keys.Pairwise (· ≤ ·))
    (distinct : hasDuplicate keys = false) : keys.Pairwise (· < ·) := by
  induction keys with
  | nil => exact .nil
  | cons first rest ih =>
    cases rest with
    | nil => simp
    | cons second rest =>
      simp only [hasDuplicate, Bool.or_eq_false_iff, decide_eq_false_iff_not] at distinct
      have later := ih sorted.tail distinct.2
      rw [List.pairwise_cons] at sorted ⊢
      have below : first < second := lt_of_le_of_ne (sorted.1 second (by simp)) distinct.1
      refine ⟨fun key member => ?_, later⟩
      obtain rfl | behind := List.mem_cons.mp member
      · exact below
      · exact below.trans ((List.pairwise_cons.mp later).1 key behind)

theorem no_duplicate_of_increasing {keys : List Text} (sorted : keys.Pairwise (· < ·)) :
    hasDuplicate keys = false := by
  induction keys with
  | nil => rfl
  | cons first rest ih =>
    cases rest with
    | nil => rfl
    | cons second rest =>
      rw [List.pairwise_cons] at sorted
      have below := sorted.1 second (by simp)
      simp [hasDuplicate, ih sorted.2, below.ne]

theorem sortMembers_of_increasing {members : List (Text × α)}
    (sorted : (members.map Prod.fst).Pairwise (· < ·)) : sortMembers members = members := by
  apply List.Pairwise.insertionSort_eq
  rw [List.pairwise_map] at sorted
  exact sorted.imp (fun below => below.le)

end

/-! The same value with the members of its objects in the order of their keys. -/

mutual

def canonical : CanonicalJsonValue → CanonicalJsonValue
  | .array items => .array (canonicalItems items)
  | .object members => .object (sortMembers (canonicalMembers members))
  | value => value

def canonicalItems : List CanonicalJsonValue → List CanonicalJsonValue
  | [] => []
  | item :: rest => canonical item :: canonicalItems rest

def canonicalMembers : List (Text × CanonicalJsonValue) → List (Text × CanonicalJsonValue)
  | [] => []
  | (key, value) :: rest => (key, canonical value) :: canonicalMembers rest

end

theorem canonicalItems_eq (items : List CanonicalJsonValue) :
    canonicalItems items = items.map canonical := by
  induction items with
  | nil => rfl
  | cons item rest ih => simp [canonicalItems, ih]

theorem canonicalMembers_eq (members : List (Text × CanonicalJsonValue)) :
    canonicalMembers members = members.map (fun member => (member.1, canonical member.2)) := by
  induction members with
  | nil => rfl
  | cons member rest ih => simp [canonicalMembers, ih]

theorem itemEncoders_eq (items : List CanonicalJsonValue) :
    itemEncoders limits items = items.map (appendValue limits) := by
  induction items with
  | nil => rfl
  | cons item rest ih => simp [itemEncoders, ih]

theorem memberEncoders_eq (members : List (Text × CanonicalJsonValue)) :
    memberEncoders limits members =
      members.map (fun member => (member.1, appendValue limits member.2)) := by
  induction members with
  | nil => rfl
  | cons member rest ih => simp [memberEncoders, ih]

/-- The order in which a value lists its members makes no difference. -/
theorem appendValue_canonical (value : CanonicalJsonValue) :
    appendValue limits (canonical value) = appendValue limits value := by
  induction value using CanonicalJsonValue.induct with
  | null => rfl
  | boolean value => rfl
  | integer value => rfl
  | string value => rfl
  | array items ih =>
    have same : itemEncoders limits (canonicalItems items) = itemEncoders limits items := by
      rw [itemEncoders_eq, itemEncoders_eq, canonicalItems_eq, List.map_map]
      exact List.map_congr_left ih
    funext depth w
    simp only [canonical, appendValue, same]
  | object members ih =>
    have keys : (sortMembers (canonicalMembers members)).all (fun member => validUtf8 member.1) =
        members.all (fun member => validUtf8 member.1) := by
      rw [Bool.eq_iff_iff, List.all_eq_true, List.all_eq_true]
      constructor
      · intro valid member there
        exact valid (member.1, canonical member.2) (mem_sortMembers.mpr (by
          rw [canonicalMembers_eq]
          exact List.mem_map_of_mem there))
      · intro valid member there
        rw [mem_sortMembers, canonicalMembers_eq] at there
        obtain ⟨original, listed, rfl⟩ := List.mem_map.mp there
        exact valid original listed
    have encoders : memberEncoders limits (canonicalMembers members) =
        memberEncoders limits members := by
      rw [memberEncoders_eq, memberEncoders_eq, canonicalMembers_eq, List.map_map]
      apply List.map_congr_left
      intro member there
      simp [ih member there]
    have sorted : sortMembers (memberEncoders limits (sortMembers (canonicalMembers members))) =
        sortMembers (memberEncoders limits members) := by
      rw [← encoders, memberEncoders_eq, memberEncoders_eq, sortMembers_map, sortMembers_map]
      congr 1
      exact List.Pairwise.insertionSort_eq (List.pairwise_insertionSort _ _)
    funext depth w
    simp only [canonical, appendValue, keys, sorted]

/-! The text of a value, with its members as they are listed. -/

def escaped (value : Text) : Text := value.flatMap escapeByte

def quoted (value : Text) : Text := 34 :: (escaped value ++ [34])

/-- Texts after another one, each behind a comma. -/
def joinedTail (texts : List Text) : Text := texts.flatMap (44 :: ·)

def joined : List Text → Text
  | [] => []
  | text :: rest => text ++ joinedTail rest

mutual

def render : CanonicalJsonValue → Text
  | .null => ascii "null"
  | .boolean value => if value then ascii "true" else ascii "false"
  | .integer value => integerText value
  | .string value => quoted value
  | .array items => 91 :: (joined (renderItems items) ++ [93])
  | .object members => 123 :: (joined (renderMembers members) ++ [125])

def renderItems : List CanonicalJsonValue → List Text
  | [] => []
  | item :: rest => render item :: renderItems rest

def renderMembers : List (Text × CanonicalJsonValue) → List Text
  | [] => []
  | (key, value) :: rest => (quoted key ++ 58 :: render value) :: renderMembers rest

end

def renderMember (member : Text × CanonicalJsonValue) : Text :=
  quoted member.1 ++ 58 :: render member.2

theorem renderItems_eq (items : List CanonicalJsonValue) :
    renderItems items = items.map render := by
  induction items with
  | nil => rfl
  | cons item rest ih => simp [renderItems, ih]

theorem renderMembers_eq (members : List (Text × CanonicalJsonValue)) :
    renderMembers members = members.map renderMember := by
  induction members with
  | nil => rfl
  | cons member rest ih => simp [renderMembers, renderMember, ih]

mutual

/-- The number of values in a value. -/
def values : CanonicalJsonValue → Nat
  | .array items => 1 + itemValues items
  | .object members => 1 + memberValues members
  | _ => 1

def itemValues : List CanonicalJsonValue → Nat
  | [] => 0
  | item :: rest => values item + itemValues rest

def memberValues : List (Text × CanonicalJsonValue) → Nat
  | [] => 0
  | (_, value) :: rest => values value + memberValues rest

end

theorem itemValues_eq (items : List CanonicalJsonValue) :
    itemValues items = (items.map values).sum := by
  induction items with
  | nil => rfl
  | cons item rest ih => simp [itemValues, ih]

theorem memberValues_eq (members : List (Text × CanonicalJsonValue)) :
    memberValues members = (members.map (fun member => values member.2)).sum := by
  induction members with
  | nil => rfl
  | cons member rest ih => simp [memberValues, ih]

/-- The values that can be read back, with so many levels left. -/
inductive Readable : Nat → CanonicalJsonValue → Prop
  | null {room : Nat} : Readable (room + 1) .null
  | boolean {room : Nat} (value : Bool) : Readable (room + 1) (.boolean value)
  | integer {room : Nat} {value : Int} : value.natAbs ≤ maximumSafeJsonInteger →
      Readable (room + 1) (.integer value)
  | string {room : Nat} {value : Text} : validUtf8 value = true →
      Readable (room + 1) (.string value)
  | array {room : Nat} {items : List CanonicalJsonValue} :
      (∀ item ∈ items, Readable room item) → Readable (room + 1) (.array items)
  | object {room : Nat} {members : List (Text × CanonicalJsonValue)} :
      (members.map Prod.fst).Pairwise (· < ·) →
      (∀ member ∈ members, validUtf8 member.1 = true) →
      (∀ member ∈ members, Readable room member.2) → Readable (room + 1) (.object members)

/-! What the parts of the writer add. -/

structure Adds (limits : CanonicalJsonLimits) (w : Writer) (text : Text) (count : Nat)
    (w' : Writer) : Prop where
  output : w'.output = w.output ++ text
  valueCount : w'.valueCount = w.valueCount + count
  bytes : w.output.length ≤ limits.maxOutputBytes → w'.output.length ≤ limits.maxOutputBytes
  bound : w.valueCount ≤ limits.maxValues → w'.valueCount ≤ limits.maxValues

variable {w w' u : Writer} {text text' : Text} {count count' depth : Nat}

theorem Adds.refl : Adds limits w [] 0 w := ⟨by simp, rfl, id, id⟩

theorem Adds.trans (first : Adds limits w text count u) (second : Adds limits u text' count' w') :
    Adds limits w (text ++ text') (count + count') w' where
  output := by rw [second.output, first.output, List.append_assoc]
  valueCount := by rw [second.valueCount, first.valueCount, Nat.add_assoc]
  bytes := fun bound => second.bytes (first.bytes bound)
  bound := fun bound => second.bound (first.bound bound)

theorem Except.bind_ok {ε α β : Type} {x : Except ε α} {f : α → Except ε β} {b : β}
    (h : x >>= f = .ok b) : ∃ a, x = .ok a ∧ f a = .ok b := by
  cases x with
  | error e => cases h
  | ok a => exact ⟨a, rfl, h⟩

theorem append_adds (h : append limits w text = .ok w') : Adds limits w text 0 w' := by
  unfold append at h
  split at h
  · cases h
  · next room =>
    cases h
    refine ⟨rfl, rfl, fun bound => ?_, id⟩
    simp only [List.length_append]
    omega

theorem enter_adds (h : enter limits depth w = .ok w') :
    depth ≤ limits.maxDepth ∧ Adds limits w [] 1 w' := by
  unfold enter at h
  split at h
  · cases h
  · next level =>
    split at h
    · cases h
    · next room =>
      cases h
      exact ⟨by omega, by simp, rfl, id, fun _ => Nat.not_lt.mp room⟩

theorem escape_adds {value : Text}
    (h : value.foldlM (fun w byte => append limits w (escapeByte byte)) w = .ok w') :
    Adds limits w (escaped value) 0 w' := by
  induction value generalizing w with
  | nil =>
    cases h
    exact .refl
  | cons byte rest ih =>
    rw [List.foldlM_cons] at h
    obtain ⟨u, first, later⟩ := Except.bind_ok h
    exact (append_adds first).trans (ih later)

theorem appendJsonString_adds {value : Text} (h : appendJsonString limits w value = .ok w') :
    Adds limits w (quoted value) 0 w' := by
  obtain ⟨u, first, h⟩ := Except.bind_ok h
  obtain ⟨v, middle, last⟩ := Except.bind_ok h
  exact ((append_adds first).trans (escape_adds middle)).trans (append_adds last)

/-- The rule for the elements of a container. -/
theorem appendElements_adds {β : Type} {e : β → Encoder} {t : β → Text}
    {n : β → Nat} {P : β → Prop} {elements : List β}
    (each : ∀ b ∈ elements, ∀ w w', e b depth w = .ok w' →
      P b ∧ Adds limits w (t b) (n b) w') {first : Bool}
    (h : appendElements limits depth first (elements.map e) w = .ok w') :
    (∀ b ∈ elements, P b) ∧ Adds limits w
      (if first then joined (elements.map t) else joinedTail (elements.map t))
      (elements.map n).sum w' := by
  induction elements generalizing w first with
  | nil =>
    cases h
    refine ⟨by simp, ?_⟩
    cases first <;> exact .refl
  | cons b rest ih =>
    rw [List.map_cons, appendElements] at h
    obtain ⟨u, comma, h⟩ := Except.bind_ok h
    obtain ⟨v, element, h⟩ := Except.bind_ok h
    obtain ⟨good, adds⟩ := each b (by simp) u v element
    obtain ⟨others, later⟩ := ih (fun b member => each b (by simp [member])) h
    refine ⟨by simpa using ⟨good, others⟩, ?_⟩
    cases first with
    | true =>
      cases comma
      simpa [joined] using adds.trans later
    | false =>
      have behind : Adds limits w [44] 0 u := append_adds comma
      simpa [joinedTail] using (behind.trans adds).trans later

/-- What `append_value` writes is the text of a value that can be read back. -/
theorem appendValue_adds {value : CanonicalJsonValue}
    (h : appendValue limits value depth w = .ok w') :
    Readable (limits.maxDepth + 1 - depth) (canonical value) ∧
      Adds limits w (render (canonical value)) (values (canonical value)) w' := by
  have level {d : Nat} (below : d ≤ limits.maxDepth) :
      limits.maxDepth + 1 - d = (limits.maxDepth + 1 - (d + 1)) + 1 := by omega
  induction value using CanonicalJsonValue.induct generalizing depth w w' with
  | null =>
    obtain ⟨u, entered, h⟩ := Except.bind_ok h
    obtain ⟨below, adds⟩ := enter_adds entered
    rw [level below]
    exact ⟨.null, adds.trans (append_adds h)⟩
  | boolean value =>
    obtain ⟨u, entered, h⟩ := Except.bind_ok h
    obtain ⟨below, adds⟩ := enter_adds entered
    rw [level below]
    exact ⟨.boolean value, adds.trans (append_adds h)⟩
  | integer value =>
    obtain ⟨u, entered, h⟩ := Except.bind_ok h
    obtain ⟨below, adds⟩ := enter_adds entered
    rw [level below]
    split at h
    · cases h
    · next safe => exact ⟨.integer (Nat.not_lt.mp safe), adds.trans (append_adds h)⟩
  | string value =>
    obtain ⟨u, entered, h⟩ := Except.bind_ok h
    obtain ⟨below, adds⟩ := enter_adds entered
    rw [level below]
    split at h
    · cases h
    · next valid => exact ⟨.string (by simpa using valid), adds.trans (appendJsonString_adds h)⟩
  | array items ih =>
    obtain ⟨u, entered, h⟩ := Except.bind_ok h
    obtain ⟨below, adds⟩ := enter_adds entered
    obtain ⟨v, bracket, h⟩ := Except.bind_ok h
    obtain ⟨x, elements, last⟩ := Except.bind_ok h
    rw [itemEncoders_eq] at elements
    obtain ⟨readable, within⟩ := appendElements_adds (t := fun v => render (canonical v))
      (n := fun v => values (canonical v))
      (P := fun v => Readable (limits.maxDepth + 1 - (depth + 1)) (canonical v))
      (fun item member w w' run => ih item member run) elements
    have whole := ((adds.trans (append_adds bracket)).trans within).trans (append_adds last)
    rw [level below]
    refine ⟨.array (by simpa [canonicalItems_eq] using readable), ?_⟩
    simpa [canonical, canonicalItems_eq, render, renderItems_eq, values, itemValues_eq,
      Function.comp_def] using whole
  | object members ih =>
    obtain ⟨u, entered, h⟩ := Except.bind_ok h
    obtain ⟨below, adds⟩ := enter_adds entered
    split at h
    · cases h
    next valid =>
    dsimp only at h
    split at h
    · cases h
    next distinct =>
    rw [memberEncoders_eq, sortMembers_map] at distinct h
    rw [List.map_map] at distinct h
    obtain ⟨v, bracket, h⟩ := Except.bind_ok h
    obtain ⟨x, elements, last⟩ := Except.bind_ok h
    have each : ∀ member ∈ sortMembers members, ∀ w w',
        appendMember limits (member.1, appendValue limits member.2) (depth + 1) w = .ok w' →
        Readable (limits.maxDepth + 1 - (depth + 1)) (canonical member.2) ∧
        Adds limits w (renderMember (member.1, canonical member.2))
          (values (canonical member.2)) w' := by
      intro member there w w' run
      obtain ⟨u, key, run⟩ := Except.bind_ok run
      obtain ⟨v, colon, run⟩ := Except.bind_ok run
      obtain ⟨readable, value⟩ := ih member (mem_sortMembers.mp there) run
      have whole := ((appendJsonString_adds key).trans (append_adds colon)).trans value
      exact ⟨readable, by simpa [renderMember] using whole⟩
    obtain ⟨readable, within⟩ := appendElements_adds each elements
    have whole := ((adds.trans (append_adds bracket)).trans within).trans (append_adds last)
    have sorted : sortMembers (canonicalMembers members) =
        (sortMembers members).map (fun member => (member.1, canonical member.2)) := by
      rw [canonicalMembers_eq, sortMembers_map]
    rw [level below]
    constructor
    · rw [canonical, sorted]
      apply Readable.object
      · have keys := increasing_of_no_duplicate (sortMembers_keys members)
          (by simpa [Function.comp_def] using distinct)
        simpa [Function.comp_def] using keys
      · simp only [Bool.not_eq_true', Bool.not_eq_false, List.all_eq_true] at valid
        intro member there
        obtain ⟨original, listed, rfl⟩ := List.mem_map.mp there
        exact valid original (mem_sortMembers.mp listed)
      · intro member there
        obtain ⟨original, listed, rfl⟩ := List.mem_map.mp there
        exact readable original listed
    · simpa [canonical, sorted, render, renderMembers_eq, values, memberValues_eq,
        Function.comp_def] using whole

end Baas.Auth
