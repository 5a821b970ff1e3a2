import Baas.Lib.JsonGrammar
import Baas.Lib.PathText
import Baas.Resource.PatchRfc

/-! The patch operations of the sync channel against the standard: every accepted list of
operations leads to the document it prescribes, and every document it prescribes is reached. -/
namespace Baas.Resource.Patch

open JsonPointer Memory

variable {N T : Type}

/-! Pointers. -/

theorem decodeComponent_iff {spelled name : Text} (free : slash ∉ spelled) :
    decodeComponent spelled = some name ↔ TokenText spelled name := by
  constructor
  · intro decoded
    fun_induction decodeComponent spelled generalizing name with
    | case1 =>
      cases decoded
      exact .nil
    | case2 c rest plain ih =>
      obtain ⟨later, found, rfl⟩ := Option.map_eq_some_iff.mp decoded
      obtain ⟨first, others⟩ := not_or.mp (fun there => free (List.mem_cons.mpr there))
      exact .plain (fun same => first same.symm) plain (ih others found)
    | case3 c other => cases decoded
    | case4 c other rest ih =>
      obtain ⟨later, found, rfl⟩ := Option.map_eq_some_iff.mp decoded
      obtain rfl : c = tilde := not_not.mp other
      exact .tilde (ih (fun there => free (by simp [there])) found)
    | case5 c other rest noZero ih =>
      obtain ⟨later, found, rfl⟩ := Option.map_eq_some_iff.mp decoded
      obtain rfl : c = tilde := not_not.mp other
      exact .slash (ih (fun there => free (by simp [there])) found)
    | case6 c other d rest noZero noOne => cases decoded
  · intro token
    induction token with
    | nil => rfl
    | plain noSlash noTilde token ih =>
      have later := ih (fun there => free (List.mem_cons_of_mem _ there))
      unfold decodeComponent
      rw [if_pos (show _ ≠ tilde from noTilde), later, Option.map_some]
    | tilde token ih =>
      have later := ih (fun there => free (by simp [there]))
      rw [decodeComponent, if_neg (by decide), if_pos rfl, later, Option.map_some]
      rfl
    | slash token ih =>
      have later := ih (fun there => free (by simp [there]))
      rw [decodeComponent, if_neg (by decide), if_neg (by decide), if_pos rfl, later,
        Option.map_some]
      rfl

theorem mapM_iff {α β : Type} {f : α → Option β} {R : α → β → Prop} {xs : List α}
    {ys : List β} (each : ∀ x ∈ xs, ∀ y, f x = some y ↔ R x y) :
    xs.mapM f = some ys ↔ List.Forall₂ R xs ys := by
  induction xs generalizing ys with
  | nil =>
    rw [List.mapM_nil, List.forall₂_nil_left_iff]
    exact ⟨fun same => (Option.some.inj same).symm, fun none => none ▸ rfl⟩
  | cons x xs ih =>
    have first := each x List.mem_cons_self
    have later : ∀ zs, xs.mapM f = some zs ↔ List.Forall₂ R xs zs := fun zs =>
      ih (fun y there => each y (List.mem_cons_of_mem x there))
    simp only [List.mapM_cons, Option.bind_eq_bind, Option.bind_eq_some_iff, first, later,
      List.forall₂_cons_left_iff]
    constructor
    · rintro ⟨y, related, zs, tail, same⟩
      cases same
      exact ⟨y, zs, related, tail, rfl⟩
    · rintro ⟨y, zs, related, tail, rfl⟩
      exact ⟨y, related, zs, tail, rfl⟩

theorem splitPointer_iff {path : Text} {names : List Text} :
    splitPointer path = some names ↔ service.pointer path names := by
  unfold splitPointer
  by_cases only : path = [slash]
  · rw [if_pos (.inr only)]
    simp only [service, if_pos only, Option.some.injEq, eq_comm]
  simp only [service, if_neg only]
  cases path with
  | nil =>
    rw [if_pos (.inl rfl)]
    constructor
    · intro same
      cases same
      exact .whole
    · intro pointer
      cases pointer
      rfl
  | cons c rest =>
    rw [if_neg (by simp [only]), List.head?_cons, List.drop_one, List.tail_cons]
    by_cases first : c = slash
    · rw [if_neg (by simp [first]), first]
      refine Iff.trans (mapM_iff ?_) pointer_iff.symm
      intro part there name
      exact decodeComponent_iff (PathText.name_free there)
    · rw [if_pos (by simp [first])]
      constructor
      · intro none
        cases none
      · intro pointer
        cases pointer
        exact absurd rfl first

/-! Containers. -/

theorem arrayIndex_iff {text : Text} {n : Nat} :
    arrayIndex text = some n ↔ service.index text n := by
  have value : text.foldl (fun n c => 10 * n + (c.toNat - 48)) 0 = Decimal.valueOf text := rfl
  have digits : text.all (fun c => 48 ≤ c && c ≤ 57) = text.all Decimal.isDigit := rfl
  simp only [arrayIndex, service, value, digits]
  constructor
  · intro found
    split at found
    · cases found
    · next numeral =>
      obtain ⟨inner, each⟩ := not_or.mp numeral
      split at found
      · next small =>
        cases found
        exact ⟨inner, by simpa using each, rfl, small⟩
      · cases found
  · rintro ⟨inner, each, rfl, small⟩
    rw [if_neg (by simp [inner, each]), if_pos small]

theorem rebinds_assign (name : Text) (value : Json N) (members : List (Text × Json N)) :
    Rebinds name (some value) members (assign name value members) :=
  fun other => member?_assign name other value members

theorem member?_eq_lookup (name : Text) (members : List (Text × Json N)) :
    member? name members = OrderedMap.lookup name members := by
  induction members with
  | nil => rfl
  | cons first rest ih =>
    obtain ⟨k, v⟩ := first
    by_cases same : k = name <;> simp [member?_cons, OrderedMap.lookup, same, ih]

theorem rebinds_filter (name : Text) (members : List (Text × Json N)) :
    Rebinds name none members (members.filter (·.1 ≠ name)) := by
  intro other
  have kept := OrderedMap.lookup_filter name other members
  rw [member?_eq_lookup, member?_eq_lookup]
  convert kept

/-- What an object is bound to settles the object. -/
theorem rebinds_unique {name : Text} {binding : Option (Json N)}
    {before after after' : List (Text × Json N)} (rebinds : Rebinds name binding before after)
    (rebinds' : Rebinds name binding before after')
    (sorted : after.Pairwise (fun a b => a.1 < b.1))
    (sorted' : after'.Pairwise (fun a b => a.1 < b.1)) : after = after' := by
  refine OrderedMap.eq_of_lookup sorted sorted' (fun other => ?_)
  rw [← member?_eq_lookup, ← member?_eq_lookup, rebinds other, rebinds' other]

theorem members_sorted {members : List (Text × Json N)} (canonical : Canonical (.object members)) :
    members.Pairwise (fun a b => a.1 < b.1) := by
  cases canonical with
  | object sorted each => exact sorted

theorem insertIdx_between {α : Type} (front back : List α) (x : α) :
    (front ++ back).insertIdx front.length x = front ++ x :: back := by
  induction front with
  | nil => rfl
  | cons y front ih =>
    rw [List.cons_append, List.length_cons, List.insertIdx_succ_cons, ih, List.cons_append]

theorem set_between {α : Type} (front back : List α) (x y : α) :
    (front ++ y :: back).set front.length x = front ++ x :: back := by
  rw [List.set_append_right _ _ le_rfl, Nat.sub_self, List.set_cons_zero]

theorem eraseIdx_between {α : Type} (front back : List α) (y : α) :
    (front ++ y :: back).eraseIdx front.length = front ++ back := by
  rw [List.eraseIdx_append_of_length_le le_rfl, Nat.sub_self, List.eraseIdx_cons_zero]

theorem getElem?_between {α : Type} (front back : List α) (y : α) :
    (front ++ y :: back)[front.length]? = some y := by
  rw [List.getElem?_append_right le_rfl, Nat.sub_self, List.getElem?_cons_zero]

theorem between {α : Type} {items : List α} {n : Nat} (inside : n ≤ items.length) :
    ∃ front back, items = front ++ back ∧ front.length = n :=
  ⟨items.take n, items.drop n, (List.take_append_drop n items).symm, List.length_take_of_le inside⟩

/-- An array around one of its items. -/
theorem around {α : Type} {items : List α} {n : Nat} (inside : n < items.length) :
    ∃ front x back, items = front ++ x :: back ∧ front.length = n := by
  refine ⟨items.take n, items[n], items.drop (n + 1), ?_, List.length_take_of_le (le_of_lt inside)⟩
  rw [← List.drop_eq_getElem_cons inside, List.take_append_drop]

/-! One operation. -/

theorem applyLeaf_sound {operation : Operation N} {leaf : Text} {document next : Json N}
    (applied : applyLeaf operation.name leaf (operation.value.getD .null) document = .ok next) :
    AtLeaf service operation leaf document next := by
  cases document with
  | null => cases applied
  | bool _ => cases applied
  | number _ => cases applied
  | string _ => cases applied
  | object members =>
    cases operation with
    | add value =>
      cases applied
      exact .addMember (rebinds_assign leaf value members)
    | replace value =>
      cases applied
      exact .replaceMember (.inl trivial) (rebinds_assign leaf value members)
    | remove =>
      simp only [applyLeaf, Operation.name, if_true] at applied
      split at applied
      · cases applied
      · next there =>
        cases applied
        exact .removeMember (Option.isSome_iff_ne_none.mpr (by simpa using there))
          (rebinds_filter leaf members)
  | array items =>
    simp only [applyLeaf] at applied
    split at applied
    · next last =>
      cases operation with
      | add value =>
        cases applied
        rw [last.2]
        exact .append
      | replace value => exact absurd last.1 (by simp [Operation.name])
      | remove => exact absurd last.1 (by simp [Operation.name])
    cases read : arrayIndex leaf with
    | none => rw [read] at applied; cases applied
    | some position =>
      have index := arrayIndex_iff.mp read
      simp only [read] at applied
      cases operation with
      | add value =>
        simp only [Operation.name, if_true] at applied
        split at applied
        · cases applied
        · next inside =>
          cases applied
          obtain ⟨front, back, rfl, here⟩ := between (not_lt.mp inside)
          subst here
          rw [insertIdx_between]
          exact .addItem index
      | replace value =>
        simp only [Operation.name, String.reduceEq, if_false, if_true] at applied
        split at applied
        · cases applied
        · next inside =>
          cases applied
          obtain ⟨front, old, back, rfl, here⟩ := around (not_le.mp inside)
          subst here
          rw [set_between]
          exact .replaceItem index
      | remove =>
        simp only [Operation.name, String.reduceEq, if_false] at applied
        split at applied
        · cases applied
        · next inside =>
          cases applied
          obtain ⟨front, old, back, rfl, here⟩ := around (not_le.mp inside)
          subst here
          rw [eraseIdx_between]
          exact .removeItem index

theorem applyLeaf_complete {operation : Operation N} {leaf : Text} {document next : Json N}
    (changed : AtLeaf service operation leaf document next) (canonical : Canonical document)
    (canonical' : Canonical next) :
    applyLeaf operation.name leaf (operation.value.getD .null) document = .ok next := by
  cases changed with
  | addMember rebinds =>
    have same := rebinds_unique (rebinds_assign _ _ _) rebinds
      (assign_sorted (members_sorted canonical)) (members_sorted canonical')
    simp [applyLeaf, Operation.name, Operation.value, same]
  | replaceMember _ rebinds =>
    have same := rebinds_unique (rebinds_assign _ _ _) rebinds
      (assign_sorted (members_sorted canonical)) (members_sorted canonical')
    simp [applyLeaf, Operation.name, Operation.value, same]
  | removeMember there rebinds =>
    have same := rebinds_unique (rebinds_filter _ _) rebinds
      ((members_sorted canonical).filter _) (members_sorted canonical')
    have present : (member? leaf _).isNone = false := Option.isNone_eq_false_iff.mpr there
    simp only [applyLeaf, Operation.name, if_true, present, Bool.false_eq_true, if_false, same]
  | append => simp [applyLeaf, Operation.name, Operation.value]
  | addItem index =>
    have numeral := arrayIndex_iff.mpr index
    have other : leaf ≠ [45] := by
      rintro rfl
      cases numeral
    simp [applyLeaf, Operation.name, Operation.value, other, numeral, insertIdx_between]
  | replaceItem index =>
    have numeral := arrayIndex_iff.mpr index
    simp [applyLeaf, Operation.name, Operation.value, numeral]
  | removeItem index =>
    have numeral := arrayIndex_iff.mpr index
    simp [applyLeaf, Operation.name, numeral, eraseIdx_between]

theorem map_ok {α β ε : Type} {f : α → β} {result : Except ε α} {b : β}
    (mapped : result.map f = .ok b) : ∃ a, result = .ok a ∧ f a = b := by
  cases result with
  | error e => cases mapped
  | ok a => exact ⟨a, rfl, Except.ok.inj mapped⟩

theorem applyParts_sound {operation : Operation N} {leaf : Text} {parts : List Text}
    {document next : Json N}
    (applied : applyParts operation.name leaf (operation.value.getD .null) parts document =
      .ok next) :
    Prescribed service operation (parts ++ [leaf]) document next := by
  induction parts generalizing document next with
  | nil => exact .leaf (applyLeaf_sound applied)
  | cons part parts ih =>
    have inner : parts ++ [leaf] ≠ [] := by simp
    cases document with
    | null => cases applied
    | bool _ => cases applied
    | number _ => cases applied
    | string _ => cases applied
    | object members =>
      unfold applyParts at applied
      split at applied
      · cases applied
      · next child found =>
        obtain ⟨child', deeper, rfl⟩ := map_ok applied
        exact .member inner found (ih deeper) (rebinds_assign part child' members)
    | array items =>
      unfold applyParts at applied
      split at applied
      · cases applied
      · next position child found =>
        obtain ⟨n, read, found⟩ := Option.bind_eq_some_iff.mp found
        obtain ⟨x, there, same⟩ := Option.map_eq_some_iff.mp found
        cases same
        obtain ⟨inside, rfl⟩ := List.getElem?_eq_some_iff.mp there
        obtain ⟨front, old, back, rfl, here⟩ := around inside
        subst here
        obtain ⟨child', deeper, rfl⟩ := map_ok applied
        rw [set_between]
        have same : (front ++ old :: back)[front.length] = old := by simp
        rw [same] at deeper
        exact .item inner (arrayIndex_iff.mp read) (ih deeper)

theorem applyParts_complete {operation : Operation N} {leaf : Text} {parts : List Text}
    {document next : Json N}
    (prescribed : Prescribed service operation (parts ++ [leaf]) document next)
    (canonical : Canonical document) (canonical' : Canonical next) :
    applyParts operation.name leaf (operation.value.getD .null) parts document = .ok next := by
  induction parts generalizing document next with
  | nil =>
    cases prescribed with
    | leaf changed => exact applyLeaf_complete changed canonical canonical'
    | member inner => exact absurd rfl inner
    | item inner => exact absurd rfl inner
  | cons part parts ih =>
    generalize whole : (part :: parts) ++ [leaf] = names at prescribed
    cases prescribed with
    | whole => cases whole
    | leaf => simp at whole
    | member inner found deeper rebinds =>
      cases whole
      have bound : member? part _ = some _ := (rebinds part).trans (if_pos rfl)
      have applied := ih deeper (member_canonical canonical found)
        (member_canonical canonical' bound)
      have same := rebinds_unique (rebinds_assign _ _ _) rebinds
        (assign_sorted (members_sorted canonical)) (members_sorted canonical')
      simp only [applyParts, found, applied, Except.map, same]
    | item inner index deeper =>
      cases whole
      have applied := ih deeper (items_canonical canonical _ (by simp))
        (items_canonical canonical' _ (by simp))
      simp only [applyParts, arrayIndex_iff.mpr index, Option.bind_some, getElem?_between,
        Option.map_some, applied, Except.map, set_between]

theorem applyRead_iff {operation : Operation N} {names : List Text} {document next : Json N}
    (canonical : Canonical document) (canonical' : Canonical next) :
    applyRead document operation.name names operation.value = .ok next ↔
      Prescribed service operation names document next := by
  unfold applyRead
  rcases List.eq_nil_or_concat names with rfl | ⟨parts, leaf, rfl⟩
  · constructor
    · intro applied
      cases operation with
      | add value => cases applied; exact .whole (.inl rfl)
      | replace value => cases applied; exact .whole (.inr rfl)
      | remove => cases applied
    · intro prescribed
      cases prescribed with
      | whole states =>
        obtain rfl | rfl := states
        · rfl
        · rfl
  · simp only [List.concat_eq_append, List.getLast?_append, List.getLast?_singleton,
      Option.some_or, List.dropLast_concat]
    exact ⟨applyParts_sound, fun prescribed => applyParts_complete prescribed canonical canonical'⟩

theorem States.name {parse : Text → Option (Json N)} {entry : ResourcePatchOperation}
    {operation : Operation N} (states : States parse entry operation) :
    entry.op = operation.name := by
  cases states with
  | add parsed => rfl
  | replace parsed => rfl
  | remove => rfl

theorem applyOperation_iff {parse : Text → Option (Json N)}
    (library : ∀ text value, parse text = some value → Canonical value)
    {entry : ResourcePatchOperation} {document next : Json N} (canonical : Canonical document) :
    applyOperation parse document entry = .ok next ↔
      ∃ operation names, States parse entry operation ∧ service.pointer entry.path names ∧
        Prescribed service operation names document next ∧ Canonical next := by
  obtain ⟨op, path, text⟩ := entry
  constructor
  · intro applied
    unfold applyOperation at applied
    split at applied
    · cases applied
    next names split' =>
    have pointer := splitPointer_iff.mp split'
    split at applied
    · next needs =>
      split at applied
      · cases applied
      next text read =>
      split at applied
      · cases applied
      next value parsed =>
      cases read
      have canonical' := applyRead_canonical (fun v same => Option.some.inj same ▸
        library _ _ parsed) canonical applied
      obtain rfl | rfl : op = "add" ∨ op = "replace" := by simpa [needsValue] using needs
      · exact ⟨.add value, names, .add parsed, pointer,
          (applyRead_iff canonical canonical').mp applied, canonical'⟩
      · exact ⟨.replace value, names, .replace parsed, pointer,
          (applyRead_iff canonical canonical').mp applied, canonical'⟩
    · split at applied
      · cases applied
      · next removes =>
        obtain rfl : op = "remove" := not_not.mp removes
        have canonical' := applyRead_canonical (fun v none => by cases none) canonical applied
        exact ⟨.remove, names, .remove, pointer,
          (applyRead_iff canonical canonical').mp applied, canonical'⟩
  · rintro ⟨operation, names, states, pointer, prescribed, canonical'⟩
    have applied := (applyRead_iff canonical canonical').mpr prescribed
    have split' := splitPointer_iff.mpr pointer
    cases states with
    | add parsed =>
      simp only [applyOperation, split', parsed]
      exact applied
    | replace parsed =>
      simp only [applyOperation, split', parsed]
      exact applied
    | remove =>
      simp only [applyOperation, split']
      exact applied

theorem applyOperations_iff {parse : Text → Option (Json N)}
    (library : ∀ text value, parse text = some value → Canonical value)
    {entries : List ResourcePatchOperation} {document next : Json N}
    (canonical : Canonical document) :
    applyOperations parse document entries = .ok next ↔
      Patched service parse entries document next := by
  unfold applyOperations
  induction entries generalizing document with
  | nil =>
    constructor
    · intro applied
      cases applied
      exact .done
    · intro patched
      cases patched
      rfl
  | cons entry entries ih =>
    rw [List.foldlM_cons]
    constructor
    · intro applied
      obtain ⟨between, first, rest⟩ := JsonGrammar.bind_ok.mp applied
      obtain ⟨operation, names, states, pointer, prescribed, canonical'⟩ :=
        (applyOperation_iff library canonical).mp first
      exact .next states pointer prescribed canonical' ((ih canonical').mp rest)
    · intro patched
      cases patched with
      | next states pointer prescribed canonical' rest =>
        refine JsonGrammar.bind_ok.mpr ⟨_, ?_, (ih canonical').mpr rest⟩
        exact (applyOperation_iff library canonical).mpr
          ⟨_, _, states, pointer, prescribed, canonical'⟩

/-- Of a document in canonical form, the operations of the sync channel make what the standard
prescribes in the reading of the service, and they refuse what it does not prescribe. -/
theorem composed_exact {library : JsonLibrary N T} {limits : MemoryStoreLimits}
    (members : ∀ text value, library.parse text = some value → Canonical value)
    {document next : Json N} (canonical : Canonical document)
    {operations : List ResourcePatchOperation} :
    composed library limits document operations = .ok next ↔
      Patched service (parseJson library limits) operations document next := by
  have values : ∀ text value, parseJson library limits text = some value → Canonical value :=
    fun text value parsed => members text value (parse_of_parseJson parsed)
  rw [← applyOperations_iff values canonical]
  unfold composed
  cases applyOperations (parseJson library limits) document operations with
  | error error => exact ⟨fun same => (by cases same), fun same => (by cases same)⟩
  | ok value => exact Iff.rfl

/-- `replace` of `/a` in an empty object, and then `remove` of the whole of it. -/
theorem composed_exact_sample :
    Patched service (parseJson sampleLibrary {}) [⟨"replace", [47, 97], some nested0⟩]
        (.object []) (.object [([97], .array [])]) ∧
      ¬ Patched service (parseJson sampleLibrary {}) [⟨"remove", [47], none⟩]
        (.object []) (.object []) := by
  have empty : Canonical (.object [] : Json (Fin 10)) :=
    .object .nil (fun _ there => by cases there)
  refine ⟨(composed_exact sampleLibrary_lawful.canonical empty).mp (by rfl), fun patched => ?_⟩
  cases (composed_exact sampleLibrary_lawful.canonical empty).mpr patched

/-- `/` is the whole document, an index may begin with a zero, and `replace` adds a member. -/
theorem lenient_operations :
    splitPointer [slash] = some [] ∧ Pointer [slash] [[]] ∧
      arrayIndex [48, 48] = some 0 ∧ (∀ n, ¬ Index [48, 48] n) ∧
      applyOperations (fun _ => some (.null : Json Unit)) (.object [])
        [⟨"replace", [47, 97], some []⟩] = .ok (.object [([97], .null)]) ∧
      ¬ Patched rfc (fun _ => some (.null : Json Unit)) [⟨"replace", [47, 97], some []⟩]
        (.object []) (.object [([97], .null)]) := by
  refine ⟨rfl, .step .nil .whole, by decide, fun n same => ?_, rfl, fun patched => ?_⟩
  · obtain rfl | positive := Nat.eq_zero_or_pos n
    · simp [Index, Decimal.decimal] at same
    · exact Decimal.decimal_head n positive (congrArg List.head? same).symm
  · cases patched with
    | next states pointer prescribed canonical rest =>
      have op := states.name
      rename_i operation names between
      cases operation with
      | add value => simp [Operation.name] at op
      | remove => simp [Operation.name] at op
      | replace value =>
        cases prescribed with
        | whole =>
          have tokens := pointer_iff.mp pointer
          exact List.splitOn_ne_nil _ _ (List.forall₂_nil_right_iff.mp tokens)
        | leaf changed =>
          cases changed with
          | replaceMember there => exact there.elim id (fun found => by cases found)
        | member inner found => cases found

end Baas.Resource.Patch
