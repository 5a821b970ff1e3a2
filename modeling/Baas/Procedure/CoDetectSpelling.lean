import Baas.Procedure.CoDetectReading

/-! Documents that spell one definition differently, and what the canonical identity of an accepted
definition depends on. -/
namespace Baas.CoDetectDefinition

open JsonText (ascii)

variable {α β γ : Type} {field field' : String}

/-- A zero, with a sign or without. -/
def isZero : Json → Bool
  | .unsigned n => n = 0
  | .integer n => n.toInt = 0
  | .float x => x.order = 0
  | _ => false

/-- Two ways of writing one document: the members of objects in another order, a default of a match
written or left out, a feature alone as a string or as an object, zeros with and without a sign. -/
inductive Spelled : Json → Json → Prop
  | same (value : Json) : Spelled value value
  | zero {value value' : Json} : isZero value = true → isZero value' = true →
      Spelled value value'
  | array {items items' : List Json} : List.Forall₂ Spelled items items' →
      Spelled (.array items) (.array items')
  | object {members members' : List (Bytes × Json)} :
      (∀ key, (filled key (.object members)).isSome = (filled key (.object members')).isSome) →
      (∀ key value value', filled key (.object members) = some value →
        filled key (.object members') = some value' → Spelled value value') →
      Spelled (.object members) (.object members')
  | bare {text : Bytes} {members : List (Bytes × Json)} :
      (Json.object members).lookup (ascii "feature") = some (.string text) →
      (∀ value, filled (ascii "threshold") (.object members) = some value →
        Spelled (.float defaultThreshold) value) →
      (∀ value, filled (ascii "rgb_diff") (.object members) = some value →
        Spelled (.unsigned 20) value) →
      Spelled (.string text) (.object members)
  | dressed {text : Bytes} {members : List (Bytes × Json)} :
      (Json.object members).lookup (ascii "feature") = some (.string text) →
      (∀ value, filled (ascii "threshold") (.object members) = some value →
        Spelled value (.float defaultThreshold)) →
      (∀ value, filled (ascii "rgb_diff") (.object members) = some value →
        Spelled value (.unsigned 20)) →
      Spelled (.object members) (.string text)

theorem zero_unsigned {value : Json} {n : UInt64} (zero : isZero value = true)
    (read : unsignedInteger value = some n) : n = 0 := by
  cases value with
  | unsigned m =>
    obtain rfl := Option.some.inj read
    exact of_decide_eq_true zero
  | integer m =>
    have none : m.toInt = 0 := of_decide_eq_true zero
    simp only [unsignedInteger, none, Int.lt_irrefl, if_false, Option.some.injEq] at read
    rw [← read]
    decide
  | _ => cases read

theorem spelled_unsigned {value value' : Json} {n n' : UInt64} (spelled : Spelled value value')
    (read : unsignedInteger value = some n) (read' : unsignedInteger value' = some n') :
    n = n' := by
  cases spelled with
  | same => exact Option.some.inj (read.symm.trans read')
  | zero left right => rw [zero_unsigned left read, zero_unsigned right read']
  | _ => cases read

theorem zero_signed {value : Json} {n : Int} (zero : isZero value = true)
    (read : signedInteger value = some n) : n = 0 := by
  cases value with
  | unsigned m =>
    have none : m = 0 := of_decide_eq_true zero
    subst none
    exact (Option.some.inj read).symm
  | integer m =>
    obtain rfl := Option.some.inj read
    exact of_decide_eq_true zero
  | _ => cases read

theorem spelled_signed {value value' : Json} {n n' : Int} (spelled : Spelled value value')
    (read : signedInteger value = some n) (read' : signedInteger value' = some n') : n = n' := by
  cases spelled with
  | same => exact Option.some.inj (read.symm.trans read')
  | zero left right => rw [zero_signed left read, zero_signed right read']
  | _ => cases read

theorem zero_normal {value : Json} (zero : isZero value = true) : normal value.double = ⟨0⟩ := by
  cases value with
  | unsigned n =>
    have none : n = 0 := of_decide_eq_true zero
    subst none
    decide
  | integer n =>
    have none : n.toInt = 0 := of_decide_eq_true zero
    rw [Json.double, none]
    decide
  | float x => exact if_pos (of_decide_eq_true zero)
  | _ => cases zero

theorem spelled_number {value value' : Json} (spelled : Spelled value value')
    (number : value.isNumber = true) : normal value.double = normal value'.double := by
  cases spelled with
  | same => rfl
  | zero left right => rw [zero_normal left, zero_normal right]
  | _ => cases number

theorem spelled_string {text text' : Bytes} (spelled : Spelled (.string text) (.string text')) :
    text = text' := by
  cases spelled with
  | same => rfl
  | zero left => cases left

theorem spelled_boolean {b b' : Bool} (spelled : Spelled (.boolean b) (.boolean b')) : b = b' := by
  cases spelled with
  | same => rfl
  | zero left => cases left

theorem spelled_array {items items' : List Json} (spelled : Spelled (.array items) (.array items')) :
    List.Forall₂ Spelled items items' := by
  cases spelled with
  | same => exact List.forall₂_same.mpr fun value _ => .same value
  | zero left => cases left
  | array each => exact each

theorem zero_no_object {value : Json} (zero : isZero value = true) : ¬ value.isObject = true := by
  cases value <;> first | cases zero | exact Bool.false_ne_true

/-- The members of two objects, defaults included. -/
theorem spelled_filled {value value' : Json} (spelled : Spelled value value')
    (object : value.isObject = true) (object' : value'.isObject = true) {key : Bytes}
    {x x' : Json} (there : filled key value = some x) (there' : filled key value' = some x') :
    Spelled x x' := by
  cases spelled with
  | same =>
    obtain rfl := Option.some.inj (there.symm.trans there')
    exact .same x
  | zero left => exact absurd object (zero_no_object left)
  | array => cases object
  | object _ each => exact each key x x' there there'
  | bare => cases object
  | dressed => cases object'

theorem spelled_item {value value' : Json} (spelled : Spelled value value')
    (object : value.isObject = true) (object' : value'.isObject = true) {key : Bytes}
    (plain : key ≠ ascii "threshold" ∧ key ≠ ascii "rgb_diff") :
    Spelled (value.item key) (value'.item key) := by
  have only (value : Json) : filled key value = value.lookup key := by
    rw [filled, if_neg plain.1, if_neg plain.2, Option.or_none]
  unfold Json.item
  rw [← only value, ← only value']
  cases spelled with
  | same => exact .same _
  | zero left => exact absurd object (zero_no_object left)
  | array => cases object
  | object there each =>
    rename_i members members'
    have both := there key
    cases found : filled key (.object members) with
    | none =>
      rw [found, Option.isSome_none] at both
      rw [Option.isSome_eq_false_iff.mp both.symm |> Option.isNone_iff_eq_none.mp]
      exact .same _
    | some x =>
      rw [found] at both
      obtain ⟨x', found'⟩ := Option.isSome_iff_exists.mp both.symm
      rw [found']
      exact each key x x' found found'
  | bare => cases object
  | dressed => cases object'

/-! Spellings of one document are read as one definition. -/

/-- Two steps on spellings of one value return what looks the same. -/
def Agree (view : α → γ) (read read' : Json → Checked α) : Prop :=
  ∀ value value' a b, Spelled value value' → Yields (read value) a → Yields (read' value') b →
    view a = view b

theorem Agree.arrays {view : α → γ} {read read' : Json → Checked α} (agree : Agree view read read')
    {value value' : Json} {values values' : List α} (spelled : Spelled value value')
    (array : ArrayOf read value values) (array' : ArrayOf read' value' values') :
    values.map view = values'.map view := by
  obtain ⟨items, rfl, -, all⟩ := array
  obtain ⟨items', rfl, -, all'⟩ := array'
  have each := spelled_array spelled
  clear spelled
  induction each generalizing values values' with
  | nil =>
    cases all
    cases all'
    rfl
  | cons first _ ih =>
    cases all with
    | cons read rest =>
      cases all' with
      | cons read' rest' =>
        rw [List.map_cons, List.map_cons, agree _ _ _ _ first read read', ih rest rest']

theorem feature_agree : Agree id (feature · field) (feature · field') := by
  intro value value' text text' spelled read read'
  obtain ⟨rfl, -⟩ := feature_ok read
  obtain ⟨rfl, -⟩ := feature_ok read'
  exact spelled_string spelled

theorem match_agree {value value' : Json} {found found' : CoDetectImageMatch}
    (spelled : ∀ key x x', key = ascii "threshold" ∨ key = ascii "rgb_diff" →
      filled key value = some x → filled key value' = some x' → Spelled x x')
    (read : MatchFrom value found) (read' : MatchFrom value' found') :
    found.executed = found'.executed := by
  obtain ⟨-, ⟨x, there, number, threshold⟩, y, diff, written, unsigned, tolerance⟩ := read
  obtain ⟨-, ⟨x', there', -, threshold'⟩, y', diff', written', unsigned', tolerance'⟩ := read'
  have same := spelled_number (spelled _ x x' (.inl rfl) there there') number
  have equal := spelled_unsigned (spelled _ y y' (.inr rfl) written written') unsigned unsigned'
  rw [CoDetectImageMatch.executed, CoDetectImageMatch.executed, threshold, threshold', same,
    tolerance, tolerance', equal]

theorem lookup_object {value : Json} {key : Bytes} {x : Json} (there : value.lookup key = some x) :
    value.isObject = true := by
  cases value <;> first | rfl | cases there

theorem filled_string {text : Bytes} {x : Json} :
    (filled (ascii "threshold") (.string text) = some x → x = .float defaultThreshold) ∧
      (filled (ascii "rgb_diff") (.string text) = some x → x = .unsigned 20) := by
  rw [filled_threshold, filled_rgbDiff]
  exact ⟨fun there => (Option.some.inj there).symm, fun there => (Option.some.inj there).symm⟩

theorem imageFeature_agree :
    Agree CoDetectImageFeature.executed (imageFeature · field) (imageFeature · field') := by
  intro value value' a b spelled read read'
  obtain ⟨-, matched, written⟩ := imageFeature_ok read
  obtain ⟨-, matched', written'⟩ := imageFeature_ok read'
  rw [CoDetectImageFeature.executed, CoDetectImageFeature.executed]
  obtain rfl | there := written <;> obtain rfl | there' := written'
  · have equal := spelled_string spelled
    rw [equal] at matched ⊢
    rw [match_agree (fun key x x' _ left right => ?_) matched matched']
    rw [left] at right
    exact Option.some.inj right ▸ .same x
  · cases spelled with
    | same => cases there'
    | zero left => cases left
    | bare there threshold rgbDiff =>
      have equal := Json.string.inj (Option.some.inj (there.symm.trans there'))
      rw [equal] at matched ⊢
      rw [match_agree (fun key x x' special left right => ?_) matched matched']
      obtain rfl | rfl := special
      · exact filled_string.1 left ▸ threshold x' right
      · exact filled_string.2 left ▸ rgbDiff x' right
  · cases spelled with
    | same => cases there
    | zero left => exact absurd (lookup_object there) (zero_no_object left)
    | dressed there' threshold rgbDiff =>
      have equal := Json.string.inj (Option.some.inj (there.symm.trans there'))
      rw [← equal] at matched' ⊢
      rw [match_agree (fun key x x' special left right => ?_) matched matched']
      obtain rfl | rfl := special
      · exact filled_string.1 right ▸ threshold x left
      · exact filled_string.2 right ▸ rgbDiff x left
  · have object := lookup_object there
    have object' := lookup_object there'
    have plain : ∀ {value : Json} {x}, value.lookup (ascii "feature") = some x →
        filled (ascii "feature") value = some x := by
      intro value x there
      rw [filled, there]
      rfl
    have equal := spelled_string (spelled_filled spelled object object' (plain there)
      (plain there'))
    rw [equal, match_agree (fun key x x' _ left right =>
      spelled_filled spelled object object' left right) matched matched']

theorem click_agree {allowed : Bool} :
    Agree id (click · field allowed) (click · field' allowed) := by
  intro value value' a b spelled read read'
  obtain ⟨first, second, x, y, rfl, r1, r2, rfl⟩ := click_ok read
  obtain ⟨first', second', x', y', rfl, r1', r2', rfl⟩ := click_ok read'
  have each := spelled_array spelled
  obtain ⟨one, rest⟩ := List.forall₂_cons.mp each
  obtain ⟨two, -⟩ := List.forall₂_cons.mp rest
  rw [spelled_signed one r1 r1', spelled_signed two r2 r2']

theorem profileItem_agree : Agree id (profileItem · field) (profileItem · field') := by
  intro value value' a b spelled read read'
  obtain rfl := profileItem_ok read
  obtain rfl := profileItem_ok read'
  exact (profile_names a).2 b (spelled_string spelled)

theorem key_plain : ∀ key ∈ [ascii "profile_source", ascii "ends", ascii "reactions", ascii "popups",
    ascii "loading", ascii "foreground_check", ascii "loop", ascii "rgb", ascii "image",
    ascii "rgb_profiled", ascii "image_profiled", ascii "profiled_image", ascii "all_rgb",
    ascii "feature", ascii "click", ascii "profiles", ascii "interval_ms", ascii "idle_feature_ms",
    ascii "skip_first_screenshot", ascii "timeout_ms", ascii "duplicate_click_window_ms",
    ascii "tentative", ascii "enabled", ascii "after_failed_cycles",
    ascii "post_wait_screenshot_intervals", ascii "payload"],
    key ≠ ascii "threshold" ∧ key ≠ ascii "rgb_diff" := by
  simp only [JsonText.ascii_eq]
  decide

theorem reaction_agree {profiled image allowed : Bool} :
    Agree CoDetectReaction.executed (reaction · field profiled image allowed)
      (reaction · field' profiled image allowed) := by
  intro value value' a b spelled read read'
  obtain ⟨there, -, clicked, matched, profiles⟩ := reaction_ok read
  obtain ⟨there', -, clicked', matched', profiles'⟩ := reaction_ok read'
  have object := lookup_object there
  have object' := lookup_object there'
  have members {key : Bytes} := @spelled_item value value' spelled object object' key
  have feature : a.feature = b.feature := by
    have both := members (key_plain (ascii "feature") (by simp))
    rw [Json.item, Json.item, there, there'] at both
    exact spelled_string both
  have point : a.click = b.click :=
    click_agree _ _ _ _ (members (key_plain (ascii "click") (by simp))) clicked clicked'
  have found : a.imageMatch.executed = b.imageMatch.executed := by
    cases image with
    | true => exact match_agree (fun key x x' _ left right =>
        spelled_filled spelled object object' left right) matched matched'
    | false =>
      have none : a.imageMatch = {} := matched
      have none' : b.imageMatch = {} := matched'
      rw [none, none']
  have listed : a.profiles = b.profiles := by
    cases profiled with
    | true =>
      have same := profileItem_agree.arrays (members (key_plain (ascii "profiles") (by simp)))
        profiles profiles'
      rwa [List.map_id, List.map_id] at same
    | false =>
      have none : a.profiles = [] := profiles
      have none' : b.profiles = [] := profiles'
      rw [none, none']
  rw [CoDetectReaction.executed, CoDetectReaction.executed, feature, point, found, listed]

theorem foreground_agree : Agree id foregroundCheck foregroundCheck := by
  intro value value' a b spelled read read'
  obtain ⟨object, android, interval, idle⟩ := foregroundCheck_ok read
  obtain ⟨object', android', interval', idle'⟩ := foregroundCheck_ok read'
  have members {key : Bytes} := @spelled_item value value' spelled object object' key
  have first := spelled_unsigned (members (key_plain (ascii "interval_ms") (by simp))) interval
    interval'
  have second := spelled_unsigned (members (key_plain (ascii "idle_feature_ms") (by simp))) idle
    idle'
  cases a
  cases b
  simp only at android android' first second
  rw [android, android', first, second]

theorem tentative_agree : Agree id tentative tentative := by
  intro value value' a b spelled read read'
  obtain ⟨object, enabled, told, rest⟩ := tentative_ok read
  obtain ⟨object', enabled', told', rest'⟩ := tentative_ok read'
  have members {key : Bytes} := @spelled_item value value' spelled object object' key
  have same := members (key_plain (ascii "enabled") (by simp))
  rw [told, told'] at same
  obtain rfl := spelled_boolean same
  cases enabled with
  | false =>
    have none : a = {} := rest
    have none' : b = {} := rest'
    rw [none, none']
  | true =>
    obtain ⟨on, again, cycles, clicked, intervals⟩ := if_pos rfl ▸ rest
    obtain ⟨on', again', cycles', clicked', intervals'⟩ := if_pos rfl ▸ rest'
    have first := spelled_unsigned (members (key_plain (ascii "after_failed_cycles") (by simp)))
      cycles cycles'
    have second := spelled_unsigned
      (members (key_plain (ascii "post_wait_screenshot_intervals") (by simp))) intervals intervals'
    have point : a.click = b.click :=
      click_agree _ _ _ _ (members (key_plain (ascii "click") (by simp))) clicked clicked'
    cases a
    cases b
    simp only at on on' again again' first second point
    rw [on, on', again, again', first, second, point]

theorem loop_agree : Agree id loop loop := by
  intro value value' a b spelled read read'
  obtain ⟨object, skip, timeout, window, rest⟩ := loop_ok read
  obtain ⟨object', skip', timeout', window', rest'⟩ := loop_ok read'
  have members {key : Bytes} := @spelled_item value value' spelled object object' key
  have first := members (key_plain (ascii "skip_first_screenshot") (by simp))
  rw [skip, skip'] at first
  have equal := spelled_boolean first
  have second := spelled_unsigned (members (key_plain (ascii "timeout_ms") (by simp))) timeout
    timeout'
  have third := spelled_unsigned
    (members (key_plain (ascii "duplicate_click_window_ms") (by simp))) window window'
  have fourth : a.tentative = b.tentative :=
    tentative_agree _ _ _ _ (members (key_plain (ascii "tentative") (by simp))) rest rest'
  cases a
  cases b
  simp only at equal second third fourth
  rw [equal, second, third, fourth]

theorem parsed_agree : Agree Parsed.executed parsePayload parsePayload := by
  intro value value' a b spelled read read'
  have from_a := parsePayload_ok read
  have from_b := parsePayload_ok read'
  obtain ⟨object, ends, reactions, popups, loading⟩ := from_a.objects
  obtain ⟨object', ends', reactions', popups', loading'⟩ := from_b.objects
  have members {key : Bytes} := @spelled_item value value' spelled object object' key
  have inEnds {key : Bytes} :=
    @spelled_item _ _ (members (key_plain (ascii "ends") (by simp))) ends ends' key
  have inReactions {key : Bytes} :=
    @spelled_item _ _ (members (key_plain (ascii "reactions") (by simp))) reactions reactions' key
  have inPopups {key : Bytes} :=
    @spelled_item _ _ (members (key_plain (ascii "popups") (by simp))) popups popups' key
  have inLoading {key : Bytes} :=
    @spelled_item _ _ (members (key_plain (ascii "loading") (by simp))) loading loading' key
  have texts {field : String} {v v' : Json} {xs ys : List Bytes} (same : Spelled v v')
      (one : ArrayOf (feature · field) v xs) (two : ArrayOf (feature · field) v' ys) : xs = ys := by
    have equal := feature_agree.arrays same one two
    rwa [List.map_id, List.map_id] at equal
  rw [Parsed.executed, Parsed.executed,
    texts (inEnds (key_plain (ascii "rgb") (by simp))) from_a.endsRgb from_b.endsRgb,
    imageFeature_agree.arrays (inEnds (key_plain (ascii "image") (by simp))) from_a.endsImage
      from_b.endsImage,
    reaction_agree.arrays (inReactions (key_plain (ascii "rgb") (by simp))) from_a.reactionsRgb
      from_b.reactionsRgb,
    reaction_agree.arrays (inReactions (key_plain (ascii "rgb_profiled") (by simp)))
      from_a.reactionsRgbProfiled from_b.reactionsRgbProfiled,
    reaction_agree.arrays (inReactions (key_plain (ascii "image") (by simp)))
      from_a.reactionsImage from_b.reactionsImage,
    reaction_agree.arrays (inReactions (key_plain (ascii "image_profiled") (by simp)))
      from_a.reactionsImageProfiled from_b.reactionsImageProfiled,
    reaction_agree.arrays (inPopups (key_plain (ascii "rgb") (by simp))) from_a.popupsRgb
      from_b.popupsRgb,
    reaction_agree.arrays (inPopups (key_plain (ascii "profiled_image") (by simp)))
      from_a.popupsProfiledImage from_b.popupsProfiledImage,
    texts (inLoading (key_plain (ascii "all_rgb") (by simp))) from_a.loadingAllRgb
      from_b.loadingAllRgb,
    show a.foregroundCheck = b.foregroundCheck from foreground_agree _ _ _ _
      (members (key_plain (ascii "foreground_check") (by simp))) from_a.foregroundCheck
      from_b.foregroundCheck,
    show a.loop = b.loop from loop_agree _ _ _ _
      (members (key_plain (ascii "loop") (by simp))) from_a.loop from_b.loop]

/-! Loading. -/

theorem parseRoot_ok {root : Json} {found : Parsed} (done : Yields (parseRoot root) found) :
    root.isObject = true ∧ Yields (parsePayload (root.item (ascii "payload"))) found := by
  unfold parseRoot at done
  obtain ⟨whole, done⟩ := yields_failIf done
  obtain ⟨schema, -, done⟩ := yields_bind done
  obtain ⟨engine, -, done⟩ := yields_bind done
  obtain ⟨-, done⟩ := yields_failIf done
  obtain ⟨-, done⟩ := yields_failIf done
  obtain ⟨_, -, done⟩ := yields_bind done
  obtain ⟨_, -, done⟩ := yields_bind done
  exact ⟨exactFields_object whole rfl, done⟩

theorem parseStrictJson_ok {parser : Parser} {text : Bytes} {limits : StrictJsonLimits}
    {root : Json} (done : parseStrictJson parser text limits = .ok root) :
    (parser text).2 = some root := by
  unfold parseStrictJson at done
  dsimp only at done
  split at done
  · cases done
  split at done
  · cases done
  obtain ⟨state, -, done⟩ := JsonGrammar.bind_ok.mp done
  split at done
  · next result there =>
    split at done
    · cases done
    split at done
    · cases done
    rw [there, Except.ok.inj done]
  · cases done

theorem load_ok {parser : Parser} {bytes : Bytes} {limits : CoDetectDefinitionLimits}
    {definition : CoDetectPythonCompatDefinition}
    (done : loadCoDetectPythonCompatDefinition parser bytes limits = .ok definition) :
    ∃ root, (parser bytes).2 = some root ∧ Yields (parseRoot root) definition.parsed ∧
      definition.canonical = parsedCode definition.parsed := by
  unfold loadCoDetectPythonCompatDefinition at done
  dsimp only at done
  split at done
  · cases done
  split at done
  · cases done
  obtain ⟨root, strict, done⟩ := JsonGrammar.bind_ok.mp done
  obtain ⟨⟨parsed, budget⟩, read, done⟩ := JsonGrammar.bind_ok.mp done
  obtain ⟨canonical, built, done⟩ := JsonGrammar.bind_ok.mp done
  obtain rfl := Except.ok.inj done
  refine ⟨root, ?_, ⟨_, budget, read⟩, (canonicalIdentity_iff.mp built).1⟩
  cases found : parseStrictJson parser bytes
      ⟨limits.maxJsonDepth, limits.maxJsonNodes, limits.maxStringBytes⟩ with
  | error error =>
    rw [found] at strict
    cases strict
  | ok value =>
    rw [found] at strict
    obtain rfl := Except.ok.inj strict
    exact parseStrictJson_ok found

/-- Two accepted definitions have one canonical identity exactly when the executor reads the same
in both. Spellings of one document do. -/
theorem canonical_exact (parser : Parser) :
    (∀ bytes bytes' limits limits' definition definition',
      loadCoDetectPythonCompatDefinition parser bytes limits = .ok definition →
      loadCoDetectPythonCompatDefinition parser bytes' limits' = .ok definition' →
      (definition.canonical = definition'.canonical ↔
        definition.parsed.executed = definition'.parsed.executed)) ∧
    (∀ bytes bytes' limits limits' definition definition' document document',
      loadCoDetectPythonCompatDefinition parser bytes limits = .ok definition →
      loadCoDetectPythonCompatDefinition parser bytes' limits' = .ok definition' →
      (parser bytes).2 = some document → (parser bytes').2 = some document' →
      Spelled document document' → definition.canonical = definition'.canonical) := by
  have first : ∀ bytes bytes' limits limits' definition definition',
      loadCoDetectPythonCompatDefinition parser bytes limits = .ok definition →
      loadCoDetectPythonCompatDefinition parser bytes' limits' = .ok definition' →
      (definition.canonical = definition'.canonical ↔
        definition.parsed.executed = definition'.parsed.executed) := by
    intro bytes bytes' limits limits' definition definition' loaded loaded'
    obtain ⟨root, -, read, canonical⟩ := load_ok loaded
    obtain ⟨root', -, read', canonical'⟩ := load_ok loaded'
    rw [canonical, canonical']
    exact parsed_faithful.code_iff (parsePayload_ok (parseRoot_ok read).2).sound
      (parsePayload_ok (parseRoot_ok read').2).sound
  refine ⟨first, ?_⟩
  intro bytes bytes' limits limits' definition definition' document document' loaded loaded' there
    there' spelled
  obtain ⟨root, parsed, read, -⟩ := load_ok loaded
  obtain ⟨root', parsed', read', -⟩ := load_ok loaded'
  obtain rfl := Option.some.inj (there.symm.trans parsed)
  obtain rfl := Option.some.inj (there'.symm.trans parsed')
  obtain ⟨object, payload⟩ := parseRoot_ok read
  obtain ⟨object', payload'⟩ := parseRoot_ok read'
  refine (first _ _ _ _ _ _ loaded loaded').mpr (parsed_agree _ _ _ _ ?_ payload payload')
  exact spelled_item spelled object object' (key_plain (ascii "payload") (by simp))

end Baas.CoDetectDefinition
