import Baas.Lib.JsonGrammar
import Baas.Procedure.CoDetectIdentity

/-! What a definition that was accepted has been read from, and which ways of writing a document
are read as one definition. -/
namespace Baas.CoDetectDefinition

open JsonText (ascii)

variable {α β : Type} {field field' : String} {error : CoDetectDefinitionError}

/-! Steps that succeed. -/

/-- With some budget the step returns `a`. -/
def Yields (step : Checked α) (a : α) : Prop :=
  ∃ budget rest, step budget = .ok (a, rest)

theorem yields_bind {step : Checked α} {next : α → Checked β} {b : β}
    (done : Yields (step >>= next) b) : ∃ a, Yields step a ∧ Yields (next a) b := by
  obtain ⟨budget, rest, done⟩ := done
  obtain ⟨⟨a, middle⟩, first, second⟩ := JsonGrammar.bind_ok.mp done
  exact ⟨a, ⟨budget, middle, first⟩, ⟨middle, rest, second⟩⟩

theorem yields_pure {a b : α} (done : Yields (pure a) b) : a = b := by
  obtain ⟨budget, rest, done⟩ := done
  exact (Prod.mk.inj (Except.ok.inj done)).1

theorem yields_fail {a : α} : ¬ Yields (fail error field) a := by
  rintro ⟨budget, rest, ⟨⟩⟩

theorem yields_failIf {refused : Bool} {next : Unit → Checked β} {b : β}
    (done : Yields (failIf refused error field >>= next) b) :
    refused = false ∧ Yields (next ()) b := by
  obtain ⟨_, first, rest⟩ := yields_bind done
  cases refused with
  | true => exact absurd first yields_fail
  | false => exact ⟨rfl, rest⟩

theorem charge_ok {remaining left : UInt64} {amount : Nat}
    (done : charge remaining amount error field = .ok left) : amount < 2 ^ 64 := by
  unfold charge at done
  split at done
  · cases done
  · have bound := remaining.toNat_lt
    omega

theorem chargeArray_small {size : Nat} {u : Unit} (done : Yields (chargeArray size field) u) :
    size < 2 ^ 64 := by
  obtain ⟨budget, rest, done⟩ := done
  unfold chargeArray at done
  split at done
  · cases done
  · obtain ⟨items, first, -⟩ := JsonGrammar.bind_ok.mp done
    exact charge_ok first

theorem chargeString_small {text : Bytes} {u : Unit} (done : Yields (chargeString text field) u) :
    Small text := by
  obtain ⟨budget, rest, done⟩ := done
  obtain ⟨strings, first, -⟩ := JsonGrammar.bind_ok.mp done
  exact charge_ok first

/-! One value. -/

theorem feature_ok {value : Json} {text : Bytes} (done : Yields (feature value field) text) :
    value = .string text ∧ Small text := by
  unfold feature at done
  split at done
  · obtain ⟨_, charged, done⟩ := yields_bind done
    obtain ⟨-, done⟩ := yields_failIf done
    obtain rfl := yields_pure done
    exact ⟨rfl, chargeString_small charged⟩
  · exact absurd done yields_fail

theorem integer_ok {value : Json} {positive : Bool} {n : UInt64}
    (done : Yields (integer value positive error field) n) : unsignedInteger value = some n := by
  unfold integer at done
  split at done
  · obtain ⟨-, done⟩ := yields_failIf done
    obtain rfl := yields_pure done
    assumption
  · exact absurd done yields_fail

theorem getBoolean_ok {value : Json} {b : Bool} (done : Yields (getBoolean value error field) b) :
    value = .boolean b := by
  unfold getBoolean at done
  split at done
  · rw [yields_pure done]
  · exact absurd done yields_fail

theorem click_ok {value : Json} {allowed : Bool} {point : CoDetectClick}
    (done : Yields (click value field allowed) point) :
    ∃ first second x y, value = .array [first, second] ∧ signedInteger first = some x ∧
      signedInteger second = some y ∧ point = ⟨Int32.ofInt x, Int32.ofInt y⟩ := by
  unfold click at done
  split at done
  · split at done
    · obtain ⟨-, done⟩ := yields_failIf done
      exact ⟨_, _, _, _, rfl, ‹_›, ‹_›, (yields_pure done).symm⟩
    · exact absurd done yields_fail
  · exact absurd done yields_fail

/-- A threshold without the sign of zero. -/
def normal (x : Binary64) : Binary64 := if x.order = 0 then ⟨0⟩ else x

theorem normal_positive {x : Binary64} (positive : ¬ x.order < 0) :
    (normal x).negative = false := by
  unfold normal
  split
  · decide
  · cases sign : x.negative with
    | false => rfl
    | true =>
      rename_i nonzero
      have order : x.order = -x.magnitude := if_pos sign
      omega

theorem imageThreshold_ok {value : Json} {x : Binary64}
    (done : Yields (imageThreshold value field) x) :
    value.isNumber = true ∧ x = normal value.double ∧ x.negative = false := by
  obtain ⟨number, done⟩ := yields_failIf done
  obtain ⟨range, done⟩ := yields_failIf done
  obtain rfl := yields_pure done
  simp only [Bool.or_eq_false_iff, decide_eq_false_iff_not, Bool.not_eq_eq_eq_not,
    Bool.not_false] at number range
  exact ⟨number, rfl, normal_positive range.1.2⟩

theorem imageRgbDiff_ok {value : Json} {n : UInt16} (done : Yields (imageRgbDiff value field) n) :
    ∃ diff, unsignedInteger value = some diff ∧ n = diff.toUInt16 := by
  unfold imageRgbDiff at done
  split at done
  · obtain ⟨-, done⟩ := yields_failIf done
    exact ⟨_, ‹_›, (yields_pure done).symm⟩
  · exact absurd done yields_fail

/-- What a member is, or what it is when it is left out. -/
def filled (key : Bytes) (value : Json) : Option Json :=
  (value.lookup key).or (if key = ascii "threshold" then some (.float defaultThreshold)
    else if key = ascii "rgb_diff" then some (.unsigned 20) else none)

theorem keys_differ : ascii "rgb_diff" ≠ ascii "threshold" ∧ ascii "feature" ≠ ascii "threshold" ∧
    ascii "feature" ≠ ascii "rgb_diff" := by
  simp only [JsonText.ascii_eq]
  decide

theorem filled_threshold (value : Json) : filled (ascii "threshold") value =
    some ((value.lookup (ascii "threshold")).getD (.float defaultThreshold)) := by
  rw [filled, if_pos rfl]
  cases value.lookup (ascii "threshold") <;> rfl

theorem filled_rgbDiff (value : Json) : filled (ascii "rgb_diff") value =
    some ((value.lookup (ascii "rgb_diff")).getD (.unsigned 20)) := by
  rw [filled, if_neg keys_differ.1, if_pos rfl]
  cases value.lookup (ascii "rgb_diff") <;> rfl

/-- The numbers that a match is made from, whether written or not. -/
structure MatchFrom (value : Json) (found : CoDetectImageMatch) : Prop where
  sound : SoundMatch found
  threshold : ∃ x, filled (ascii "threshold") value = some x ∧ x.isNumber = true ∧
    found.effectiveThreshold = normal x.double
  rgbDiff : ∃ x diff, filled (ascii "rgb_diff") value = some x ∧ unsignedInteger x = some diff ∧
    found.effectiveRgbDiff = diff.toUInt16

theorem default_normal : normal defaultThreshold = defaultThreshold := by decide

theorem optionalThreshold_ok {value : Json} {threshold : Option Binary64}
    (done : Yields (optionalThreshold value field) threshold) :
    ∃ x, filled (ascii "threshold") value = some x ∧ x.isNumber = true ∧
      threshold.getD defaultThreshold = normal x.double ∧
      (threshold.getD defaultThreshold).negative = false := by
  rw [filled_threshold]
  unfold optionalThreshold at done
  split at done
  · next written there =>
    obtain ⟨x, read, done⟩ := yields_bind done
    obtain rfl := yields_pure done
    obtain ⟨number, equal, positive⟩ := imageThreshold_ok read
    rw [there]
    exact ⟨written, rfl, number, equal, positive⟩
  · next there =>
    obtain rfl := yields_pure done
    rw [there]
    exact ⟨_, rfl, rfl, default_normal.symm, by decide⟩

theorem optionalRgbDiff_ok {value : Json} {threshold : Option Binary64} {rgbDiff : Option UInt16}
    (done : Yields (optionalRgbDiff value threshold field) rgbDiff) :
    ∃ x diff, filled (ascii "rgb_diff") value = some x ∧ unsignedInteger x = some diff ∧
      rgbDiff.getD 20 = diff.toUInt16 := by
  rw [filled_rgbDiff]
  unfold optionalRgbDiff at done
  split at done
  · next written there =>
    obtain ⟨-, done⟩ := yields_failIf done
    obtain ⟨x, read, done⟩ := yields_bind done
    obtain rfl := yields_pure done
    obtain ⟨diff, number, equal⟩ := imageRgbDiff_ok read
    rw [there]
    exact ⟨written, diff, rfl, number, equal⟩
  · next there =>
    obtain rfl := yields_pure done
    rw [there]
    exact ⟨_, 20, rfl, rfl, rfl⟩

theorem imageMatch_ok {value : Json} {found : CoDetectImageMatch}
    (done : Yields (imageMatch value field) found) : MatchFrom value found := by
  obtain ⟨threshold, first, done⟩ := yields_bind done
  obtain ⟨rgbDiff, second, done⟩ := yields_bind done
  obtain rfl := yields_pure done
  obtain ⟨x, there, number, equal, positive⟩ := optionalThreshold_ok first
  exact ⟨positive, ⟨x, there, number, equal⟩, optionalRgbDiff_ok second⟩

theorem lookup_of_item {value written : Json} {key : Bytes} (there : value.item key = written)
    (some : written ≠ .null) : value.lookup key = Option.some written := by
  unfold Json.item at there
  cases found : value.lookup key with
  | none =>
    rw [found] at there
    exact absurd there.symm some
  | some other =>
    rw [found] at there
    rw [← there]
    rfl

/-- A string leaves everything about its match out. -/
theorem matchFrom_string (text : Bytes) : MatchFrom (.string text) {} where
  sound := by
    unfold SoundMatch
    decide
  threshold := ⟨_, filled_threshold _, rfl, default_normal.symm⟩
  rgbDiff := ⟨_, 20, filled_rgbDiff _, rfl, rfl⟩

/-- A feature with its match is written as a string or as an object. -/
theorem imageFeature_ok {value : Json} {found : CoDetectImageFeature}
    (done : Yields (imageFeature value field) found) : Small found.feature ∧
      MatchFrom value found.match ∧ (value = .string found.feature ∨
        value.lookup (ascii "feature") = some (.string found.feature)) := by
  unfold imageFeature at done
  split at done
  · obtain ⟨text, read, done⟩ := yields_bind done
    obtain rfl := yields_pure done
    obtain ⟨equal, small⟩ := feature_ok read
    exact ⟨small, matchFrom_string _, .inl equal⟩
  · obtain ⟨-, done⟩ := yields_failIf done
    obtain ⟨-, done⟩ := yields_failIf done
    obtain ⟨text, read, done⟩ := yields_bind done
    obtain ⟨found, matched, done⟩ := yields_bind done
    obtain rfl := yields_pure done
    obtain ⟨equal, small⟩ := feature_ok read
    exact ⟨small, imageMatch_ok matched, .inr (lookup_of_item equal (by rintro ⟨⟩))⟩

/-! Arrays. -/

/-- Each value of a list is what the step on the item at its place returns. -/
abbrev ReadFrom (read : Json → Checked α) (items : List Json) (values : List α) : Prop :=
  List.Forall₂ (fun item value => Yields (read item) value) items values

theorem distinctItems_ok {κ : Type} [DecidableEq κ] {read : Json → Checked α} {key : α → κ}
    {items : List Json} {seen : List κ} {values : List α}
    (done : Yields (distinctItems read key error field items seen) values) :
    ReadFrom read items values := by
  induction items generalizing seen values with
  | nil =>
    obtain rfl := yields_pure done
    exact .nil
  | cons item items ih =>
    obtain ⟨parsed, first, done⟩ := yields_bind done
    obtain ⟨-, done⟩ := yields_failIf done
    obtain ⟨rest, others, done⟩ := yields_bind done
    obtain rfl := yields_pure done
    exact .cons first (ih others)

theorem ReadFrom.each {read : Json → Checked α} {P : α → Prop} {items : List Json}
    {values : List α} (all : ReadFrom read items values)
    (one : ∀ item value, Yields (read item) value → P value) : ∀ value ∈ values, P value := by
  induction all with
  | nil => rintro value ⟨⟩
  | cons first _ ih => exact List.forall_mem_cons.mpr ⟨one _ _ first, ih⟩

theorem ReadFrom.small {read : Json → Checked α} {items : List Json} {values : List α} {u : Unit}
    (all : ReadFrom read items values) (charged : Yields (chargeArray items.length field) u) :
    Small values := by
  have bound := chargeArray_small charged
  rwa [all.length_eq] at bound

/-- An array of at most as many items as there are numbers for. -/
def ArrayOf (read : Json → Checked α) (value : Json) (values : List α) : Prop :=
  ∃ items, value = .array items ∧ Small values ∧ ReadFrom read items values

theorem ArrayOf.sound {read : Json → Checked α} {P : α → Prop} {value : Json} {values : List α}
    (array : ArrayOf read value values) (one : ∀ item value, Yields (read item) value → P value) :
    SoundList P values := by
  obtain ⟨items, -, small, all⟩ := array
  exact ⟨small, all.each one⟩

theorem featureArray_ok {value : Json} {some : Bool} {values : List Bytes}
    (done : Yields (featureArray value field some) values) :
    ArrayOf (feature · field) value values := by
  unfold featureArray at done
  split at done
  · next items =>
    obtain ⟨-, done⟩ := yields_failIf done
    obtain ⟨_, charged, done⟩ := yields_bind done
    have all := distinctItems_ok done
    exact ⟨items, rfl, all.small charged, all⟩
  · exact absurd done yields_fail

theorem imageFeatureArray_ok {value : Json} {values : List CoDetectImageFeature}
    (done : Yields (imageFeatureArray value field) values) :
    ArrayOf (imageFeature · field) value values := by
  unfold imageFeatureArray at done
  split at done
  · next items =>
    obtain ⟨_, charged, done⟩ := yields_bind done
    have all := distinctItems_ok done
    exact ⟨items, rfl, all.small charged, all⟩
  · exact absurd done yields_fail

theorem profileItem_ok {value : Json} {item : CoDetectProfile}
    (done : Yields (profileItem value field) item) : value = .string (coDetectProfileName item) := by
  unfold profileItem at done
  split at done
  · obtain ⟨_, -, done⟩ := yields_bind done
    unfold profile at done
    repeat' split at done
    all_goals first
      | exact absurd done yields_fail
      | obtain rfl := yields_pure done
        exact congrArg Json.string ‹_›
  · exact absurd done yields_fail

theorem profileArray_ok {value : Json} {values : List CoDetectProfile}
    (done : Yields (profileArray value field) values) :
    ArrayOf (profileItem · field) value values := by
  unfold profileArray at done
  split at done
  · next items =>
    obtain ⟨-, done⟩ := yields_failIf done
    obtain ⟨_, charged, done⟩ := yields_bind done
    have all := distinctItems_ok done
    exact ⟨items, rfl, all.small charged, all⟩
  · exact absurd done yields_fail

structure ReactionFrom (profiled image : Bool) (field : String) (value : Json)
    (found : CoDetectReaction) : Prop where
  feature : value.lookup (ascii "feature") = some (.string found.feature)
  small : Small found.feature
  click : Yields (click (value.item (ascii "click")) field true) found.click
  imageMatch : if image then MatchFrom value found.imageMatch else found.imageMatch = {}
  profiles : if profiled then
    ArrayOf (profileItem · field) (value.item (ascii "profiles")) found.profiles
    else found.profiles = []

theorem reaction_ok {value : Json} {profiled image allowed : Bool} {found : CoDetectReaction}
    (done : Yields (reaction value field profiled image allowed) found) :
    ReactionFrom profiled image field value found := by
  obtain ⟨-, done⟩ := yields_failIf done
  obtain ⟨text, read, done⟩ := yields_bind done
  obtain ⟨point, clicked, done⟩ := yields_bind done
  obtain ⟨matched, third, done⟩ := yields_bind done
  obtain ⟨profiles, fourth, done⟩ := yields_bind done
  obtain rfl := yields_pure done
  obtain ⟨equal, small⟩ := feature_ok read
  refine ⟨lookup_of_item equal (by rintro ⟨⟩), small, clicked, ?_, ?_⟩
  · cases image with
    | true => exact imageMatch_ok third
    | false => exact (yields_pure third).symm
  · cases profiled with
    | true => exact profileArray_ok fourth
    | false => exact (yields_pure fourth).symm

theorem reactionItems_ok {profiled image allowed : Bool} {items : List Json}
    {values : List CoDetectReaction}
    (done : Yields (reactionItems field profiled image allowed items) values) :
    ReadFrom (reaction · field profiled image allowed) items values := by
  induction items generalizing values with
  | nil =>
    obtain rfl := yields_pure done
    exact .nil
  | cons item items ih =>
    obtain ⟨parsed, first, done⟩ := yields_bind done
    obtain ⟨rest, others, done⟩ := yields_bind done
    obtain rfl := yields_pure done
    exact .cons first (ih others)

theorem reactionArray_ok {value : Json} {profiled image allowed : Bool}
    {values : List CoDetectReaction}
    (done : Yields (reactionArray value field profiled image allowed) values) :
    ArrayOf (reaction · field profiled image allowed) value values := by
  unfold reactionArray at done
  split at done
  · next items =>
    obtain ⟨_, charged, done⟩ := yields_bind done
    have all := reactionItems_ok done
    exact ⟨items, rfl, all.small charged, all⟩
  · exact absurd done yields_fail

/-! The whole document. -/

theorem exactFields_object {value : Json} {required : List Bytes} {refused : Bool}
    (checked : (!exactFields value required) = refused) (kept : refused = false) :
    value.isObject = true := by
  subst kept
  simp only [exactFields, Bool.not_eq_eq_eq_not, Bool.not_false, Bool.and_eq_true] at checked
  exact checked.1.1

/-- The parts of a payload and what was read from them. -/
structure ParsedFrom (payload : Json) (found : Parsed) : Prop where
  objects : payload.isObject = true ∧ (payload.item (ascii "ends")).isObject = true ∧
    (payload.item (ascii "reactions")).isObject = true ∧
    (payload.item (ascii "popups")).isObject = true ∧
    (payload.item (ascii "loading")).isObject = true
  endsRgb : ArrayOf (feature · "payload.ends.rgb")
    ((payload.item (ascii "ends")).item (ascii "rgb")) found.endsRgb
  endsImage : ArrayOf (imageFeature · "payload.ends.image")
    ((payload.item (ascii "ends")).item (ascii "image")) found.endsImage
  reactionsRgb : ArrayOf (reaction · "payload.reactions.rgb" false false false)
    ((payload.item (ascii "reactions")).item (ascii "rgb")) found.reactionsRgb
  reactionsRgbProfiled : ArrayOf (reaction · "payload.reactions.rgb_profiled" true false false)
    ((payload.item (ascii "reactions")).item (ascii "rgb_profiled")) found.reactionsRgbProfiled
  reactionsImage : ArrayOf (reaction · "payload.reactions.image" false true true)
    ((payload.item (ascii "reactions")).item (ascii "image")) found.reactionsImage
  reactionsImageProfiled : ArrayOf (reaction · "payload.reactions.image_profiled" true true true)
    ((payload.item (ascii "reactions")).item (ascii "image_profiled")) found.reactionsImageProfiled
  popupsRgb : ArrayOf (reaction · "payload.popups.rgb" false false false)
    ((payload.item (ascii "popups")).item (ascii "rgb")) found.popupsRgb
  popupsProfiledImage : ArrayOf (reaction · "payload.popups.profiled_image" true true false)
    ((payload.item (ascii "popups")).item (ascii "profiled_image")) found.popupsProfiledImage
  loadingAllRgb : ArrayOf (feature · "payload.loading.all_rgb")
    ((payload.item (ascii "loading")).item (ascii "all_rgb")) found.loadingAllRgb
  foregroundCheck : Yields (foregroundCheck (payload.item (ascii "foreground_check")))
    found.foregroundCheck
  loop : Yields (loop (payload.item (ascii "loop"))) found.loop

theorem parsePayload_ok {payload : Json} {found : Parsed}
    (done : Yields (parsePayload payload) found) : ParsedFrom payload found := by
  unfold parsePayload at done
  obtain ⟨whole, done⟩ := yields_failIf done
  obtain ⟨_, -, done⟩ := yields_bind done
  obtain ⟨ends, done⟩ := yields_failIf done
  obtain ⟨reactions, done⟩ := yields_failIf done
  obtain ⟨popups, done⟩ := yields_failIf done
  obtain ⟨loading, done⟩ := yields_failIf done
  obtain ⟨endsRgb, r1, done⟩ := yields_bind done
  obtain ⟨endsImage, r2, done⟩ := yields_bind done
  obtain ⟨reactionsRgb, r3, done⟩ := yields_bind done
  obtain ⟨reactionsRgbProfiled, r4, done⟩ := yields_bind done
  obtain ⟨reactionsImage, r5, done⟩ := yields_bind done
  obtain ⟨reactionsImageProfiled, r6, done⟩ := yields_bind done
  obtain ⟨popupsRgb, r7, done⟩ := yields_bind done
  obtain ⟨popupsProfiledImage, r8, done⟩ := yields_bind done
  obtain ⟨loadingAllRgb, r9, done⟩ := yields_bind done
  obtain ⟨foreground, r10, done⟩ := yields_bind done
  obtain ⟨loop, r11, done⟩ := yields_bind done
  obtain rfl := yields_pure done
  exact {
    objects := ⟨exactFields_object whole rfl, exactFields_object ends rfl,
      exactFields_object reactions rfl, exactFields_object popups rfl,
      exactFields_object loading rfl⟩
    endsRgb := featureArray_ok r1
    endsImage := imageFeatureArray_ok r2
    reactionsRgb := reactionArray_ok r3
    reactionsRgbProfiled := reactionArray_ok r4
    reactionsImage := reactionArray_ok r5
    reactionsImageProfiled := reactionArray_ok r6
    popupsRgb := reactionArray_ok r7
    popupsProfiledImage := reactionArray_ok r8
    loadingAllRgb := featureArray_ok r9
    foregroundCheck := r10
    loop := r11 }

theorem reaction_sound {value : Json} {profiled image allowed : Bool} {found : CoDetectReaction}
    (done : Yields (reaction value field profiled image allowed) found) :
    SoundReaction image found := by
  obtain ⟨-, small, -, matched, profiles⟩ := reaction_ok done
  refine ⟨small, ?_, ?_⟩
  · cases profiled with
    | true =>
      obtain ⟨-, -, few, -⟩ := if_pos rfl ▸ profiles
      exact few
    | false => exact (congrArg List.length profiles).trans_lt (by decide)
  · cases image with
    | true => exact matched.sound
    | false => exact matched

theorem tentative_ok {value : Json} {found : CoDetectTentative}
    (done : Yields (tentative value) found) : value.isObject = true ∧ ∃ enabled,
      value.item (ascii "enabled") = .boolean enabled ∧
      if enabled then found.enabled = true ∧ found.repeatEachFailedCycle = true ∧
        unsignedInteger (value.item (ascii "after_failed_cycles")) =
          some found.afterFailedCycles ∧
        Yields (click (value.item (ascii "click")) "payload.loop.tentative.click" false)
          found.click ∧
        unsignedInteger (value.item (ascii "post_wait_screenshot_intervals")) =
          some found.postWaitScreenshotIntervals
      else found = {} := by
  unfold tentative at done
  obtain ⟨whole, done⟩ := yields_failIf done
  obtain ⟨enabled, read, done⟩ := yields_bind done
  simp only [Bool.or_eq_false_iff, Bool.not_eq_eq_eq_not, Bool.not_false] at whole
  refine ⟨whole.1, enabled, getBoolean_ok read, ?_⟩
  cases enabled with
  | true =>
    obtain ⟨-, done⟩ := yields_failIf done
    obtain ⟨again, -, done⟩ := yields_bind done
    obtain ⟨-, done⟩ := yields_failIf done
    obtain ⟨cycles, counted, done⟩ := yields_bind done
    obtain ⟨point, clicked, done⟩ := yields_bind done
    obtain ⟨intervals, waited, done⟩ := yields_bind done
    obtain rfl := yields_pure done
    exact ⟨rfl, rfl, integer_ok counted, clicked, integer_ok waited⟩
  | false =>
    obtain ⟨-, done⟩ := yields_failIf done
    exact (yields_pure done).symm

theorem tentative_sound {value : Json} {found : CoDetectTentative}
    (done : Yields (tentative value) found) : SoundTentative found := by
  obtain ⟨-, enabled, -, rest⟩ := tentative_ok done
  intro off
  cases enabled with
  | true => exact absurd (off.symm.trans rest.1) (by decide)
  | false => exact rest

theorem loop_ok {value : Json} {found : CoDetectLoop} (done : Yields (loop value) found) :
    value.isObject = true ∧
      value.item (ascii "skip_first_screenshot") = .boolean found.skipFirstScreenshot ∧
      unsignedInteger (value.item (ascii "timeout_ms")) = some found.timeoutMs ∧
      unsignedInteger (value.item (ascii "duplicate_click_window_ms")) =
        some found.duplicateClickWindowMs ∧
      Yields (tentative (value.item (ascii "tentative"))) found.tentative := by
  unfold loop at done
  obtain ⟨whole, done⟩ := yields_failIf done
  obtain ⟨skip, first, done⟩ := yields_bind done
  obtain ⟨timeout, second, done⟩ := yields_bind done
  obtain ⟨window, third, done⟩ := yields_bind done
  obtain ⟨tentative, fourth, done⟩ := yields_bind done
  obtain rfl := yields_pure done
  exact ⟨exactFields_object whole rfl, getBoolean_ok first, integer_ok second, integer_ok third,
    fourth⟩

theorem foregroundCheck_ok {value : Json} {found : CoDetectForegroundCheck}
    (done : Yields (foregroundCheck value) found) :
    value.isObject = true ∧ found.androidOnly = true ∧
      unsignedInteger (value.item (ascii "interval_ms")) = some found.intervalMs ∧
      unsignedInteger (value.item (ascii "idle_feature_ms")) = some found.idleFeatureMs := by
  unfold foregroundCheck at done
  obtain ⟨whole, done⟩ := yields_failIf done
  obtain ⟨android, -, done⟩ := yields_bind done
  obtain ⟨-, done⟩ := yields_failIf done
  obtain ⟨interval, second, done⟩ := yields_bind done
  obtain ⟨idle, third, done⟩ := yields_bind done
  obtain rfl := yields_pure done
  exact ⟨exactFields_object whole rfl, rfl, integer_ok second, integer_ok third⟩

theorem ParsedFrom.sound {payload : Json} {found : Parsed} (read : ParsedFrom payload found) :
    found.Sound where
  endsRgb := read.endsRgb.sound fun _ _ done => (feature_ok done).2
  endsImage := read.endsImage.sound fun _ _ done =>
    ⟨(imageFeature_ok done).1, (imageFeature_ok done).2.1.sound⟩
  reactionsRgb := read.reactionsRgb.sound fun _ _ => reaction_sound
  reactionsRgbProfiled := read.reactionsRgbProfiled.sound fun _ _ => reaction_sound
  reactionsImage := read.reactionsImage.sound fun _ _ => reaction_sound
  reactionsImageProfiled := read.reactionsImageProfiled.sound fun _ _ => reaction_sound
  popupsRgb := read.popupsRgb.sound fun _ _ => reaction_sound
  popupsProfiledImage := read.popupsProfiledImage.sound fun _ _ => reaction_sound
  loadingAllRgb := read.loadingAllRgb.sound fun _ _ done => (feature_ok done).2
  tentative := tentative_sound (loop_ok read.loop).2.2.2.2

end Baas.CoDetectDefinition
