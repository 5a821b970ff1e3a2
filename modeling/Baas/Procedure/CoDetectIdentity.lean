import Baas.Lib.PrefixCode
import Baas.Procedure.CoDetectDefinition

/-! The canonical identity of a definition as a text, and what it tells apart: the definitions that
differ in something the executor reads. -/
namespace Baas.CoDetectDefinition

open JsonText (ascii)
open PrefixCode

/-! What a builder writes. -/

/-- The builder appends `text`, or fails when it does not fit. -/
def Writes (build : CanonicalBuilder Unit) (text : Bytes) : Prop :=
  ∀ (limit : UInt64) (bytes : Bytes), bytes.length ≤ limit.toNat →
    build limit bytes = if bytes.length + text.length ≤ limit.toNat then .ok ((), bytes ++ text)
      else .error ⟨.canonicalIdentityLimitExceeded, "canonical_identity"⟩

theorem writes_append (text : Bytes) : Writes (CanonicalBuilder.append text) text := by
  intro limit bytes room
  unfold CanonicalBuilder.append
  by_cases fits : bytes.length + text.length ≤ limit.toNat
  · rw [if_neg (by omega), if_pos fits]
  · rw [if_pos (by omega), if_neg fits]

theorem writes_skip : Writes (pure ()) [] := by
  intro limit bytes room
  rw [List.length_nil, Nat.add_zero, if_pos room, List.append_nil]
  rfl

theorem writes_bind {first second : CanonicalBuilder Unit} {text text' : Bytes}
    (one : Writes first text) (two : Writes second text') :
    Writes (first >>= fun _ => second) (text ++ text') := by
  intro limit bytes room
  show (first limit bytes >>= fun result => second limit result.2) = _
  rw [one limit bytes room]
  by_cases fits : bytes.length + text.length ≤ limit.toNat
  · rw [if_pos fits]
    show second limit (bytes ++ text) = _
    rw [two limit (bytes ++ text) (by rwa [List.length_append]), List.length_append,
      List.length_append, Nat.add_assoc, List.append_assoc]
  · rw [if_neg fits, List.length_append, if_neg (by omega)]
    rfl

theorem writes_forM {α : Type} {build : α → CanonicalBuilder Unit} {code : α → Bytes}
    (each : ∀ a, Writes (build a) (code a)) (values : List α) :
    Writes (values.forM build) (values.flatMap code) := by
  induction values with
  | nil => exact writes_skip
  | cons a values ih => exact writes_bind (each a) ih

/-! The texts. -/

def numberCode (value : UInt64) : Bytes := LittleEndian.bytes 8 value.toNat

def sizeCode (value : Nat) : Bytes := numberCode (UInt64.ofNat value)

def booleanCode (value : Bool) : Bytes := [if value then 1 else 0]

def textCode (value : Bytes) : Bytes := sizeCode value.length ++ value

def clickCode (value : CoDetectClick) : Bytes :=
  numberCode value.x.toUInt32.toUInt64 ++ numberCode value.y.toUInt32.toUInt64

def matchCode (value : CoDetectImageMatch) : Bytes :=
  numberCode value.effectiveThreshold.bits ++ numberCode value.effectiveRgbDiff.toUInt64

def imageFeatureCode (value : CoDetectImageFeature) : Bytes :=
  textCode value.feature ++ matchCode value.match

def listCode {α : Type} (code : α → Bytes) (values : List α) : Bytes :=
  sizeCode values.length ++ values.flatMap code

def reactionCode (image : Bool) (value : CoDetectReaction) : Bytes :=
  listCode (fun item => textCode (coDetectProfileName item)) value.profiles ++
    (textCode value.feature ++ (clickCode value.click ++
      if image then matchCode value.imageMatch else []))

def tentativeCode (value : CoDetectTentative) : Bytes :=
  booleanCode value.enabled ++ if value.enabled then
    numberCode value.afterFailedCycles ++ (booleanCode value.repeatEachFailedCycle ++
      (clickCode value.click ++ numberCode value.postWaitScreenshotIntervals)) else []

def loopCode (value : CoDetectLoop) : Bytes :=
  booleanCode value.skipFirstScreenshot ++ (numberCode value.timeoutMs ++
    (numberCode value.duplicateClickWindowMs ++ tentativeCode value.tentative))

def foregroundCode (value : CoDetectForegroundCheck) : Bytes :=
  booleanCode value.androidOnly ++ (numberCode value.intervalMs ++ numberCode value.idleFeatureMs)

/-- The names of the format in front of everything else. -/
def domain : Bytes :=
  textCode (ascii "BAAS co_detect definition identity v2") ++ (textCode coDetectDefinitionSchema ++
    (textCode coDetectPythonCompatEngine ++ textCode coDetectProfileSource))

def arraysCode (value : Parsed) : Bytes :=
  listCode textCode value.endsRgb ++ (listCode imageFeatureCode value.endsImage ++
    (listCode (reactionCode false) value.reactionsRgb ++
    (listCode (reactionCode false) value.reactionsRgbProfiled ++
    (listCode (reactionCode true) value.reactionsImage ++
    (listCode (reactionCode true) value.reactionsImageProfiled ++
    (listCode (reactionCode false) value.popupsRgb ++
    (listCode (reactionCode true) value.popupsProfiledImage ++
    listCode textCode value.loadingAllRgb)))))))

def parsedCode (value : Parsed) : Bytes :=
  domain ++ (arraysCode value ++ (foregroundCode value.foregroundCheck ++ loopCode value.loop))

theorem writes_text (value : Bytes) : Writes (CanonicalBuilder.text value) (textCode value) :=
  writes_bind (writes_append _) (writes_append _)

theorem writes_click (value : CoDetectClick) :
    Writes (CanonicalBuilder.click value) (clickCode value) :=
  writes_bind (writes_append _) (writes_append _)

theorem writes_match (value : CoDetectImageMatch) :
    Writes (appendImageMatch value) (matchCode value) :=
  writes_bind (writes_append _) (writes_append _)

theorem writes_imageFeature (value : CoDetectImageFeature) :
    Writes (appendImageFeature value) (imageFeatureCode value) :=
  writes_bind (writes_text _) (writes_match _)

theorem writes_features (values : List Bytes) :
    Writes (appendFeatures values) (listCode textCode values) :=
  writes_bind (writes_append _) (writes_forM writes_text values)

theorem writes_imageFeatures (values : List CoDetectImageFeature) :
    Writes (appendImageFeatures values) (listCode imageFeatureCode values) :=
  writes_bind (writes_append _) (writes_forM writes_imageFeature values)

theorem writes_reaction (image : Bool) (value : CoDetectReaction) :
    Writes (appendReaction image value) (reactionCode image value) := by
  unfold appendReaction reactionCode listCode
  rw [List.append_assoc]
  refine writes_bind (writes_append _) (writes_bind (writes_forM (fun item => writes_text _) _)
    (writes_bind (writes_text _) (writes_bind (writes_click _) ?_)))
  cases image with
  | true => exact writes_match _
  | false => exact writes_skip

theorem writes_reactions (image : Bool) (values : List CoDetectReaction) :
    Writes (appendReactions values image) (listCode (reactionCode image) values) :=
  writes_bind (writes_append _) (writes_forM (writes_reaction image) values)

theorem writes_tentative (value : CoDetectTentative) :
    Writes (appendTentative value) (tentativeCode value) := by
  unfold appendTentative tentativeCode
  refine writes_bind (writes_append _) ?_
  split
  · exact writes_bind (writes_append _) (writes_bind (writes_append _)
      (writes_bind (writes_click _) (writes_append _)))
  · exact writes_skip

theorem writes_parsed (value : Parsed) : Writes (appendParsed value) (parsedCode value) := by
  unfold appendParsed parsedCode domain arraysCode foregroundCode loopCode
  simp only [List.append_assoc]
  iterate 4 refine writes_bind (writes_text _) ?_
  refine writes_bind (writes_features _) (writes_bind (writes_imageFeatures _) ?_)
  iterate 6 refine writes_bind (writes_reactions _ _) ?_
  refine writes_bind (writes_features _) ?_
  iterate 6 refine writes_bind (writes_append _) ?_
  exact writes_tentative _

/-- The canonical identity is its text, when that is within the limit. -/
theorem canonicalIdentity_iff {value : Parsed} {limit : UInt64} {bytes : Bytes} :
    canonicalIdentity value limit = .ok bytes ↔
      bytes = parsedCode value ∧ bytes.length ≤ limit.toNat := by
  unfold canonicalIdentity
  rw [writes_parsed value limit [] (Nat.zero_le _), List.length_nil, Nat.zero_add, List.nil_append]
  by_cases fits : (parsedCode value).length ≤ limit.toNat
  · rw [if_pos fits]
    constructor
    · intro done
      obtain rfl := Except.ok.inj done
      exact ⟨rfl, fits⟩
    · rintro ⟨rfl, -⟩
      rfl
  · rw [if_neg fits]
    constructor
    · rintro ⟨⟩
    · rintro ⟨rfl, room⟩
      exact absurd room fits

/-! What the executor reads. -/

/-- A threshold is the number that its bits stand for. -/
structure ExecutedMatch where
  threshold : ℚ
  rgbDiff : UInt16

def CoDetectImageMatch.executed (value : CoDetectImageMatch) : ExecutedMatch :=
  ⟨value.effectiveThreshold.value, value.effectiveRgbDiff⟩

structure ExecutedImageFeature where
  feature : Bytes
  «match» : ExecutedMatch

def CoDetectImageFeature.executed (value : CoDetectImageFeature) : ExecutedImageFeature :=
  ⟨value.feature, value.match.executed⟩

structure ExecutedReaction where
  feature : Bytes
  click : CoDetectClick
  profiles : List CoDetectProfile
  «match» : ExecutedMatch

def CoDetectReaction.executed (value : CoDetectReaction) : ExecutedReaction :=
  ⟨value.feature, value.click, value.profiles, value.imageMatch.executed⟩

structure Executed where
  endsRgb : List Bytes
  endsImage : List ExecutedImageFeature
  reactionsRgb : List ExecutedReaction
  reactionsRgbProfiled : List ExecutedReaction
  reactionsImage : List ExecutedReaction
  reactionsImageProfiled : List ExecutedReaction
  popupsRgb : List ExecutedReaction
  popupsProfiledImage : List ExecutedReaction
  loadingAllRgb : List Bytes
  foregroundCheck : CoDetectForegroundCheck
  loop : CoDetectLoop

def Parsed.executed (value : Parsed) : Executed where
  endsRgb := value.endsRgb
  endsImage := value.endsImage.map (·.executed)
  reactionsRgb := value.reactionsRgb.map (·.executed)
  reactionsRgbProfiled := value.reactionsRgbProfiled.map (·.executed)
  reactionsImage := value.reactionsImage.map (·.executed)
  reactionsImageProfiled := value.reactionsImageProfiled.map (·.executed)
  popupsRgb := value.popupsRgb.map (·.executed)
  popupsProfiledImage := value.popupsProfiledImage.map (·.executed)
  loadingAllRgb := value.loadingAllRgb
  foregroundCheck := value.foregroundCheck
  loop := value.loop

/-! What holds of everything that was parsed. -/

def Small {α : Type} (values : List α) : Prop := values.length < 2 ^ 64

/-- A threshold has no sign, not even that of zero. -/
def SoundMatch (value : CoDetectImageMatch) : Prop := value.effectiveThreshold.negative = false

structure SoundReaction (image : Bool) (value : CoDetectReaction) : Prop where
  feature : Small value.feature
  profiles : Small value.profiles
  imageMatch : if image then SoundMatch value.imageMatch else value.imageMatch = {}

def SoundTentative (value : CoDetectTentative) : Prop := value.enabled = false → value = {}

structure SoundList {α : Type} (sound : α → Prop) (values : List α) : Prop where
  small : Small values
  each : ∀ value ∈ values, sound value

structure Parsed.Sound (value : Parsed) : Prop where
  endsRgb : SoundList Small value.endsRgb
  endsImage : SoundList (fun item => Small item.feature ∧ SoundMatch item.match) value.endsImage
  reactionsRgb : SoundList (SoundReaction false) value.reactionsRgb
  reactionsRgbProfiled : SoundList (SoundReaction false) value.reactionsRgbProfiled
  reactionsImage : SoundList (SoundReaction true) value.reactionsImage
  reactionsImageProfiled : SoundList (SoundReaction true) value.reactionsImageProfiled
  popupsRgb : SoundList (SoundReaction false) value.popupsRgb
  popupsProfiledImage : SoundList (SoundReaction true) value.popupsProfiledImage
  loadingAllRgb : SoundList Small value.loadingAllRgb
  tentative : SoundTentative value.loop.tentative

/-! Each code tells what the executor reads apart. -/

theorem number_faithful : Faithful (fun _ => True) numberCode id := by
  refine faithful_fixed 8 (fun value _ => LittleEndian.bytes_length 8 _) fun a b _ _ => ?_
  constructor
  · intro same
    exact UInt64.toNat_inj.mp (LittleEndian.bytes_injective a.toNat_lt b.toNat_lt same)
  · exact fun same => congrArg numberCode same

theorem size_faithful : Faithful (fun n => n < 2 ^ 64) sizeCode id := by
  refine ((number_faithful.comap UInt64.ofNat).mono fun _ _ => trivial).review ?_
  intro a b small small'
  constructor
  · intro same
    have equal := congrArg UInt64.toNat same
    rwa [id, id, UInt64.toNat_ofNat', UInt64.toNat_ofNat', Nat.mod_eq_of_lt small,
      Nat.mod_eq_of_lt small'] at equal
  · exact fun same => congrArg UInt64.ofNat same

theorem boolean_faithful : Faithful (fun _ => True) booleanCode id :=
  faithful_fixed 1 (fun _ _ => rfl) fun a b _ _ => by cases a <;> cases b <;> decide

theorem list_faithful {α γ : Type} {sound : α → Prop} {code : α → Bytes} {view : α → γ}
    (item : Faithful sound code view) :
    Faithful (SoundList sound) (listCode code) (List.map view) :=
  (size_faithful.list item).mono fun _ both => ⟨both.small, both.each⟩

theorem text_faithful : Faithful Small textCode id := by
  have byte : Faithful (fun _ => True) (fun b : UInt8 => [b]) id :=
    faithful_fixed 1 (fun _ _ => rfl) fun a b _ _ => by simp
  intro a b rest rest' small small'
  have whole := (size_faithful.list byte) a b rest rest' ⟨small, fun _ _ => trivial⟩
    ⟨small', fun _ _ => trivial⟩
  simpa [textCode] using whole

theorem signed_faithful :
    Faithful (fun _ => True) (fun x : Int32 => numberCode x.toUInt32.toUInt64) id := by
  refine (number_faithful.comap fun x : Int32 => x.toUInt32.toUInt64).review ?_
  intro a b _ _
  constructor
  · intro same
    have equal := congrArg UInt64.toNat same
    simp only [id, UInt32.toNat_toUInt64] at equal
    exact congrArg Int32.ofUInt32 (UInt32.toNat_inj.mp equal)
  · exact fun same => congrArg (fun x : Int32 => x.toUInt32.toUInt64) same

theorem click_faithful : Faithful (fun _ => True) clickCode id :=
  ((signed_faithful.comap CoDetectClick.x).append (signed_faithful.comap CoDetectClick.y)).review
    fun a b _ _ => by cases a; cases b; simp

theorem match_faithful : Faithful SoundMatch matchCode CoDetectImageMatch.executed := by
  have parts := (number_faithful.comap fun value : CoDetectImageMatch =>
    value.effectiveThreshold.bits).append (number_faithful.comap fun value : CoDetectImageMatch =>
      value.effectiveRgbDiff.toUInt64)
  refine (parts.mono fun _ _ => trivial).review ?_
  intro a b sound sound'
  simp only [CoDetectImageMatch.executed, ExecutedMatch.mk.injEq, Prod.mk.injEq, id]
  constructor
  · rintro ⟨bits, tolerance⟩
    have threshold : a.effectiveThreshold = b.effectiveThreshold := congrArg Binary64.mk bits
    have equal := congrArg UInt64.toNat tolerance
    rw [UInt16.toNat_toUInt64, UInt16.toNat_toUInt64] at equal
    exact ⟨congrArg Binary64.value threshold, UInt16.toNat_inj.mp equal⟩
  · rintro ⟨threshold, tolerance⟩
    exact ⟨congrArg Binary64.bits (Binary64.value_injective sound sound' threshold),
      congrArg UInt16.toUInt64 tolerance⟩

theorem imageFeature_faithful :
    Faithful (fun item : CoDetectImageFeature => Small item.feature ∧ SoundMatch item.match)
      imageFeatureCode CoDetectImageFeature.executed :=
  (((text_faithful.comap CoDetectImageFeature.feature).mono fun _ both => both.1).append
    ((match_faithful.comap CoDetectImageFeature.match).mono fun _ both => both.2)).review
      fun a b _ _ => by
        simp only [CoDetectImageFeature.executed, ExecutedImageFeature.mk.injEq, Prod.mk.injEq, id]

theorem profile_names : ∀ profile, Small (coDetectProfileName profile) ∧
    ∀ profile', coDetectProfileName profile = coDetectProfileName profile' →
      profile = profile' := by
  intro profile
  constructor
  · cases profile <;> simp only [coDetectProfileName, JsonText.ascii_eq, Small] <;> decide
  · intro profile'
    cases profile <;> cases profile' <;> simp only [coDetectProfileName, JsonText.ascii_eq] <;>
      decide

theorem profile_faithful : Faithful (fun _ => True)
    (fun item => textCode (coDetectProfileName item)) id :=
  ((text_faithful.comap coDetectProfileName).mono fun item _ => (profile_names item).1).review
    fun a b _ _ => ⟨fun same => (profile_names a).2 b same, fun same => congrArg coDetectProfileName same⟩

theorem reaction_faithful (image : Bool) :
    Faithful (SoundReaction image) (reactionCode image) CoDetectReaction.executed := by
  have profiles := ((list_faithful profile_faithful).comap CoDetectReaction.profiles).mono
    (Q := SoundReaction image) fun _ sound => ⟨sound.profiles, fun _ _ => trivial⟩
  have feature := (text_faithful.comap CoDetectReaction.feature).mono
    (Q := SoundReaction image) fun _ sound => sound.feature
  have click := (click_faithful.comap CoDetectReaction.click).mono
    (Q := SoundReaction image) fun _ _ => trivial
  cases image with
  | true =>
    have found := (match_faithful.comap CoDetectReaction.imageMatch).mono
      (Q := SoundReaction true) fun _ sound => sound.imageMatch
    refine (profiles.append (feature.append (click.append found))).review fun a b _ _ => ?_
    simp only [CoDetectReaction.executed, ExecutedReaction.mk.injEq, Prod.mk.injEq, id,
      List.map_id]
    tauto
  | false =>
    refine (profiles.append (feature.append (click.append faithful_nil))).review
      fun a b sound sound' => ?_
    have plain : a.imageMatch = {} := sound.imageMatch
    have plain' : b.imageMatch = {} := sound'.imageMatch
    simp only [CoDetectReaction.executed, ExecutedReaction.mk.injEq, Prod.mk.injEq, id,
      List.map_id, plain, plain']
    tauto

theorem tentative_faithful : Faithful SoundTentative tentativeCode id := by
  have tag := (boolean_faithful.comap CoDetectTentative.enabled).mono
    (Q := SoundTentative) fun _ _ => trivial
  have parts := (number_faithful.comap CoDetectTentative.afterFailedCycles).append
    ((boolean_faithful.comap CoDetectTentative.repeatEachFailedCycle).append
      ((click_faithful.comap CoDetectTentative.click).append
        (number_faithful.comap CoDetectTentative.postWaitScreenshotIntervals)))
  have rest := parts.mono (Q := fun value => SoundTentative value ∧ value.enabled)
    fun _ _ => trivial
  refine (tag.guarded rest fun a b sound sound' off off' => ?_).review fun a b _ _ => ?_
  · rw [sound off, sound' off']
  · obtain ⟨enabled, cycles, again, click, intervals⟩ := a
    simp only [id, Prod.mk.injEq]
    constructor
    · rintro ⟨rfl, rfl, rfl, rfl, rfl⟩
      rfl
    · rintro rfl
      exact ⟨rfl, rfl, rfl, rfl, rfl⟩

theorem loop_faithful :
    Faithful (fun value : CoDetectLoop => SoundTentative value.tentative) loopCode id := by
  have numbers (project : CoDetectLoop → UInt64) := (number_faithful.comap project).mono
    (Q := fun value : CoDetectLoop => SoundTentative value.tentative) fun _ _ => trivial
  have skip := (boolean_faithful.comap CoDetectLoop.skipFirstScreenshot).mono
    (Q := fun value : CoDetectLoop => SoundTentative value.tentative) fun _ _ => trivial
  refine (skip.append ((numbers CoDetectLoop.timeoutMs).append
    ((numbers CoDetectLoop.duplicateClickWindowMs).append
      (tentative_faithful.comap CoDetectLoop.tentative)))).review fun a b _ _ => ?_
  cases a
  cases b
  simp

theorem foreground_faithful : Faithful (fun _ => True) foregroundCode id :=
  ((boolean_faithful.comap CoDetectForegroundCheck.androidOnly).append
    ((number_faithful.comap CoDetectForegroundCheck.intervalMs).append
      (number_faithful.comap CoDetectForegroundCheck.idleFeatureMs))).review
        fun a b _ _ => by cases a; cases b; simp

theorem parsed_faithful : Faithful Parsed.Sound parsedCode Parsed.executed := by
  have texts (project : Parsed → List Bytes)
      (sound : ∀ value : Parsed, value.Sound → SoundList Small (project value)) :=
    ((list_faithful text_faithful).comap project).mono sound
  have reactions (image : Bool) (project : Parsed → List CoDetectReaction)
      (sound : ∀ value : Parsed, value.Sound → SoundList (SoundReaction image) (project value)) :=
    ((list_faithful (reaction_faithful image)).comap project).mono sound
  have images := ((list_faithful imageFeature_faithful).comap Parsed.endsImage).mono
    fun _ sound => Parsed.Sound.endsImage sound
  have arrays := (texts _ fun _ => Parsed.Sound.endsRgb).append (images.append
    ((reactions false _ fun _ => Parsed.Sound.reactionsRgb).append
    ((reactions false _ fun _ => Parsed.Sound.reactionsRgbProfiled).append
    ((reactions true _ fun _ => Parsed.Sound.reactionsImage).append
    ((reactions true _ fun _ => Parsed.Sound.reactionsImageProfiled).append
    ((reactions false _ fun _ => Parsed.Sound.popupsRgb).append
    ((reactions true _ fun _ => Parsed.Sound.popupsProfiledImage).append
    (texts _ fun _ => Parsed.Sound.loadingAllRgb))))))))
  have foreground := (foreground_faithful.comap Parsed.foregroundCheck).mono
    (Q := Parsed.Sound) fun _ _ => trivial
  have loop := (loop_faithful.comap Parsed.loop).mono fun _ sound => Parsed.Sound.tentative sound
  refine ((arrays.append (foreground.append loop)).after domain).review fun a b _ _ => ?_
  simp only [Parsed.executed, Executed.mk.injEq, Prod.mk.injEq, id, List.map_id]
  tauto

end Baas.CoDetectDefinition
