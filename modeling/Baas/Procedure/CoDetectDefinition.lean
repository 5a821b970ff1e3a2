import Baas.Lib.Binary64
import Baas.Lib.ByteOrder
import Baas.Lib.LittleEndian
import Baas.Lib.JsonText
import Baas.Repository.Sha256

/-! `load_co_detect_python_compat_definition`: a definition is read from strict JSON and its
canonical identity is built. -/
namespace Baas.CoDetectDefinition

open JsonText (ascii)

abbrev Bytes := List UInt8

/-! Documents. -/

/-- A JSON value as the library holds it. The members of an object are in no particular order. -/
inductive Json
  | null
  | boolean (b : Bool)
  | unsigned (n : UInt64)
  | integer (n : Int64)
  | float (x : Binary64)
  | string (text : Bytes)
  | array (items : List Json)
  | object (members : List (Bytes × Json))

namespace Json

def lookup (key : Bytes) : Json → Option Json
  | .object members => (members.find? (fun member => member.1 = key)).map (·.2)
  | _ => none

def contains (value : Json) (key : Bytes) : Bool := (value.lookup key).isSome

/-- `operator[]`. -/
def item (value : Json) (key : Bytes) : Json := (value.lookup key).getD .null

def isObject : Json → Bool
  | .object _ => true
  | _ => false

def isNumber : Json → Bool
  | .unsigned _ | .integer _ | .float _ => true
  | _ => false

def size : Json → Nat
  | .null => 0
  | .array items => items.length
  | .object members => members.length
  | _ => 1

/-- `get<double>` on a number. -/
def double : Json → Binary64
  | .unsigned n => .ofNat n.toNat
  | .integer n => .ofInt n.toInt
  | .float x => x
  | _ => ⟨0⟩

end Json

/-! `parse_strict_json`. -/

inductive StrictJsonError
  | invalidLimits | invalidUtf8 | invalidSyntax | duplicateKey | depthLimitExceeded
  | nodeLimitExceeded | stringLimitExceeded | internalFailure
deriving DecidableEq

structure StrictJsonLimits where
  maxDepth : UInt64 := 32
  maxNodes : UInt64 := 65536
  maxStringBytes : UInt64 := 4096

inductive Event
  | objectStart | objectEnd | arrayStart | arrayEnd
  | key (text : Bytes)
  | value (value : Json)

/-- What `Json::parse` does with a text: the calls of the callback with their depths, and the
document when the text is one. -/
abbrev Parser := Bytes → List (Nat × Event) × Option Json

def validUtf8 : Bytes → Bool
  | [] => true
  | lead :: rest =>
    if lead ≤ 0x7f then validUtf8 rest
    else
      let length := if 0xc2 ≤ lead ∧ lead ≤ 0xdf then 2 else if 0xe0 ≤ lead ∧ lead ≤ 0xef then 3
        else if 0xf0 ≤ lead ∧ lead ≤ 0xf4 then 4 else 0
      let first := if length = 2 then lead.toNat &&& 0x1f else if length = 3 then lead.toNat &&& 0x0f
        else lead.toNat &&& 0x07
      let continuation := rest.take (length - 1)
      let code := continuation.foldl (fun code c => code <<< 6 ||| (c.toNat &&& 0x3f)) first
      if length = 0 || continuation.length < length - 1 then false
      else if continuation.any (fun c => c &&& 0xc0 ≠ 0x80) then false
      else if (length = 2 ∧ code < 0x80) ∨ (length = 3 ∧ code < 0x800) ∨
          (length = 4 ∧ code < 0x10000) ∨ code > 0x10ffff ∨ (0xd800 ≤ code ∧ code ≤ 0xdfff) then
        false
      else validUtf8 (rest.drop (length - 1))
termination_by text => text.length
decreasing_by all_goals simp only [List.length_cons, List.length_drop]; omega

/-- What the callback keeps: the nodes so far, whether a name was met twice, and the names of the
open objects. -/
structure Structure where
  nodes : Nat := 0
  duplicate : Bool := false
  objects : List (List Bytes) := []

def tooLong (limits : StrictJsonLimits) : Event → Bool
  | .key text => text.length > limits.maxStringBytes.toNat
  | .value (.string text) => text.length > limits.maxStringBytes.toNat
  | _ => false

def isNode : Event → Bool
  | .objectStart | .arrayStart | .value _ => true
  | _ => false

def callback (limits : StrictJsonLimits) (state : Structure) (call : Nat × Event) :
    Except StrictJsonError Structure := do
  let (depth, event) := call
  if depth > limits.maxDepth.toNat then throw .depthLimitExceeded
  if tooLong limits event then throw .stringLimitExceeded
  let nodes := if isNode event then state.nodes + 1 else state.nodes
  if nodes > limits.maxNodes.toNat then throw .nodeLimitExceeded
  match event, state.objects with
  | .objectStart, objects => pure { state with nodes, objects := [] :: objects }
  | .key _, [] => pure { state with nodes, duplicate := true }
  | .key text, names :: objects =>
    if text ∈ names then pure { state with nodes, duplicate := true }
    else pure { state with nodes, objects := (text :: names) :: objects }
  | .objectEnd, [] => throw .internalFailure
  | .objectEnd, _ :: objects => pure { state with nodes, objects }
  | _, _ => pure { state with nodes }

def parseStrictJson (parser : Parser) (text : Bytes) (limits : StrictJsonLimits) :
    Except StrictJsonError Json := do
  if limits.maxDepth = 0 ∨ limits.maxNodes = 0 ∨ limits.maxStringBytes = 0 then
    throw .invalidLimits
  if !validUtf8 text then throw .invalidUtf8
  let (calls, document) := parser text
  let state ← calls.foldlM (callback limits) {}
  let some result := document | throw .invalidSyntax
  if state.duplicate then throw .duplicateKey
  if state.objects ≠ [] then throw .internalFailure
  pure result

/-! Limits and the work that they allow. -/

inductive CoDetectDefinitionError
  | invalidLimits | definitionTooLarge | invalidUtf8 | invalidJson | duplicateJsonKey
  | jsonDepthLimitExceeded | jsonNodeLimitExceeded | stringLimitExceeded | workLimitExceeded
  | invalidRoot | unsupportedSchema | unsupportedEngine | invalidPayload | invalidProfileSource
  | invalidFeature | duplicateFeature | arrayLimitExceeded | invalidReaction | invalidProfile
  | duplicateProfile | invalidClick | invalidForegroundCheck | invalidLoop | invalidTentative
  | canonicalIdentityLimitExceeded | internalFailure | invalidImageMatch
deriving DecidableEq

structure LoadFailure where
  error : CoDetectDefinitionError
  field : String := ""
deriving DecidableEq

structure CoDetectDefinitionLimits where
  maxDefinitionBytes : UInt64 := 1024 * 1024
  maxJsonDepth : UInt64 := 24
  maxJsonNodes : UInt64 := 65536
  maxStringBytes : UInt64 := 1024
  maxTotalStringBytes : UInt64 := 4 * 1024 * 1024
  maxItemsPerArray : UInt64 := 4096
  maxTotalItems : UInt64 := 32768
  maxWork : UInt64 := 8 * 1024 * 1024
  maxCanonicalIdentityBytes : UInt64 := 8 * 1024 * 1024

def validLimits (limits : CoDetectDefinitionLimits) : Bool :=
  limits.maxDefinitionBytes ≠ 0 && limits.maxJsonDepth ≠ 0 && limits.maxJsonNodes ≠ 0 &&
    limits.maxStringBytes ≠ 0 && limits.maxTotalStringBytes ≠ 0 && limits.maxItemsPerArray ≠ 0 &&
    limits.maxTotalItems ≠ 0 && limits.maxWork ≠ 0 && limits.maxCanonicalIdentityBytes ≠ 0

structure Budget where
  work : UInt64
  strings : UInt64
  items : UInt64
  perArray : UInt64

def Budget.new (limits : CoDetectDefinitionLimits) : Budget :=
  ⟨limits.maxWork, limits.maxTotalStringBytes, limits.maxTotalItems, limits.maxItemsPerArray⟩

abbrev Checked := StateT Budget (Except LoadFailure)

def fail {α : Type} (error : CoDetectDefinitionError) (field : String) : Checked α :=
  fun _ => .error ⟨error, field⟩

def failIf (refused : Bool) (error : CoDetectDefinitionError) (field : String) : Checked Unit :=
  if refused then fail error field else pure ()

def charge (remaining : UInt64) (amount : Nat) (error : CoDetectDefinitionError)
    (field : String) : Except LoadFailure UInt64 :=
  if amount > remaining.toNat then .error ⟨error, field⟩
  else .ok (remaining - UInt64.ofNat amount)

def chargeArray (size : Nat) (field : String) : Checked Unit := fun budget =>
  if size > budget.perArray.toNat then .error ⟨.arrayLimitExceeded, field⟩
  else do
    let items ← charge budget.items size .arrayLimitExceeded field
    let work ← charge budget.work (size + 1) .workLimitExceeded field
    pure ((), { budget with items, work })

def chargeString (text : Bytes) (field : String) : Checked Unit := fun budget => do
  let strings ← charge budget.strings text.length .stringLimitExceeded field
  let work ← charge budget.work (text.length + 1) .workLimitExceeded field
  pure ((), { budget with strings, work })

/-! Fields. -/

def exactFields (object : Json) (required : List Bytes) : Bool :=
  object.isObject && object.size = required.length && required.all (object.contains ·)

def logicalFeatureId (value : Bytes) : Bool :=
  !value.isEmpty && !value.any (fun byte => byte ≤ 0x1f || byte = 0x7f)

def unsignedInteger : Json → Option UInt64
  | .unsigned n => some n
  | .integer n => if n.toInt < 0 then none else some (UInt64.ofNat n.toInt.toNat)
  | _ => none

def integer (value : Json) (positive : Bool) (error : CoDetectDefinitionError) (field : String) :
    Checked UInt64 :=
  match unsignedInteger value with
  | some result => do
    failIf (positive && result = 0) error field
    pure result
  | none => fail error field

def signedInteger : Json → Option Int
  | .unsigned n => if n.toNat > 2 ^ 31 - 1 then none else some n.toNat
  | .integer n => some n.toInt
  | _ => none

structure CoDetectClick where
  x : Int32 := 0
  y : Int32 := 0
deriving DecidableEq

def click (value : Json) (field : String) (allowMatchOnly : Bool) : Checked CoDetectClick :=
  match value with
  | .array [first, second] =>
    match signedInteger first, signedInteger second with
    | some x, some y => do
      failIf (x < -2 ^ 31 || y < -2 ^ 31 || (!allowMatchOnly && (x < 0 || y < 0)) ||
        (x ≥ 0 && x > 1280) || (y ≥ 0 && y > 720)) .invalidClick field
      pure ⟨Int32.ofInt x, Int32.ofInt y⟩
    | _, _ => fail .invalidClick field
  | _ => fail .invalidClick field

structure CoDetectImageMatch where
  threshold : Option Binary64 := none
  rgbDiff : Option UInt16 := none
deriving DecidableEq

/-- `0.8`. -/
def defaultThreshold : Binary64 := ⟨0x3FE999999999999A⟩

def CoDetectImageMatch.effectiveThreshold (value : CoDetectImageMatch) : Binary64 :=
  value.threshold.getD defaultThreshold

def CoDetectImageMatch.effectiveRgbDiff (value : CoDetectImageMatch) : UInt16 :=
  value.rgbDiff.getD 20

/-- The number `1.0`. -/
def one : Binary64 := ⟨0x3FF0000000000000⟩

def imageThreshold (value : Json) (field : String) : Checked Binary64 := do
  failIf (!value.isNumber) .invalidImageMatch field
  let threshold := value.double
  failIf (!threshold.finite || threshold.order < 0 || threshold.order > one.order)
    .invalidImageMatch field
  -- Zero loses its sign.
  pure (if threshold.order = 0 then ⟨0⟩ else threshold)

def imageRgbDiff (value : Json) (field : String) : Checked UInt16 :=
  match unsignedInteger value with
  | some rgbDiff => do
    failIf (rgbDiff > 255) .invalidImageMatch field
    pure rgbDiff.toUInt16
  | none => fail .invalidImageMatch field

def optionalThreshold (value : Json) (field : String) : Checked (Option Binary64) :=
  match value.lookup (ascii "threshold") with
  | some written => do
    let threshold ← imageThreshold written field
    pure (some threshold)
  | none => pure none

def optionalRgbDiff (value : Json) (threshold : Option Binary64) (field : String) :
    Checked (Option UInt16) :=
  match value.lookup (ascii "rgb_diff") with
  | some written => do
    failIf threshold.isNone .invalidImageMatch field
    let rgbDiff ← imageRgbDiff written field
    pure (some rgbDiff)
  | none => pure none

def imageMatch (value : Json) (field : String) : Checked CoDetectImageMatch := do
  let threshold ← optionalThreshold value field
  let rgbDiff ← optionalRgbDiff value threshold field
  pure ⟨threshold, rgbDiff⟩

inductive CoDetectProfile
  | cn | jp | globalEnUs | globalZhTw | globalKoKr
deriving DecidableEq

def coDetectProfileName : CoDetectProfile → Bytes
  | .cn => ascii "CN"
  | .jp => ascii "JP"
  | .globalEnUs => ascii "Global_en-us"
  | .globalZhTw => ascii "Global_zh-tw"
  | .globalKoKr => ascii "Global_ko-kr"

def profile (value : Bytes) (field : String) : Checked CoDetectProfile :=
  if value = ascii "CN" then pure .cn
  else if value = ascii "JP" then pure .jp
  else if value = ascii "Global_en-us" then pure .globalEnUs
  else if value = ascii "Global_zh-tw" then pure .globalZhTw
  else if value = ascii "Global_ko-kr" then pure .globalKoKr
  else fail .invalidProfile field

def feature (value : Json) (field : String) : Checked Bytes :=
  match value with
  | .string text => do
    chargeString text field
    failIf (!logicalFeatureId text) .invalidFeature field
    pure text
  | _ => fail .invalidFeature field

/-- The items of an array one after the other. No two of them may have the same `key`. -/
def distinctItems {α κ : Type} [DecidableEq κ] (read : Json → Checked α) (key : α → κ)
    (error : CoDetectDefinitionError) (field : String) : List Json → List κ → Checked (List α)
  | [], _ => pure []
  | item :: items, seen => do
    let parsed ← read item
    failIf (key parsed ∈ seen) error field
    let rest ← distinctItems read key error field items (key parsed :: seen)
    pure (parsed :: rest)

def featureArray (value : Json) (field : String) (requireNonempty : Bool) : Checked (List Bytes) :=
  match value with
  | .array items => do
    failIf (requireNonempty && items.isEmpty) .invalidFeature field
    chargeArray items.length field
    distinctItems (feature · field) id .duplicateFeature field items []
  | _ => fail .invalidFeature field

structure CoDetectImageFeature where
  feature : Bytes
  «match» : CoDetectImageMatch
deriving DecidableEq

def imageFeature (value : Json) (field : String) : Checked CoDetectImageFeature :=
  match value with
  | .string text => do
    let feature ← feature (.string text) field
    pure ⟨feature, {}⟩
  | _ => do
    failIf (!value.isObject || !value.contains (ascii "feature")) .invalidImageMatch field
    let hasThreshold := value.contains (ascii "threshold")
    let hasRgbDiff := value.contains (ascii "rgb_diff")
    failIf (value.size ≠ 1 + hasThreshold.toNat + hasRgbDiff.toNat ||
      (hasRgbDiff && !hasThreshold)) .invalidImageMatch field
    let feature ← feature (value.item (ascii "feature")) field
    let imageMatch ← imageMatch value field
    pure ⟨feature, imageMatch⟩

def imageFeatureArray (value : Json) (field : String) : Checked (List CoDetectImageFeature) :=
  match value with
  | .array items => do
    chargeArray items.length field
    distinctItems (imageFeature · field) (·.feature) .duplicateFeature field items []
  | _ => fail .invalidImageMatch field

structure CoDetectReaction where
  feature : Bytes
  click : CoDetectClick
  profiles : List CoDetectProfile := []
  imageMatch : CoDetectImageMatch := {}
deriving DecidableEq

def profileItem (value : Json) (field : String) : Checked CoDetectProfile :=
  match value with
  | .string name => do
    chargeString name field
    profile name field
  | _ => fail .invalidProfile field

def profileArray (value : Json) (field : String) : Checked (List CoDetectProfile) :=
  match value with
  | .array items => do
    failIf items.isEmpty .invalidProfile field
    chargeArray items.length field
    distinctItems (profileItem · field) id .duplicateProfile field items []
  | _ => fail .invalidProfile field

def optionalMatch (image : Bool) (value : Json) (field : String) : Checked CoDetectImageMatch :=
  if image then imageMatch value field else pure {}

def optionalProfiles (profiled : Bool) (value : Json) (field : String) :
    Checked (List CoDetectProfile) :=
  if profiled then profileArray (value.item (ascii "profiles")) field else pure []

def reaction (value : Json) (field : String) (profiled image allowImageOverride : Bool) :
    Checked CoDetectReaction := do
  let hasThreshold := value.isObject && value.contains (ascii "threshold")
  let hasRgbDiff := value.isObject && value.contains (ascii "rgb_diff")
  let baseSize := if profiled then 3 else 2
  let closed := value.isObject && value.contains (ascii "feature") &&
    value.contains (ascii "click") && (!profiled || value.contains (ascii "profiles")) &&
    value.size = baseSize + hasThreshold.toNat + hasRgbDiff.toNat &&
    (allowImageOverride || (!hasThreshold && !hasRgbDiff)) && (!hasRgbDiff || hasThreshold)
  failIf (!closed) .invalidReaction field
  let feature ← feature (value.item (ascii "feature")) field
  let click ← click (value.item (ascii "click")) field true
  let imageMatch ← optionalMatch image value field
  let profiles ← optionalProfiles profiled value field
  pure ⟨feature, click, profiles, imageMatch⟩

/-- The items of an array one after the other. -/
def reactionItems (field : String) (profiled image allowImageOverride : Bool) :
    List Json → Checked (List CoDetectReaction)
  | [] => pure []
  | item :: items => do
    let parsed ← reaction item field profiled image allowImageOverride
    let rest ← reactionItems field profiled image allowImageOverride items
    pure (parsed :: rest)

def reactionArray (value : Json) (field : String) (profiled image allowImageOverride : Bool) :
    Checked (List CoDetectReaction) :=
  match value with
  | .array items => do
    chargeArray items.length field
    reactionItems field profiled image allowImageOverride items
  | _ => fail .invalidReaction field

structure CoDetectForegroundCheck where
  androidOnly : Bool := false
  intervalMs : UInt64 := 0
  idleFeatureMs : UInt64 := 0
deriving DecidableEq

structure CoDetectTentative where
  enabled : Bool := false
  afterFailedCycles : UInt64 := 0
  repeatEachFailedCycle : Bool := false
  click : CoDetectClick := {}
  postWaitScreenshotIntervals : UInt64 := 0
deriving DecidableEq

structure CoDetectLoop where
  skipFirstScreenshot : Bool := false
  timeoutMs : UInt64 := 0
  duplicateClickWindowMs : UInt64 := 0
  tentative : CoDetectTentative := {}
deriving DecidableEq

structure Parsed where
  endsRgb : List Bytes
  endsImage : List CoDetectImageFeature
  reactionsRgb : List CoDetectReaction
  reactionsRgbProfiled : List CoDetectReaction
  reactionsImage : List CoDetectReaction
  reactionsImageProfiled : List CoDetectReaction
  popupsRgb : List CoDetectReaction
  popupsProfiledImage : List CoDetectReaction
  loadingAllRgb : List Bytes
  foregroundCheck : CoDetectForegroundCheck
  loop : CoDetectLoop
deriving DecidableEq

def coDetectProfileSource : Bytes := ascii "device.server-and-locale/v1"

/-- `is_boolean` and `get<bool>`. -/
def getBoolean (value : Json) (error : CoDetectDefinitionError) (field : String) : Checked Bool :=
  match value with
  | .boolean b => pure b
  | _ => fail error field

def foregroundCheck (foreground : Json) : Checked CoDetectForegroundCheck := do
  failIf (!exactFields foreground
    [ascii "android_only", ascii "interval_ms", ascii "idle_feature_ms"])
    .invalidForegroundCheck "payload.foreground_check"
  let androidOnly ← getBoolean (foreground.item (ascii "android_only")) .invalidForegroundCheck
    "payload.foreground_check"
  failIf (!androidOnly) .invalidForegroundCheck "payload.foreground_check"
  let intervalMs ← integer (foreground.item (ascii "interval_ms")) true .invalidForegroundCheck
    "payload.foreground_check.interval_ms"
  let idleFeatureMs ← integer (foreground.item (ascii "idle_feature_ms")) true
    .invalidForegroundCheck "payload.foreground_check.idle_feature_ms"
  pure ⟨true, intervalMs, idleFeatureMs⟩

def tentative (value : Json) : Checked CoDetectTentative := do
  failIf (!value.isObject || !value.contains (ascii "enabled")) .invalidTentative
    "payload.loop.tentative"
  let enabled ← getBoolean (value.item (ascii "enabled")) .invalidTentative "payload.loop.tentative"
  if enabled then do
    failIf (!exactFields value [ascii "enabled", ascii "after_failed_cycles",
      ascii "repeat_each_failed_cycle", ascii "click", ascii "post_wait_screenshot_intervals"])
      .invalidTentative "payload.loop.tentative"
    let repeatEach ← getBoolean (value.item (ascii "repeat_each_failed_cycle")) .invalidTentative
      "payload.loop.tentative"
    failIf (!repeatEach) .invalidTentative "payload.loop.tentative"
    let afterFailedCycles ← integer (value.item (ascii "after_failed_cycles")) true
      .invalidTentative "payload.loop.tentative.after_failed_cycles"
    let click ← click (value.item (ascii "click")) "payload.loop.tentative.click" false
    let intervals ← integer (value.item (ascii "post_wait_screenshot_intervals")) true
      .invalidTentative "payload.loop.tentative.post_wait_screenshot_intervals"
    pure ⟨true, afterFailedCycles, true, click, intervals⟩
  else do
    failIf (!exactFields value [ascii "enabled"]) .invalidTentative "payload.loop.tentative"
    pure {}

def loop (value : Json) : Checked CoDetectLoop := do
  failIf (!exactFields value [ascii "skip_first_screenshot", ascii "timeout_ms",
    ascii "duplicate_click_window_ms", ascii "tentative"]) .invalidLoop "payload.loop"
  let skipFirstScreenshot ← getBoolean (value.item (ascii "skip_first_screenshot")) .invalidLoop
    "payload.loop"
  let timeoutMs ← integer (value.item (ascii "timeout_ms")) true .invalidLoop
    "payload.loop.timeout_ms"
  let duplicateClickWindowMs ← integer (value.item (ascii "duplicate_click_window_ms")) false
    .invalidLoop "payload.loop.duplicate_click_window_ms"
  let tentative ← tentative (value.item (ascii "tentative"))
  pure ⟨skipFirstScreenshot, timeoutMs, duplicateClickWindowMs, tentative⟩

def profileSource (value : Json) : Checked Unit :=
  match value with
  | .string text => do
    failIf (text ≠ coDetectProfileSource) .invalidProfileSource "payload.profile_source"
    chargeString text "payload.profile_source"
  | _ => fail .invalidProfileSource "payload.profile_source"

def parsePayload (payload : Json) : Checked Parsed := do
  failIf (!exactFields payload [ascii "profile_source", ascii "ends", ascii "reactions",
    ascii "popups", ascii "loading", ascii "foreground_check", ascii "loop"])
    .invalidPayload "payload"
  profileSource (payload.item (ascii "profile_source"))
  let ends := payload.item (ascii "ends")
  failIf (!exactFields ends [ascii "rgb", ascii "image"]) .invalidPayload "payload.ends"
  let reactions := payload.item (ascii "reactions")
  failIf (!exactFields reactions [ascii "rgb", ascii "rgb_profiled", ascii "image",
    ascii "image_profiled"]) .invalidPayload "payload.reactions"
  let popups := payload.item (ascii "popups")
  failIf (!exactFields popups [ascii "rgb", ascii "profiled_image"]) .invalidPayload
    "payload.popups"
  let loading := payload.item (ascii "loading")
  failIf (!exactFields loading [ascii "all_rgb"]) .invalidPayload "payload.loading"
  let endsRgb ← featureArray (ends.item (ascii "rgb")) "payload.ends.rgb" false
  let endsImage ← imageFeatureArray (ends.item (ascii "image")) "payload.ends.image"
  let reactionsRgb ← reactionArray (reactions.item (ascii "rgb")) "payload.reactions.rgb"
    false false false
  let reactionsRgbProfiled ← reactionArray (reactions.item (ascii "rgb_profiled"))
    "payload.reactions.rgb_profiled" true false false
  let reactionsImage ← reactionArray (reactions.item (ascii "image")) "payload.reactions.image"
    false true true
  let reactionsImageProfiled ← reactionArray (reactions.item (ascii "image_profiled"))
    "payload.reactions.image_profiled" true true true
  let popupsRgb ← reactionArray (popups.item (ascii "rgb")) "payload.popups.rgb" false false false
  let popupsProfiledImage ← reactionArray (popups.item (ascii "profiled_image"))
    "payload.popups.profiled_image" true true false
  let loadingAllRgb ← featureArray (loading.item (ascii "all_rgb")) "payload.loading.all_rgb" true
  let foregroundCheck ← foregroundCheck (payload.item (ascii "foreground_check"))
  let loop ← loop (payload.item (ascii "loop"))
  pure ⟨endsRgb, endsImage, reactionsRgb, reactionsRgbProfiled, reactionsImage,
    reactionsImageProfiled, popupsRgb, popupsProfiledImage, loadingAllRgb, foregroundCheck, loop⟩

/-! The canonical identity. -/

/-- It has a limit and the bytes so far. -/
abbrev CanonicalBuilder := ReaderT UInt64 (StateT Bytes (Except LoadFailure))

namespace CanonicalBuilder

/-- `reserve` and the bytes that it was for. -/
def append (text : Bytes) : CanonicalBuilder Unit := fun limit bytes =>
  if text.length > limit.toNat - bytes.length then
    .error ⟨.canonicalIdentityLimitExceeded, "canonical_identity"⟩
  else .ok ((), bytes ++ text)

def boolean (value : Bool) : CanonicalBuilder Unit := append [if value then 1 else 0]

def number (value : UInt64) : CanonicalBuilder Unit := append (LittleEndian.bytes 8 value.toNat)

def size (value : Nat) : CanonicalBuilder Unit := number (UInt64.ofNat value)

def text (value : Bytes) : CanonicalBuilder Unit := do
  size value.length
  append value

def signedNumber (value : Int32) : CanonicalBuilder Unit := number value.toUInt32.toUInt64

def click (value : CoDetectClick) : CanonicalBuilder Unit := do
  signedNumber value.x
  signedNumber value.y

end CanonicalBuilder

open CanonicalBuilder (boolean number size text)

def appendFeatures (values : List Bytes) : CanonicalBuilder Unit := do
  size values.length
  values.forM text

def appendImageMatch (value : CoDetectImageMatch) : CanonicalBuilder Unit := do
  number value.effectiveThreshold.bits
  number value.effectiveRgbDiff.toUInt64

def appendImageFeature (value : CoDetectImageFeature) : CanonicalBuilder Unit := do
  text value.feature
  appendImageMatch value.match

def appendImageFeatures (values : List CoDetectImageFeature) : CanonicalBuilder Unit := do
  size values.length
  values.forM appendImageFeature

def appendReaction (image : Bool) (value : CoDetectReaction) : CanonicalBuilder Unit := do
  size value.profiles.length
  value.profiles.forM fun item => text (coDetectProfileName item)
  text value.feature
  CanonicalBuilder.click value.click
  if image then appendImageMatch value.imageMatch

def appendReactions (values : List CoDetectReaction) (image : Bool) : CanonicalBuilder Unit := do
  size values.length
  values.forM (appendReaction image)

def coDetectDefinitionSchema : Bytes := ascii "baas.procedure-definition/v1"

def coDetectPythonCompatEngine : Bytes := ascii "co_detect.python-compat/v1"

def appendTentative (value : CoDetectTentative) : CanonicalBuilder Unit := do
  boolean value.enabled
  if value.enabled then
    number value.afterFailedCycles
    boolean value.repeatEachFailedCycle
    CanonicalBuilder.click value.click
    number value.postWaitScreenshotIntervals

def appendParsed (value : Parsed) : CanonicalBuilder Unit := do
  text (ascii "BAAS co_detect definition identity v2")
  text coDetectDefinitionSchema
  text coDetectPythonCompatEngine
  text coDetectProfileSource
  appendFeatures value.endsRgb
  appendImageFeatures value.endsImage
  appendReactions value.reactionsRgb false
  appendReactions value.reactionsRgbProfiled false
  appendReactions value.reactionsImage true
  appendReactions value.reactionsImageProfiled true
  appendReactions value.popupsRgb false
  appendReactions value.popupsProfiledImage true
  appendFeatures value.loadingAllRgb
  boolean value.foregroundCheck.androidOnly
  number value.foregroundCheck.intervalMs
  number value.foregroundCheck.idleFeatureMs
  boolean value.loop.skipFirstScreenshot
  number value.loop.timeoutMs
  number value.loop.duplicateClickWindowMs
  appendTentative value.loop.tentative

def canonicalIdentity (value : Parsed) (limit : UInt64) : Except LoadFailure Bytes := do
  let (_, bytes) ← appendParsed value limit []
  pure bytes

/-! Loading. -/

def mapJsonError : StrictJsonError → CoDetectDefinitionError
  | .invalidLimits => .invalidLimits
  | .invalidUtf8 => .invalidUtf8
  | .invalidSyntax => .invalidJson
  | .duplicateKey => .duplicateJsonKey
  | .depthLimitExceeded => .jsonDepthLimitExceeded
  | .nodeLimitExceeded => .jsonNodeLimitExceeded
  | .stringLimitExceeded => .stringLimitExceeded
  | .internalFailure => .internalFailure

structure CoDetectPythonCompatDefinition where
  source : Bytes
  sourceSha256 : Bytes
  canonical : Bytes
  canonicalSha256 : Bytes
  parsed : Parsed

def sha256Hex (bytes : Bytes) : Bytes := Digest.hex (Digest.digest Digest.snapshot [bytes])

/-- `is_string` and `get_ref`. -/
def rootText (value : Json) : Checked Bytes :=
  match value with
  | .string text => pure text
  | _ => fail .invalidRoot "root"

/-- The document behind the strict JSON. -/
def parseRoot (root : Json) : Checked Parsed := do
  failIf (!exactFields root [ascii "schema", ascii "engine", ascii "payload"]) .invalidRoot "root"
  let schema ← rootText (root.item (ascii "schema"))
  let engine ← rootText (root.item (ascii "engine"))
  failIf (schema ≠ coDetectDefinitionSchema) .unsupportedSchema "schema"
  failIf (engine ≠ coDetectPythonCompatEngine) .unsupportedEngine "engine"
  chargeString schema "schema"
  chargeString engine "engine"
  parsePayload (root.item (ascii "payload"))

def loadCoDetectPythonCompatDefinition (parser : Parser) (bytes : Bytes)
    (limits : CoDetectDefinitionLimits) : Except LoadFailure CoDetectPythonCompatDefinition := do
  if !validLimits limits then throw ⟨.invalidLimits, ""⟩
  if bytes.length > limits.maxDefinitionBytes.toNat then throw ⟨.definitionTooLarge, ""⟩
  let root ← (parseStrictJson parser bytes ⟨limits.maxJsonDepth, limits.maxJsonNodes,
    limits.maxStringBytes⟩).mapError fun error => ⟨mapJsonError error, ""⟩
  let (parsed, _) ← parseRoot root (.new limits)
  let canonical ← canonicalIdentity parsed limits.maxCanonicalIdentityBytes
  pure ⟨bytes, sha256Hex bytes, canonical, sha256Hex canonical, parsed⟩

end Baas.CoDetectDefinition
