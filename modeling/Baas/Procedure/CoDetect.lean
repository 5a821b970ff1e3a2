import Mathlib
import Baas.Lib.Interaction
import Baas.Procedure.Host

/-! The `co_detect` executor: its definition, what it asks of the device session, the feature
view and the effect reporter, and its loop. -/
namespace Baas.Procedure

inductive CoDetectProfile
  | cn | jp | globalEnUs | globalZhTw | globalKoKr
deriving DecidableEq

structure CoDetectClick where
  x : Int
  y : Int
deriving DecidableEq

def CoDetectClick.matchOnly (click : CoDetectClick) : Bool := click.x < 0 || click.y < 0

/-- The threshold by its bits. -/
structure CoDetectImageMatch where
  threshold : Option UInt64
  rgbDiff : Option Nat
deriving DecidableEq

structure CoDetectImageFeature where
  feature : String
  imageMatch : CoDetectImageMatch
deriving DecidableEq

structure CoDetectReaction where
  feature : String
  click : CoDetectClick
  profiles : List CoDetectProfile
  imageMatch : CoDetectImageMatch
deriving DecidableEq

structure CoDetectForegroundCheck where
  androidOnly : Bool
  intervalMs : Nat
  idleFeatureMs : Nat

structure CoDetectTentative where
  enabled : Bool
  afterFailedCycles : Nat
  click : CoDetectClick
  postWaitScreenshotIntervals : Nat

structure CoDetectLoop where
  skipFirstScreenshot : Bool
  timeoutMs : Nat
  duplicateClickWindowMs : Nat
  tentative : CoDetectTentative

/-- The loader refuses an empty list of loading features. -/
structure CoDetectDefinition where
  endsRgb : List String
  endsImage : List CoDetectImageFeature
  reactionsRgb : List CoDetectReaction
  reactionsRgbProfiled : List CoDetectReaction
  reactionsImage : List CoDetectReaction
  reactionsImageProfiled : List CoDetectReaction
  popupsRgb : List CoDetectReaction
  popupsProfiledImage : List CoDetectReaction
  loadingAllRgb : List String
  foregroundCheck : CoDetectForegroundCheck
  loop : CoDetectLoop
  loading_present : loadingAllRgb ≠ []

structure CoDetectTerminalBinding where
  source : String
  id : String
deriving DecidableEq

/-- `find_if` over the bindings. -/
def terminalOf (terminals : List CoDetectTerminalBinding) (source : String) : Option String :=
  (terminals.find? (fun item => item.source = source)).map (fun item => item.id)

/-- What `validate_terminal_bindings` checks of the ends. -/
def CoDetectDefinition.sources (definition : CoDetectDefinition) : List String :=
  definition.endsRgb ++ definition.endsImage.map (fun item => item.feature)

structure CoDetectExecutor where
  definition : CoDetectDefinition
  terminals : List CoDetectTerminalBinding
  deviceId : String
  profile : CoDetectProfile
  sessionEpoch : Nat
  isAndroid : Bool
  bound : ∀ source ∈ definition.sources, (terminalOf terminals source).isSome

structure CoDetectFrame where
  deviceId : String
  profile : CoDetectProfile
  sessionEpoch : Nat
  pixels : List UInt8
deriving DecidableEq

inductive CoDetectOperationError
  | cancelled | contextDeadlineExceeded | callDeadlineExceeded | deviceDisconnected
  | resourceNotFound | resourceExhausted | unavailable | sessionChanged | internal
deriving DecidableEq

/-- What an operation of the session or of the view does. -/
inductive Operated (α : Type)
  | value (a : α) | failed (error : CoDetectOperationError) | threw (thrown : Thrown)

/-- What `RequestControl::poll` reads. -/
structure PollReading where
  deadlineExceeded : Bool
  monotonicMs : Nat
  identityValid : Bool
  cancelled : Bool

inductive CoDetectControlState
  | proceed | contextDeadlineExceeded | callDeadlineExceeded | cancelled | sessionChanged
deriving DecidableEq

/-- What the executor asks. -/
inductive CoDetectQuery
  /-- Whether the request is for this device, snapshot and descriptor, and the pins are
  current. -/
  | accepts
  | poll
  | monotonicMs
  | screenshotIntervalMs
  | latestFrame
  | publishLatestFrame (frame : CoDetectFrame)
  | report (effect : ProcedureEffect) (stage : ProcedureEffectStage)
  | capture
  | matchRgb (frame : CoDetectFrame) (feature : String)
  | matchImage (frame : CoDetectFrame) (feature : String) (imageMatch : CoDetectImageMatch)
  | foregroundMatches
  | click (click : CoDetectClick)
  | wait (milliseconds : Nat)
deriving DecidableEq

def CoDetectQuery.Answer : CoDetectQuery → Type
  | accepts => Bool
  | poll => PollReading
  | monotonicMs => Nat
  | screenshotIntervalMs => Nat
  | latestFrame => Option CoDetectFrame
  | publishLatestFrame _ => Unit
  | report _ _ => Bool
  | capture => Operated (Option CoDetectFrame)
  | matchRgb _ _ => Operated Bool
  | matchImage _ _ _ => Operated Bool
  | foregroundMatches => Operated Bool
  | click _ => Operated Unit
  | wait _ => Operated Unit

/-- A part of the executor: where it returns an outcome, it stops with it. -/
abbrev CoDetect (α : Type) :=
  Interaction CoDetectQuery CoDetectQuery.Answer ProcedureExecutorOutcome α

namespace CoDetect

def ask (query : CoDetectQuery) : CoDetect query.Answer := Interaction.query query

def failure (code : ProcedureExecutorErrorCode) (retryable : Bool)
    (scope : ProcedureDeadlineScope) (reason : ProcedureUnavailableReason) :
    ProcedureExecutorOutcome :=
  .failure ⟨code, retryable, .notStarted, scope, reason⟩

def executorError : CoDetectOperationError → ProcedureExecutorOutcome
  | .cancelled => failure .cancelled false .call .none
  | .contextDeadlineExceeded => failure .deadlineExceeded false .context .none
  | .callDeadlineExceeded => failure .deadlineExceeded false .call .none
  | .deviceDisconnected => failure .deviceDisconnected true .call .none
  | .resourceNotFound => failure .resourceNotFound false .call .none
  | .resourceExhausted => failure .resourceExhausted false .call .none
  | .unavailable => failure .unavailable true .call .none
  | .sessionChanged => failure .unavailable false .call .none
  | .internal => failure .internal false .call .none

def fail {α : Type} (error : CoDetectOperationError) : CoDetect α := .stop (executorError error)

def controlError : CoDetectControlState → CoDetectOperationError
  | .contextDeadlineExceeded => .contextDeadlineExceeded
  | .callDeadlineExceeded => .callDeadlineExceeded
  | .cancelled => .cancelled
  | .sessionChanged => .sessionChanged
  | .proceed => .internal

/-- `RequestControl::poll`. -/
def pollState (start timeout : Nat) (reading : PollReading) : CoDetectControlState :=
  if reading.deadlineExceeded then .contextDeadlineExceeded
  else if reading.monotonicMs < start ∨ timeout ≤ reading.monotonicMs - start then
    .callDeadlineExceeded
  else if reading.identityValid = false then .sessionChanged
  else if reading.cancelled then .cancelled
  else .proceed

/-- The control of one call. -/
structure RequestControl where
  start : Nat
  timeout : Nat

def RequestControl.poll (control : RequestControl) : CoDetect Unit := do
  let reading : PollReading ← ask .poll
  let state := pollState control.start control.timeout reading
  if state = .proceed then pure () else fail (controlError state)

def returned {α : Type} : Operated α → Except CoDetectOperationError α
  | .value a => .ok a
  | .failed error => .error error
  | .threw .badAlloc => .error .resourceExhausted
  | .threw _ => .error .internal

/-- Every caller of `invoke_effect` returns its error at once. -/
def invokeEffect {α : Type} (control : RequestControl) (effect : ProcedureEffect)
    (operation : CoDetect (Operated α)) : CoDetect α := do
  control.poll
  let began : Bool ← ask (.report effect .began)
  if began = false then fail .internal
  else
    let result ← operation
    let result := returned result
    let ended : Bool ← ask (.report effect
      (match result with
      | .ok _ => .committed
      | .error _ => .unknown))
    if ended = false then fail .internal
    else
      control.poll
      match result with
      | .ok a => pure a
      | .error error => fail error

def applicable (reaction : CoDetectReaction) (profile : CoDetectProfile) : Bool :=
  reaction.profiles.isEmpty || reaction.profiles.contains profile

def matchRgb (control : RequestControl) (frame : CoDetectFrame) (feature : String) :
    CoDetect Bool :=
  invokeEffect control .vision (ask (.matchRgb frame feature))

def matchImage (control : RequestControl) (frame : CoDetectFrame) (feature : String)
    (imageMatch : CoDetectImageMatch) : CoDetect Bool :=
  invokeEffect control .vision (ask (.matchImage frame feature imageMatch))

def issueClick (control : RequestControl) (click : CoDetectClick) : CoDetect Unit :=
  invokeEffect control .input (ask (.click click))

def wait (control : RequestControl) (milliseconds : CoDetect Nat) : CoDetect Unit :=
  invokeEffect control .wait (do
    let amount ← milliseconds
    ask (.wait amount))

end CoDetect

open CoDetect

namespace CoDetectExecutor

variable (executor : CoDetectExecutor)

def control (start : Nat) : RequestControl := ⟨start, executor.definition.loop.timeoutMs⟩

def validFrame (frame : CoDetectFrame) : Bool :=
  frame.deviceId = executor.deviceId && frame.profile = executor.profile &&
    frame.sessionEpoch = executor.sessionEpoch

/-- A capture with the checks that follow it at both of its places. -/
def capture (control : RequestControl) : CoDetect CoDetectFrame := do
  let captured : Option CoDetectFrame ← invokeEffect control .capture (ask .capture)
  match captured with
  | none => fail .internal
  | some frame =>
    if executor.validFrame frame = false then fail .sessionChanged
    else
      let _ : Unit ← ask (.publishLatestFrame frame)
      pure frame

def firstReaction (control : RequestControl) (frame : CoDetectFrame) (image : Bool) :
    List CoDetectReaction → CoDetect (Option CoDetectReaction)
  | [] => pure none
  | reaction :: rest =>
    if applicable reaction executor.profile = false then firstReaction control frame image rest
    else do
      let found ← if image then
          matchImage control frame reaction.feature reaction.imageMatch
        else matchRgb control frame reaction.feature
      if found then pure (some reaction) else firstReaction control frame image rest

def terminal (control : RequestControl) (source : String) : CoDetect Unit := do
  control.poll
  match terminalOf executor.terminals source with
  | none => .stop (failure .internal false .call .none)
  | some id => .stop (.success id [])

/-- The variables of the loop. -/
structure State where
  featureLast : Nat
  foregroundLast : Nat
  failedCycles : Nat
  lastClick : Option (String × CoDetectClick)
  lastClickTime : Nat
  skipFirst : Bool
deriving DecidableEq

/-- Where the loops stand: at the head of the outer one, or of the loading loop inside. -/
inductive Phase
  | head (s : State)
  | loading (s : State) (iterationTime : Nat) (frame : CoDetectFrame)
deriving DecidableEq

/-- The frame that the session has. -/
def recentFrame : CoDetect CoDetectFrame := do
  let latest : Option CoDetectFrame ← ask .latestFrame
  match latest with
  | none => .stop (failure .unavailable true .call .recentFrameUnavailable)
  | some frame => if executor.validFrame frame = false then fail .sessionChanged else pure frame

def firstFrame (control : RequestControl) (s : State) : CoDetect CoDetectFrame :=
  if s.skipFirst then executor.recentFrame else executor.capture control

def foreground (control : RequestControl) (s : State) (iterationTime : Nat) :
    CoDetect State :=
  let check := executor.definition.foregroundCheck
  if (check.androidOnly = false ∨ executor.isAndroid = true) ∧
      check.idleFeatureMs < iterationTime - s.featureLast ∧
      check.intervalMs < iterationTime - s.foregroundLast then do
    let matched : Bool ← invokeEffect control .foregroundCheck (ask .foregroundMatches)
    if matched = false then .stop (failure .foregroundPackageMismatch true .call .none)
    else pure { s with foregroundLast := iterationTime }
  else pure s

/-- From the head of the outer loop to the loading loop. -/
def head (control : RequestControl) (s : State) : CoDetect Phase := do
  control.poll
  let iterationTime : Nat ← ask .monotonicMs
  let frame ← executor.firstFrame control s
  let s := { s with skipFirst := false }
  if iterationTime < s.featureLast ∨ iterationTime < s.foregroundLast then fail .internal
  else
    let s ← executor.foreground control s iterationTime
    pure (.loading s iterationTime frame)

def allLoading (control : RequestControl) (frame : CoDetectFrame) : List String → CoDetect Bool
  | [] => pure true
  | feature :: rest => do
    let found ← matchRgb control frame feature
    if found then allLoading control frame rest else pure false

def endsRgb (control : RequestControl) (frame : CoDetectFrame) : List String → CoDetect Unit
  | [] => pure ()
  | feature :: rest => do
    let found ← matchRgb control frame feature
    if found then executor.terminal control feature else endsRgb control frame rest

def endsImage (control : RequestControl) (frame : CoDetectFrame) :
    List CoDetectImageFeature → CoDetect Unit
  | [] => pure ()
  | item :: rest => do
    let found ← matchImage control frame item.feature item.imageMatch
    if found then executor.terminal control item.feature else endsImage control frame rest

/-- The reaction that is selected, and whether it is an image. -/
def selectOrdinary (control : RequestControl) (frame : CoDetectFrame) :
    CoDetect (Option (CoDetectReaction × Bool)) := do
  let d := executor.definition
  match ← executor.firstReaction control frame false d.reactionsRgb with
  | some reaction => pure (some (reaction, false))
  | none =>
  match ← executor.firstReaction control frame false d.reactionsRgbProfiled with
  | some reaction => pure (some (reaction, false))
  | none =>
  match ← executor.firstReaction control frame true d.reactionsImage with
  | some reaction => pure (some (reaction, true))
  | none =>
  match ← executor.firstReaction control frame true d.reactionsImageProfiled with
  | some reaction => pure (some (reaction, true))
  | none => pure none

def selectPopup (control : RequestControl) (frame : CoDetectFrame) :
    CoDetect (Option CoDetectReaction) := do
  let d := executor.definition
  match ← executor.firstReaction control frame false d.popupsRgb with
  | some popup => pure (some popup)
  | none => executor.firstReaction control frame true d.popupsProfiledImage

/-- `duplicate_time`. -/
def decisionTime (image : Bool) (iterationTime : Nat) : CoDetect Nat :=
  if image then ask .monotonicMs else pure iterationTime

def ordinary (control : RequestControl) (s : State) (iterationTime : Nat)
    (reaction : CoDetectReaction) (image : Bool) : CoDetect State := do
  if iterationTime < s.featureLast then fail .internal
  else
    let s := { s with featureLast := iterationTime, failedCycles := 0 }
    let duplicateTime ← decisionTime image iterationTime
    let same : Bool := s.lastClick = some (reaction.feature, reaction.click)
    if same = true ∧ duplicateTime < s.lastClickTime then fail .internal
    else
      let duplicate : Bool := same && decide
        (duplicateTime - s.lastClickTime ≤ executor.definition.loop.duplicateClickWindowMs)
      if reaction.click.matchOnly = false ∧ duplicate = false then do
        issueClick control reaction.click
        pure { s with
          lastClick := some (reaction.feature, reaction.click)
          lastClickTime := iterationTime }
      else pure s

def popup (control : RequestControl) (s : State) (reaction : CoDetectReaction) :
    CoDetect State := do
  if reaction.click.matchOnly then pure s
  else
    issueClick control reaction.click
    let now : Nat ← ask .monotonicMs
    pure { s with lastClick := some (reaction.feature, reaction.click), lastClickTime := now }

def uint64Max : Nat := 2 ^ 64 - 1

/-- The click, and the wait of so many screenshot intervals. -/
def tentativeClick (control : RequestControl) : CoDetect Unit := do
  let tentative := executor.definition.loop.tentative
  issueClick control tentative.click
  let interval : Nat ← ask .screenshotIntervalMs
  let intervals := tentative.postWaitScreenshotIntervals
  if intervals ≠ 0 ∧ uint64Max / intervals < interval then fail .internal
  else wait control (pure (interval * intervals))

def unmatched (control : RequestControl) (s : State) : CoDetect State := do
  let s := { s with failedCycles := s.failedCycles + 1 }
  let tentative := executor.definition.loop.tentative
  if tentative.enabled = true ∧ tentative.afterFailedCycles < s.failedCycles then
    executor.tentativeClick control
    pure s
  else pure s

/-- One turn of the loading loop, and when it ends, the rest of the iteration. -/
def loading (control : RequestControl) (s : State) (iterationTime : Nat)
    (frame : CoDetectFrame) : CoDetect Phase := do
  let d := executor.definition
  let all ← if d.loadingAllRgb.isEmpty then pure false
    else allLoading control frame d.loadingAllRgb
  if all then
    let frame ← executor.capture control
    wait control (ask .screenshotIntervalMs)
    pure (.loading s iterationTime frame)
  else
    executor.endsRgb control frame d.endsRgb
    executor.endsImage control frame d.endsImage
    match ← executor.selectOrdinary control frame with
    | some (reaction, image) =>
      let s ← executor.ordinary control s iterationTime reaction image
      pure (.head s)
    | none =>
      match ← executor.selectPopup control frame with
      | some reaction =>
        let s ← popup control s reaction
        pure (.head s)
      | none =>
        let s ← executor.unmatched control s
        pure (.head s)

def body (control : RequestControl) : Phase → CoDetect Phase
  | .head s => executor.head control s
  | .loading s iterationTime frame => executor.loading control s iterationTime frame

/-- `execute_checked`, with so many turns of its loops. -/
def executeChecked (turns : Nat) : CoDetect Phase := do
  let accepts : Bool ← ask .accepts
  if accepts = false then .stop (failure .invalidRequest false .call .none)
  else
    let start : Nat ← ask .monotonicMs
    let control := executor.control start
    control.poll
    Interaction.repeated (executor.body control) turns
      (.head ⟨start, start, 0, none, 0, executor.definition.loop.skipFirstScreenshot⟩)

end CoDetectExecutor

end Baas.Procedure
