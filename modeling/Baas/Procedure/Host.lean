import Mathlib.Logic.Function.Basic
import Baas.Procedure.Coordinator
import Baas.Procedure.HostValues

/-! `ProcedureHost`: the effect trace and one call of `run`, from the arguments to the answer. -/
namespace Baas.Procedure

inductive ProcedureEffect
  | capture | vision | input | wait | foregroundCheck
deriving DecidableEq

def ProcedureEffect.all : List ProcedureEffect :=
  [.capture, .vision, .input, .wait, .foregroundCheck]

/-- `other` is a value that no enumerator has. -/
inductive ProcedureEffectStage
  | began | committed | unknown | other
deriving DecidableEq

/-- No effect: a value that no enumerator has. -/
structure EffectReport where
  effect : Option ProcedureEffect
  stage : ProcedureEffectStage
deriving DecidableEq

inductive EffectState
  | notStarted | began | committed | unknown
deriving DecidableEq

inductive HostEffectState
  | notStarted | committed | unknown
deriving DecidableEq

structure ProcedureDescriptor where
  declaredEffects : List ProcedureEffect
  terminalIds : List String
  resultSchema : List ResultFieldSchema

def ProcedureDescriptor.acceptsTerminal (procedure : ProcedureDescriptor) (id : String) : Bool :=
  procedure.terminalIds.contains id

/-! The effect trace. -/

structure BoundedEffectTrace where
  declared : ProcedureEffect → Bool
  states : ProcedureEffect → EffectState
  invalid : Bool

/-- Where a call of `report` stands between two accesses of the shared words. -/
inductive ReportCall
  | loading (effect : ProcedureEffect)
  | looping (effect : ProcedureEffect) (current : EffectState)
  | exchanging (effect : ProcedureEffect) (desired : EffectState)
  | refusing

namespace BoundedEffectTrace

def make (procedure : ProcedureDescriptor) : BoundedEffectTrace where
  declared := fun effect => procedure.declaredEffects.contains effect
  states := fun _ => .notStarted
  invalid := false

def enter (trace : BoundedEffectTrace) (report : EffectReport) : ReportCall :=
  match report.effect with
  | none => .refusing
  | some effect =>
    if trace.declared effect then
      match report.stage with
      | .began => .loading effect
      | .committed => .exchanging effect .committed
      | .unknown => .exchanging effect .unknown
      | .other => .refusing
    else .refusing

def set (trace : BoundedEffectTrace) (effect : ProcedureEffect) (state : EffectState) :
    BoundedEffectTrace :=
  { trace with states := Function.update trace.states effect state }

/-- The states are looked at in turn. -/
def effectStateOf : List EffectState → Bool → HostEffectState
  | [], committed => if committed then .committed else .notStarted
  | value :: rest, committed =>
    if value = .began ∨ value = .unknown then .unknown
    else effectStateOf rest (committed || value = .committed)

def effectState (trace : BoundedEffectTrace) : HostEffectState :=
  effectStateOf (ProcedureEffect.all.map trace.states) false

def inputEffectState (trace : BoundedEffectTrace) : HostEffectState :=
  match trace.states .input with
  | .began => .unknown
  | .unknown => .unknown
  | .committed => .committed
  | .notStarted => .notStarted

end BoundedEffectTrace

/-- One access of the shared words; a weak exchange may fail for no reason. -/
def ReportCall.advance (spurious : Bool) (trace : BoundedEffectTrace) :
    ReportCall → BoundedEffectTrace × (ReportCall ⊕ Bool)
  | loading effect => (trace, .inl (.looping effect (trace.states effect)))
  | looping effect current =>
    if current = .notStarted ∨ current = .committed then
      if trace.states effect = current ∧ spurious = false then
        (trace.set effect .began, .inr true)
      else (trace, .inl (.looping effect (trace.states effect)))
    else (trace, .inl .refusing)
  | exchanging effect desired =>
    if trace.states effect = .began then (trace.set effect desired, .inr true)
    else (trace, .inl .refusing)
  | refusing => ({ trace with invalid := true }, .inr false)

/-- The trace, the calls of `report` that have not returned, one for a thread, and the
answers that were given, in the order in which they took effect. -/
structure Reporting where
  trace : BoundedEffectTrace
  calls : Nat → Option (EffectReport × ReportCall)
  answered : List (EffectReport × Bool)

inductive ReportTick
  | call (thread : Nat) (report : EffectReport)
  | go (thread : Nat) (spurious : Bool)

namespace Reporting

def start (procedure : ProcedureDescriptor) : Reporting where
  trace := .make procedure
  calls := fun _ => none
  answered := []

/-- A thread that is in a call makes no other. -/
def tick (r : Reporting) : ReportTick → Reporting
  | .call thread report =>
    match r.calls thread with
    | some _ => r
    | none => { r with calls := Function.update r.calls thread (report, r.trace.enter report) }
  | .go thread spurious =>
    match r.calls thread with
    | none => r
    | some (report, call) =>
      match call.advance spurious r.trace with
      | (trace, .inl next) =>
        { r with trace, calls := Function.update r.calls thread (report, next) }
      | (trace, .inr answer) =>
        { trace, calls := Function.update r.calls thread none,
          answered := r.answered ++ [(report, answer)] }

def run (procedure : ProcedureDescriptor) (ticks : List ReportTick) : Reporting :=
  ticks.foldl tick (start procedure)

end Reporting

/-! Errors. -/

inductive HostErrorCode
  | invalidArgument | cancelled | deadlineExceeded | budgetExceeded | unavailable
  | deviceDisconnected | resourceNotFound | internal | backpressure
deriving DecidableEq

structure HostError where
  code : HostErrorCode
  message : String
  retryable : Bool
  effectState : HostEffectState
  details : Option (String × String)
deriving DecidableEq

inductive HostResult
  | success (value : JsonValue)
  | failure (error : HostError)

inductive ProcedureDeadlineScope
  | call | context
deriving DecidableEq

inductive ProcedureUnavailableReason
  | none | recentFrameUnavailable
deriving DecidableEq

inductive ProcedureExecutorErrorCode
  | invalidRequest | cancelled | deadlineExceeded | budgetExceeded | resourceExhausted
  | unavailable | foregroundPackageMismatch | deviceDisconnected | resourceNotFound | internal
deriving DecidableEq

structure ProcedureExecutorError where
  code : ProcedureExecutorErrorCode
  retryable : Bool
  effectState : HostEffectState
  deadlineScope : ProcedureDeadlineScope
  unavailableReason : ProcedureUnavailableReason

inductive ProcedureExecutorOutcome
  | success (terminalId : String) (payload : List (String × JsonValue))
  | failure (error : ProcedureExecutorError)

def cancelled (effectState : HostEffectState) : HostError :=
  ⟨.cancelled, "procedure execution cancelled", false, effectState, none⟩

def deadline (effectState : HostEffectState) (scope : ProcedureDeadlineScope) : HostError :=
  ⟨.deadlineExceeded, "procedure deadline exceeded", false, effectState,
    some ("deadline_scope", if scope = .context then "context" else "call")⟩

def mergeEffectState (reported supplied : HostEffectState) : HostEffectState :=
  if reported = .unknown ∨ supplied = .unknown then .unknown
  else if reported = .committed ∨ supplied = .committed then .committed
  else .notStarted

def mapExecutorError (supplied : ProcedureExecutorError)
    (reported reportedInput : HostEffectState) : HostError :=
  let effect := mergeEffectState reported supplied.effectState
  match supplied.code with
  | .invalidRequest =>
    ⟨.invalidArgument, "procedure executor rejected the request", false, effect, none⟩
  | .cancelled => cancelled effect
  | .deadlineExceeded => deadline effect supplied.deadlineScope
  | .budgetExceeded =>
    ⟨.budgetExceeded, "procedure executor budget exceeded", supplied.retryable, effect,
      some ("budget_scope", "host_operation")⟩
  | .resourceExhausted =>
    ⟨.budgetExceeded, "procedure executor resource exhausted", false, effect,
      some ("budget_scope", "external_memory")⟩
  | .unavailable =>
    if supplied.unavailableReason = .recentFrameUnavailable then
      ⟨.unavailable, "recent device frame is unavailable", supplied.retryable, effect,
        some ("unavailable_reason", "recent_frame_unavailable")⟩
    else ⟨.unavailable, "procedure executor unavailable", supplied.retryable, effect, none⟩
  | .foregroundPackageMismatch =>
    ⟨.unavailable, "device foreground package does not match", true, reportedInput,
      some ("unavailable_reason", "foreground_package_mismatch")⟩
  | .deviceDisconnected =>
    ⟨.deviceDisconnected, "procedure device disconnected", supplied.retryable, effect, none⟩
  | .resourceNotFound =>
    ⟨.resourceNotFound, "procedure resource unavailable", supplied.retryable, effect, none⟩
  | .internal => ⟨.internal, "procedure executor internal failure", false, effect, none⟩

/-! One call. -/

inductive HostValue
  | string (text : String) | json (value : JsonValue) | other

inductive Thrown
  | badAlloc | exception | nonStandard
deriving DecidableEq

/-- Where the deadline and the cancellation are looked at. -/
inductive Checkpoint
  | beforeAcquire | afterAcquire | afterExecute | beforePublish
deriving DecidableEq

/-- A call: its arguments, the snapshot and the limits, and what its environment does. -/
structure HostCall where
  calls : Nat
  limits : HostLimits
  arguments : List (Option HostValue)
  acceptsProcedureId : String → Bool
  resolve : String → Option ProcedureDescriptor
  deadlineExceeded : Checkpoint → Bool
  cancelled : Checkpoint → Bool
  /-- What `acquire` of the coordinator does. -/
  acquire : Except Thrown AcquireCode
  /-- What the threads of the executor report before it returns. -/
  ticks : List ReportTick
  execute : Except Thrown ProcedureExecutorOutcome
  /-- Whether copying the options finds memory. -/
  optionsAllocated : Bool
  /-- What putting the result together throws. -/
  processing : Option Thrown
  /-- Whether an error that `run` answers finds memory. -/
  answerAllocated : Bool
  /-- Whether the error of the handler around `run` finds memory. -/
  handlerAllocated : Bool

inductive HostEvent
  | checked (checkpoint : Checkpoint) | acquired | executed | released
deriving DecidableEq

/-- What a part of `run` does and how it is left. -/
abbrev HostSection := List HostEvent × Except Thrown HostResult

namespace HostCall

/-- Building the error may run out of memory. -/
def answer (call : HostCall) (error : HostError) : Except Thrown HostResult :=
  if call.answerAllocated then .ok (.failure error) else .error .badAlloc

/-- How `run` is left before the first checkpoint. -/
inductive Stop
  | answered (error : HostError)
  | threw (thrown : Thrown)

def invalidArgument (message : String) : Stop :=
  .answered ⟨.invalidArgument, message, false, .notStarted, none⟩

def readOptions (call : HostCall) : Option JsonValue → Except Stop Unit
  | none => .ok ()
  | some (.object members) =>
    if (validateOptionValue call.limits (.object members) 1 {}).isNone then
      .error (invalidArgument "procedure options exceed bounded canonical shape")
    else if call.optionsAllocated then .ok () else .error (.threw .badAlloc)
  | some _ => .error (invalidArgument "procedure options must be an ordered map")

def readArguments (call : HostCall) : Except Stop (String × Option JsonValue) :=
  match call.arguments with
  | [some (.string id), none] => .ok (id, none)
  | [some (.string id), some (.json options)] => .ok (id, some options)
  | _ => .error (invalidArgument "invalid procedure run arguments")

/-- The part of `run` up to the first checkpoint. -/
def preflight (call : HostCall) : Except Stop ProcedureDescriptor :=
  if call.limits.maxCalls ≤ call.calls then
    .error (.answered ⟨.budgetExceeded, "procedure call budget exceeded", true, .notStarted,
      some ("budget_scope", "host_operation")⟩)
  else match call.readArguments with
  | .error stop => .error stop
  | .ok (id, options) =>
    if call.acceptsProcedureId id = false then
      .error (invalidArgument "procedure id is not canonical")
    else match call.resolve id with
    | none =>
      .error (.answered ⟨.resourceNotFound,
        "procedure is absent from the immutable snapshot", false, .notStarted, none⟩)
    | some procedure =>
      match call.readOptions options with
      | .error stop => .error stop
      | .ok () => .ok procedure

/-- The deadline is looked at first. -/
def check (call : HostCall) (checkpoint : Checkpoint) (effect : HostEffectState)
    (next : HostSection) : HostSection :=
  if call.deadlineExceeded checkpoint then
    ([.checked checkpoint], call.answer (deadline effect .context))
  else if call.cancelled checkpoint then
    ([.checked checkpoint], call.answer (Procedure.cancelled effect))
  else (.checked checkpoint :: next.1, next.2)

def acquireError : AcquireCode → HostError
  | .cancelled => Procedure.cancelled .notStarted
  | .deadlineExceeded => deadline .notStarted .context
  | .reentrant =>
    ⟨.unavailable, "physical-device strand reentry rejected", false, .notStarted, none⟩
  | .backpressure =>
    ⟨.backpressure, "physical-device strand is saturated", true, .notStarted, none⟩
  | .shutdown =>
    ⟨.unavailable, "physical-device coordinator is shut down", false, .notStarted, none⟩
  | .invalidDeviceId =>
    ⟨.internal, "frozen physical-device id became invalid", false, .notStarted, none⟩
  | .acquired => ⟨.internal, "", false, .notStarted, none⟩

/-- What is answered for a success of the executor after the last checkpoint. -/
def publish (call : HostCall) (effect : HostEffectState) (terminalId : String)
    (payload : List (String × JsonValue)) (status : ResultValidationCode) :
    Except Thrown HostResult :=
  match (if status = .valid then call.processing else none) with
  | some .badAlloc =>
    call.answer ⟨.budgetExceeded, "procedure result allocation failed", false, effect,
      some ("budget_scope", "external_memory")⟩
  | some _ =>
    call.answer ⟨.internal, "procedure result processing failed", false, effect, none⟩
  | none =>
    match status with
    | .limitExceeded =>
      call.answer ⟨.budgetExceeded, "procedure result exceeds bounded validation limits", false,
        effect, some ("budget_scope", "host_operation")⟩
    | .schemaMismatch =>
      call.answer ⟨.internal, "procedure executor returned an invalid result payload", false,
        effect, none⟩
    | .valid => .ok (.success (.object (("end", .string terminalId) :: payload)))

/-- The part of `run` after the executor. -/
def afterExecute (call : HostCall) (procedure : ProcedureDescriptor)
    (trace : BoundedEffectTrace) : HostSection :=
  match call.execute with
  | .error .badAlloc =>
    ([], call.answer ⟨.budgetExceeded, "procedure executor allocation failed", false,
      trace.effectState, some ("budget_scope", "external_memory")⟩)
  | .error .exception =>
    ([], call.answer ⟨.internal, "procedure executor threw an exception", false,
      trace.effectState, none⟩)
  | .error .nonStandard =>
    ([], call.answer ⟨.internal, "procedure executor threw a non-standard exception", false,
      trace.effectState, none⟩)
  | .ok outcome =>
    if trace.invalid then
      ([], call.answer ⟨.internal, "procedure executor reported an undeclared effect", false,
        trace.effectState, none⟩)
    else call.check .afterExecute trace.effectState (match outcome with
      | .failure supplied =>
        ([], call.answer (mapExecutorError supplied trace.effectState trace.inputEffectState))
      | .success terminalId payload =>
        if procedure.acceptsTerminal terminalId then
          call.check .beforePublish trace.effectState ([], call.publish trace.effectState
            terminalId payload
            (validateResultPayload payload procedure.resultSchema call.limits))
        else
          ([], call.answer ⟨.internal, "procedure executor returned an undeclared terminal",
            false, trace.effectState, none⟩))

/-- The lease is released when its scope is left, in whatever way. -/
def leased (body : HostSection) : HostSection :=
  (.acquired :: (body.1 ++ [.released]), body.2)

def executed (body : HostSection) : HostSection := (.executed :: body.1, body.2)

def afterPreflight (call : HostCall) (procedure : ProcedureDescriptor) : HostSection :=
  call.check .beforeAcquire .notStarted (match call.acquire with
    | .error thrown => ([], .error thrown)
    | .ok .acquired =>
      leased (call.check .afterAcquire .notStarted
        (executed (call.afterExecute procedure (Reporting.run procedure call.ticks).trace)))
    | .ok code => ([], call.answer (acquireError code)))

def run (call : HostCall) : HostSection :=
  match call.preflight with
  | .error (.answered error) => ([], call.answer error)
  | .error (.threw thrown) => ([], .error thrown)
  | .ok procedure => call.afterPreflight procedure

def handlerError : Thrown → HostError
  | .badAlloc =>
    ⟨.budgetExceeded, "procedure Host allocation failed", true, .notStarted,
      some ("budget_scope", "external_memory")⟩
  | _ => ⟨.internal, "procedure Host callback failed", false, .notStarted, none⟩

/-- The callback: what leaves `run` as an exception is answered by a handler. -/
def callback (call : HostCall) : HostSection :=
  match call.run with
  | (events, .ok result) => (events, .ok result)
  | (events, .error thrown) =>
    (events, if call.handlerAllocated then .ok (.failure (handlerError thrown))
      else .error .badAlloc)

end HostCall

end Baas.Procedure
