import Baas.Lib.Transition
import Baas.Trigger.Catalog
import Baas.Trigger.Session

/-! `TriggerIngress`: one request at a time from the JSON and the binary frames of a
connection. What reads the envelope out of a JSON frame is a parameter here. -/
namespace Baas.Trigger

open TriggerSession TriggerCommandCatalog

abbrev Bytes := List UInt8

inductive EnvelopeError
  | none | invalidLimits | inputTooLarge | invalidUtf8 | invalidJson | depthLimit | nodeLimit
  | stringLimit | workLimit | duplicateKey | rootNotObject | missingType | invalidType
  | missingCommand | invalidCommand | missingTimestamp | invalidTimestamp | invalidConfigId
  | invalidPayload | binaryPresenceMismatch | invalidData | invalidError | invalidTerminal
  | reservedBinaryField | binaryTooLarge | outputTooLarge
deriving DecidableEq

structure CommandEnvelope where
  command : Bytes
  timestamp : Timestamp
  configId : Option Bytes
  payloadJson : Bytes
  declaresBinary : Bool
deriving DecidableEq

/-- `decode_command_envelope`: an envelope, or an error and where it is. -/
abbrev Decode := Bytes → Except (EnvelopeError × Nat) CommandEnvelope

structure TriggerIngressLimits where
  maxJsonFrameBytes : Nat := 1 * 1024 * 1024
  maxBinaryFrameBytes : Nat := 64 * 1024 * 1024
  maxAggregateBytes : Nat := 65 * 1024 * 1024

inductive TriggerIngressState
  | acceptingJson | awaitingBinary | ready | closed
deriving DecidableEq

inductive TriggerIngressOutcome
  | rejected | awaitingBinary | ready
deriving DecidableEq

inductive TriggerIngressError
  | none | closed | itemPending | jsonWhileAwaitingBinary | binaryWithoutDeclaration
  | jsonTooLarge | binaryTooLarge | aggregateTooLarge | envelopeRejected | unknownCommand
  | configIdRequired | binaryMarkerRequired | binaryMarkerForbidden | admissionRejected
deriving DecidableEq

inductive TriggerIngressDisposition
  | none | fatal | recoverable | commandRejection | closed
deriving DecidableEq

def triggerIngressDisposition : TriggerIngressError → TriggerIngressDisposition
  | .none => .none
  | .closed => .closed
  | .unknownCommand | .configIdRequired | .binaryMarkerRequired | .binaryMarkerForbidden
  | .admissionRejected => .commandRejection
  | .jsonWhileAwaitingBinary | .itemPending | .binaryWithoutDeclaration | .jsonTooLarge
  | .binaryTooLarge | .aggregateTooLarge | .envelopeRejected => .fatal

/-- What a rejected command is answered with. -/
structure TriggerCommandRejection where
  command : Bytes
  timestamp : Timestamp
  code : TriggerIngressError
deriving DecidableEq

structure TriggerIngressResult where
  outcome : TriggerIngressOutcome := .rejected
  error : TriggerIngressError := .none
  envelopeError : EnvelopeError := .none
  errorOffset : Nat := 0
  commandRejection : Option TriggerCommandRejection := none
deriving DecidableEq

def TriggerIngressResult.disposition (result : TriggerIngressResult) : TriggerIngressDisposition :=
  triggerIngressDisposition result.error

structure TriggerIngressItem where
  envelope : CommandEnvelope
  binary : Option Bytes
  admission : CommandAdmission
  descriptor : TriggerCommandDescriptor

structure PendingBinary where
  envelope : CommandEnvelope
  jsonFrameBytes : Nat
  responseMode : ResponseMode
  descriptor : TriggerCommandDescriptor

structure TriggerIngress where
  pendingBinary : Option PendingBinary := none
  ready : Option TriggerIngressItem := none
  closed : Bool := false

def checkedAdd (left right : Nat) : Option Nat :=
  if right > sizeMax - left then none else some (left + right)

def responseModeFor (descriptor : TriggerCommandDescriptor) : ResponseMode :=
  match descriptor.responseMode with
  | .stream => .stream
  | .single => .single

def commandRejectionResult (error : TriggerIngressError) (envelope : CommandEnvelope)
    (envelopeError : EnvelopeError := .none) : TriggerIngressResult :=
  { error, envelopeError
    commandRejection := some ⟨envelope.command, envelope.timestamp, error⟩ }

def makeAdmission (envelope : CommandEnvelope) (binaryFrameBytes : Option Nat)
    (mode : ResponseMode) : Except EnvelopeError CommandAdmission :=
  if binaryFrameBytes.isSome ≠ envelope.declaresBinary then .error .binaryPresenceMismatch
  else .ok ⟨envelope.command, envelope.timestamp, envelope.configId, envelope.payloadJson.length,
    binaryFrameBytes.getD 0, mode⟩

namespace TriggerIngress

def close (_ : TriggerIngress) : TriggerIngress := { closed := true }

def reset (ingress : TriggerIngress) : TriggerIngress :=
  if ingress.closed then ingress else { closed := false }

def state (ingress : TriggerIngress) : TriggerIngressState :=
  if ingress.closed then .closed
  else if ingress.ready.isSome then .ready
  else if ingress.pendingBinary.isSome then .awaitingBinary
  else .acceptingJson

def takeReady (ingress : TriggerIngress) : Option TriggerIngressItem × TriggerIngress :=
  match ingress.ready with
  | none => (none, ingress)
  | some item => (some item, { ingress with ready := none })

def reject (ingress : TriggerIngress) (error : TriggerIngressError)
    (envelopeError : EnvelopeError := .none) (errorOffset : Nat := 0) :
    TriggerIngressResult × TriggerIngress :=
  let result : TriggerIngressResult := { error, envelopeError, errorOffset }
  (result, if result.disposition = .fatal then ingress.close else ingress)

def complete (ingress : TriggerIngress) (envelope : CommandEnvelope) (binary : Option Bytes)
    (responseMode : ResponseMode) (descriptor : TriggerCommandDescriptor) :
    TriggerIngressResult × TriggerIngress :=
  match makeAdmission envelope (binary.map List.length) responseMode with
  | .error error => (commandRejectionResult .admissionRejected envelope error, ingress)
  | .ok admission =>
    ({ outcome := .ready },
      { ingress with ready := some ⟨envelope, binary, admission, descriptor⟩ })

variable (limits : TriggerIngressLimits) (decode : Decode)

/-- What the catalogue says to an envelope. -/
def receiveEnvelope (ingress : TriggerIngress) (jsonFrameBytes : Nat)
    (envelope : CommandEnvelope) : TriggerIngressResult × TriggerIngress :=
  match lookup envelope.command with
  | none => (commandRejectionResult .unknownCommand envelope, ingress)
  | some descriptor =>
    if descriptor.configId = .required ∧ (envelope.configId.getD []) = [] then
      (commandRejectionResult .configIdRequired envelope, ingress)
    else if descriptor.inboundBinary = .required ∧ !envelope.declaresBinary then
      (commandRejectionResult .binaryMarkerRequired envelope, ingress)
    else if descriptor.inboundBinary ≠ .required ∧ envelope.declaresBinary then
      (commandRejectionResult .binaryMarkerForbidden envelope, ingress)
    else if descriptor.inboundBinary = .required then
      ({ outcome := .awaitingBinary },
        { ingress with
          pendingBinary := some ⟨envelope, jsonFrameBytes, responseModeFor descriptor,
            descriptor⟩ })
    else ingress.complete envelope none (responseModeFor descriptor) descriptor

def receiveJsonFrame (ingress : TriggerIngress) (json : Bytes) :
    TriggerIngressResult × TriggerIngress :=
  if ingress.closed then ingress.reject .closed
  else if ingress.ready.isSome then ingress.reject .itemPending
  else if ingress.pendingBinary.isSome then
    { ingress with pendingBinary := none }.reject .jsonWhileAwaitingBinary
  else if json.length > limits.maxJsonFrameBytes then ingress.reject .jsonTooLarge
  else if json.length > limits.maxAggregateBytes then ingress.reject .aggregateTooLarge
  else
    match decode json with
    | .error (error, errorOffset) => ingress.reject .envelopeRejected error errorOffset
    | .ok envelope => ingress.receiveEnvelope json.length envelope

def receiveBinaryFrame (ingress : TriggerIngress) (binary : Bytes) :
    TriggerIngressResult × TriggerIngress :=
  if ingress.closed then ingress.reject .closed
  else if ingress.ready.isSome then ingress.reject .itemPending
  else
    match ingress.pendingBinary with
    | none => ingress.reject .binaryWithoutDeclaration
    | some pending =>
      -- The promise is spent before anything can fail.
      let ingress := { ingress with pendingBinary := none }
      if binary.length > limits.maxBinaryFrameBytes then ingress.reject .binaryTooLarge
      else
        match checkedAdd pending.jsonFrameBytes binary.length with
        | none => ingress.reject .aggregateTooLarge
        | some aggregateBytes =>
          if aggregateBytes > limits.maxAggregateBytes then ingress.reject .aggregateTooLarge
          else ingress.complete pending.envelope (some binary) pending.responseMode
            pending.descriptor

end TriggerIngress

end Baas.Trigger
