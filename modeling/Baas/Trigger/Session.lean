import Baas.Lib.OrderedMap

/-! `TriggerSession`: correlation and outbound ordering of one connection.
Every public operation takes the session mutex once, so one operation is one
transition. Byte strings are lists of bytes and `std::size_t` sums are exact
except where the code saturates. Wakeups of the output observer happen after the
mutex is released and touch none of this state. -/
namespace Baas.TriggerSession

abbrev Bytes := List UInt8

abbrev Timestamp := Nat

def maximumSafeTimestamp : Timestamp := 9007199254740991

/-- 2^64, the range of the generation and lease counters. -/
def wordRange : Nat := 18446744073709551616

def sizeMax : Nat := wordRange - 1

structure AdmissionReceipt where
  ownerId : Nat
  timestamp : Timestamp
  generation : Nat
deriving DecidableEq

inductive ResponseMode
  | single
  | stream
deriving DecidableEq

structure CommandAdmission where
  command : Bytes
  timestamp : Timestamp
  configId : Option Bytes
  payloadBytes : Nat
  binaryBytes : Nat
  responseMode : ResponseMode

structure TriggerSessionLimits where
  maxInFlight : Nat := 256
  maxCommandBytes : Nat := 128
  maxConfigIdBytes : Nat := 256
  maxRequestPayloadBytes : Nat := 1 * 1024 * 1024
  maxRequestBinaryBytes : Nat := 64 * 1024 * 1024
  maxResponseJsonBytes : Nat := 1 * 1024 * 1024
  maxResponseBinaryBytes : Nat := 64 * 1024 * 1024
  maxQueuedBatches : Nat := 256
  maxQueuedBytes : Nat := 72 * 1024 * 1024

inductive AdmissionError
  | none | closed | invalidCommand | invalidTimestamp | invalidConfigId | payloadTooLarge
  | binaryTooLarge | duplicateTimestamp | inFlightLimit | admissionGenerationExhausted
deriving DecidableEq

structure AdmissionResult where
  error : AdmissionError
  receipt : Option AdmissionReceipt
deriving DecidableEq

inductive ResponseStatus
  | ok | error | cancelled
deriving DecidableEq

structure OutboundBatch where
  command : Bytes
  timestamp : Timestamp
  status : ResponseStatus
  responseMode : ResponseMode
  terminal : Bool
  json : Bytes
  hasBinary : Bool
  binary : Bytes
deriving DecidableEq

inductive PublishError
  | none | closed | invalidAdmissionReceipt | unknownTimestamp | commandMismatch
  | responseModeMismatch | terminalAlreadyQueued | singleResponseMustBeTerminal
  | errorResponseMustBeTerminal | cancellationResponseRequired | invalidJsonUtf8
  | jsonTooLarge | binaryTooLarge | queueFull | queuedBytesExceeded
deriving DecidableEq

inductive RollbackError
  | none | closed | invalidAdmissionReceipt | responseAlreadyQueued
deriving DecidableEq

inductive CancelDecision
  | requested | alreadyRequested | unknownTimestamp | terminalAlreadyQueued | closed
deriving DecidableEq

inductive IrrevocableTerminalClaimError
  | none | closed | invalidAdmissionReceipt | cancellationRequested | terminalAlreadyQueued
deriving DecidableEq

structure ActiveCommand where
  command : Bytes
  timestamp : Timestamp
  cancelRequested : Bool
deriving DecidableEq

abbrev SendLeaseId := Nat

structure SendLease where
  id : SendLeaseId
  batch : OutboundBatch
deriving DecidableEq

inductive BeginSendError
  | none | closed | queueEmpty | sendInProgress
deriving DecidableEq

structure BeginSendResult where
  lease : Option SendLease
  error : BeginSendError
deriving DecidableEq

inductive SendTransitionError
  | none | closed | noActiveLease | leaseMismatch
deriving DecidableEq

structure FailSendResult where
  error : SendTransitionError
  cancel : List ActiveCommand
deriving DecidableEq

structure Entry where
  command : Bytes
  responseMode : ResponseMode
  cancelRequested : Bool
  irrevocableTerminalClaimed : Bool
  terminalQueued : Bool
  responseQueued : Bool
  generation : Nat
deriving DecidableEq

def isContinuation (byte : UInt8) : Bool := byte &&& 0xC0 == 0x80

def isValidUtf8 : Bytes → Bool
  | [] => true
  | first :: rest =>
    if first ≤ 0x7F then isValidUtf8 rest
    else if 0xC2 ≤ first && first ≤ 0xDF then
      match rest with
      | second :: rest => isContinuation second && isValidUtf8 rest
      | [] => false
    else if 0xE0 ≤ first && first ≤ 0xEF then
      match rest with
      | second :: third :: rest =>
        isContinuation second && isContinuation third &&
          !(first == 0xE0 && second < 0xA0 || first == 0xED && 0xA0 ≤ second) &&
          isValidUtf8 rest
      | _ => false
    else if 0xF0 ≤ first && first ≤ 0xF4 then
      match rest with
      | second :: third :: fourth :: rest =>
        isContinuation second && isContinuation third && isContinuation fourth &&
          !(first == 0xF0 && second < 0x90 || first == 0xF4 && 0x8F < second) &&
          isValidUtf8 rest
      | _ => false
    else false

def isLowerLetter (character : UInt8) : Bool := 97 ≤ character && character ≤ 122

def isDigit (character : UInt8) : Bool := 48 ≤ character && character ≤ 57

def isCommandName : Bytes → Bool
  | [] => false
  | first :: rest =>
    isLowerLetter first &&
      rest.all (fun character => isLowerLetter character || isDigit character || character == 95)

def checkedAdd (left right : Nat) : Option Nat :=
  if sizeMax - left < right then none else some (left + right)

def batchBytes (batch : OutboundBatch) : Nat :=
  (checkedAdd batch.json.length batch.binary.length).getD sizeMax

/-- The counters that `stats` reports and nothing else reads. -/
structure Counters where
  accepted : Nat := 0
  admissionRejections : Nat := 0
  rolledBackAdmissions : Nat := 0
  publishedBatches : Nat := 0
  publishRejections : Nat := 0
  poppedBatches : Nat := 0
  sendLeasesStarted : Nat := 0
  sendFailures : Nat := 0
  droppedBatches : Nat := 0
  droppedBytes : Nat := 0
  cancellationsRequested : Nat := 0
  queueBackpressure : Nat := 0

structure Session where
  limits : TriggerSessionLimits
  instanceId : Nat
  entries : OrderedMap Timestamp Entry := .empty
  outbound : List OutboundBatch := []
  activeLeaseId : Option SendLeaseId := none
  nextLeaseIdCounter : SendLeaseId := 1
  queuedBytes : Nat := 0
  nextAdmissionGeneration : Nat := 1
  closed : Bool := false
  counters : Counters := {}

/-- The constructor throws `std::invalid_argument` on any other limits. -/
def validLimits (limits : TriggerSessionLimits) : Bool :=
  limits.maxInFlight != 0 && limits.maxCommandBytes != 0 && limits.maxConfigIdBytes != 0 &&
    limits.maxRequestPayloadBytes != 0 && limits.maxRequestBinaryBytes != 0 &&
    limits.maxResponseJsonBytes != 0 && limits.maxResponseBinaryBytes != 0 &&
    limits.maxQueuedBatches != 0 && limits.maxQueuedBytes != 0 &&
    limits.maxResponseJsonBytes ≤ limits.maxQueuedBytes &&
    limits.maxResponseBinaryBytes ≤ limits.maxQueuedBytes

/-- A 64-bit increment. -/
def bump (counter : Nat) : Nat := (counter + 1) % wordRange

def rejectAdmission (s : Session) (error : AdmissionError) : Session × AdmissionResult :=
  ({ s with counters.admissionRejections := s.counters.admissionRejections + 1 }, ⟨error, none⟩)

def admitCommand (s : Session) (command : CommandAdmission) : Session × AdmissionResult :=
  if command.command.length > s.limits.maxCommandBytes || !isCommandName command.command then
    rejectAdmission s .invalidCommand
  else if command.timestamp > maximumSafeTimestamp then rejectAdmission s .invalidTimestamp
  else if command.configId.any
      (fun id => id.length > s.limits.maxConfigIdBytes || !isValidUtf8 id) then
    rejectAdmission s .invalidConfigId
  else if command.payloadBytes > s.limits.maxRequestPayloadBytes then
    rejectAdmission s .payloadTooLarge
  else if command.binaryBytes > s.limits.maxRequestBinaryBytes then
    rejectAdmission s .binaryTooLarge
  else if s.closed then rejectAdmission s .closed
  else if s.entries.contains command.timestamp then rejectAdmission s .duplicateTimestamp
  else if s.entries.size ≥ s.limits.maxInFlight then rejectAdmission s .inFlightLimit
  else if s.nextAdmissionGeneration = 0 then rejectAdmission s .admissionGenerationExhausted
  else
    let generation := s.nextAdmissionGeneration
    ({ s with
        nextAdmissionGeneration := bump generation
        entries := s.entries.insert command.timestamp
          ⟨command.command, command.responseMode, false, false, false, false, generation⟩
        counters.accepted := s.counters.accepted + 1 },
      ⟨.none, some ⟨s.instanceId, command.timestamp, generation⟩⟩)

/-- The entry a receipt still names: same session, timestamp and generation. -/
def live (s : Session) (receipt : AdmissionReceipt) : Option Entry :=
  if receipt.ownerId ≠ s.instanceId then none
  else (s.entries.find? receipt.timestamp).filter
    (fun entry => entry.generation = receipt.generation)

def rollback (s : Session) (receipt : AdmissionReceipt) : Session × RollbackError :=
  if s.closed then (s, .closed)
  else match live s receipt with
    | none => (s, .invalidAdmissionReceipt)
    | some entry =>
      if entry.responseQueued || entry.irrevocableTerminalClaimed then
        (s, .responseAlreadyQueued)
      else
        ({ s with
            entries := s.entries.erase receipt.timestamp
            counters.rolledBackAdmissions := s.counters.rolledBackAdmissions + 1 }, .none)

def requestCancel (s : Session) (timestamp : Timestamp) : Session × CancelDecision :=
  if s.closed then (s, .closed)
  else match s.entries.find? timestamp with
    | none => (s, .unknownTimestamp)
    | some entry =>
      if entry.terminalQueued || entry.irrevocableTerminalClaimed then
        (s, .terminalAlreadyQueued)
      else if entry.cancelRequested then (s, .alreadyRequested)
      else
        ({ s with
            entries := s.entries.insert timestamp { entry with cancelRequested := true }
            counters.cancellationsRequested := s.counters.cancellationsRequested + 1 }, .requested)

def claimIrrevocableTerminal (s : Session) (receipt : AdmissionReceipt) :
    Session × IrrevocableTerminalClaimError :=
  if s.closed then (s, .closed)
  else match live s receipt with
    | none => (s, .invalidAdmissionReceipt)
    | some entry =>
      if entry.terminalQueued || entry.irrevocableTerminalClaimed then
        (s, .terminalAlreadyQueued)
      else if entry.cancelRequested then (s, .cancellationRequested)
      else
        ({ s with
            entries := s.entries.insert receipt.timestamp
              { entry with irrevocableTerminalClaimed := true } }, .none)

def rejectPublish (s : Session) (error : PublishError) : Session × PublishError :=
  ({ s with
      counters.publishRejections := s.counters.publishRejections + 1
      counters.queueBackpressure :=
        if error = .queueFull ∨ error = .queuedBytesExceeded then s.counters.queueBackpressure + 1
        else s.counters.queueBackpressure }, error)

/-- What keeps `publish` from queueing a batch for a live entry, if anything does. -/
def publishObstacle (s : Session) (entry : Entry) (batch : OutboundBatch) : PublishError :=
  if entry.command ≠ batch.command then .commandMismatch
  else if entry.responseMode ≠ batch.responseMode then .responseModeMismatch
  else if entry.terminalQueued then .terminalAlreadyQueued
  else if entry.responseMode = .single ∧ !batch.terminal then .singleResponseMustBeTerminal
  else if batch.status ≠ .ok ∧ !batch.terminal then .errorResponseMustBeTerminal
  else if entry.cancelRequested ∧ batch.status ≠ .cancelled then .cancellationResponseRequired
  else if s.outbound.length ≥ s.limits.maxQueuedBatches then .queueFull
  else if batchBytes batch > s.limits.maxQueuedBytes ∨
      s.queuedBytes > s.limits.maxQueuedBytes - batchBytes batch then .queuedBytesExceeded
  else .none

def enqueue (s : Session) (entry : Entry) (batch : OutboundBatch) : Session :=
  { s with
    outbound := s.outbound ++ [batch]
    queuedBytes := s.queuedBytes + batchBytes batch
    entries := s.entries.insert batch.timestamp
      { entry with
        responseQueued := true
        terminalQueued := entry.terminalQueued || batch.terminal }
    counters.publishedBatches := s.counters.publishedBatches + 1 }

def publish (s : Session) (receipt : AdmissionReceipt) (batch : OutboundBatch) :
    Session × PublishError :=
  if batch.json.isEmpty || !isValidUtf8 batch.json then rejectPublish s .invalidJsonUtf8
  else if batch.json.length > s.limits.maxResponseJsonBytes then rejectPublish s .jsonTooLarge
  else if batch.binary.length > s.limits.maxResponseBinaryBytes then
    rejectPublish s .binaryTooLarge
  else if s.closed then rejectPublish s .closed
  else if receipt.timestamp ≠ batch.timestamp then rejectPublish s .invalidAdmissionReceipt
  else match live s receipt with
    | none => rejectPublish s .invalidAdmissionReceipt
    | some entry =>
      match publishObstacle s entry batch with
      | .none => (enqueue s entry batch, .none)
      | error => rejectPublish s error

/-- The lease counter skips 0 when it wraps. -/
def nextLeaseId (s : Session) : SendLeaseId × Session :=
  (s.nextLeaseIdCounter,
    { s with nextLeaseIdCounter :=
        if bump s.nextLeaseIdCounter = 0 then 1 else bump s.nextLeaseIdCounter })

def beginSend (s : Session) : Session × BeginSendResult :=
  if s.closed then (s, ⟨none, .closed⟩)
  else if s.activeLeaseId.isSome then (s, ⟨none, .sendInProgress⟩)
  else match s.outbound with
    | [] => (s, ⟨none, .queueEmpty⟩)
    | front :: _ =>
      let (id, s) := nextLeaseId s
      ({ s with
          activeLeaseId := some id
          counters.sendLeasesStarted := s.counters.sendLeasesStarted + 1 }, ⟨some ⟨id, front⟩, .none⟩)

/-- The checks `complete_send` and `fail_send` share. -/
def leaseError (s : Session) (lease : SendLease) : SendTransitionError :=
  if s.closed then .closed
  else match s.activeLeaseId with
    | none => .noActiveLease
    | some id => if id ≠ lease.id then .leaseMismatch else .none

def completeSend (s : Session) (lease : SendLease) : Session × SendTransitionError :=
  match leaseError s lease with
  | .none =>
    match s.outbound with
    | batch :: rest =>
      ({ s with
          queuedBytes := s.queuedBytes - batchBytes batch
          entries := if batch.terminal then s.entries.erase batch.timestamp else s.entries
          outbound := rest
          activeLeaseId := none
          counters.poppedBatches := s.counters.poppedBatches + 1 }, .none)
    -- `front()` of an empty queue: excluded by the session invariant
    | [] => (s, .none)
  | error => (s, error)

/-- Every entry without a queued terminal, in timestamp order. -/
def cancellationHandoff (s : Session) : List ActiveCommand :=
  (s.entries.toList.filter (fun p => !p.2.terminalQueued)).map
    (fun p => ⟨p.2.command, p.1, p.2.cancelRequested⟩)

def closeLocked (s : Session) : Session × List ActiveCommand :=
  if s.closed then (s, [])
  else
    ({ s with
        counters.droppedBatches := s.counters.droppedBatches + s.outbound.length
        counters.droppedBytes := s.counters.droppedBytes + s.queuedBytes
        closed := true
        entries := .empty
        outbound := []
        queuedBytes := 0
        activeLeaseId := none }, cancellationHandoff s)

def failSend (s : Session) (lease : SendLease) : Session × FailSendResult :=
  match leaseError s lease with
  | .none =>
    let (t, active) := closeLocked { s with counters.sendFailures := s.counters.sendFailures + 1 }
    (t, ⟨.none, active⟩)
  | error => (s, ⟨error, []⟩)

def close (s : Session) : Session × List ActiveCommand := closeLocked s

end Baas.TriggerSession
