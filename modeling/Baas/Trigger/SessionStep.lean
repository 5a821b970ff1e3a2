import Baas.Lib.Transition
import Baas.Trigger.Session

/-! The session as a transition system, and once for every operation what it can do. -/
namespace Baas.TriggerSession

open Transition

inductive Op
  | admitCommand (command : CommandAdmission)
  | rollback (receipt : AdmissionReceipt)
  | requestCancel (timestamp : Timestamp)
  | claimIrrevocableTerminal (receipt : AdmissionReceipt)
  | publish (receipt : AdmissionReceipt) (batch : OutboundBatch)
  | beginSend
  | completeSend (lease : SendLease)
  | failSend (lease : SendLease)
  | close

inductive Outcome
  | admitted (result : AdmissionResult)
  | rolledBack (error : RollbackError)
  | cancelled (decision : CancelDecision)
  | claimed (error : IrrevocableTerminalClaimError)
  | published (error : PublishError)
  | began (result : BeginSendResult)
  | completed (error : SendTransitionError)
  | failed (result : FailSendResult)
  | closed (active : List ActiveCommand)
deriving DecidableEq

def apply (s : Session) : Op → Session × Outcome
  | .admitCommand command => (admitCommand s command).map id .admitted
  | .rollback receipt => (rollback s receipt).map id .rolledBack
  | .requestCancel timestamp => (requestCancel s timestamp).map id .cancelled
  | .claimIrrevocableTerminal receipt => (claimIrrevocableTerminal s receipt).map id .claimed
  | .publish receipt batch => (publish s receipt batch).map id .published
  | .beginSend => (beginSend s).map id .began
  | .completeSend lease => (completeSend s lease).map id .completed
  | .failSend lease => (failSend s lease).map id .failed
  | .close => (close s).map id .closed

/-- One call with what it returned. -/
structure Call where
  op : Op
  outcome : Outcome

def sessionSystem : System Session Call where
  start s := ∃ limits instanceId, validLimits limits = true ∧ s = { limits, instanceId }
  step s call t := apply s call.op = (t, call.outcome)

/-- Refused or idle: the call reports no success and hands nothing over. -/
def Outcome.inert : Outcome → Bool
  | .admitted result => result.receipt.isNone
  | .rolledBack error => error ≠ .none
  | .cancelled decision => decision ≠ .requested
  | .claimed error => error ≠ .none
  | .published error => error ≠ .none
  | .began result => result.lease.isNone
  | .completed error => error ≠ .none
  | .failed result => result.error ≠ .none ∧ result.cancel = []
  | .closed active => active = []

/-- Everything a call can do to the session. -/
inductive Effect (s : Session) : Op → Outcome → Session → Prop where
  | quiet (op : Op) (outcome : Outcome) (counters : Counters) :
      outcome.inert = true → Effect s op outcome { s with counters }
  | admitCommand (command : CommandAdmission) (counters : Counters) :
      s.closed = false → s.entries.find? command.timestamp = none →
      s.entries.size < s.limits.maxInFlight → s.nextAdmissionGeneration ≠ 0 →
      Effect s (.admitCommand command)
        (.admitted ⟨.none,
          some ⟨s.instanceId, command.timestamp, s.nextAdmissionGeneration⟩⟩)
        { s with
          nextAdmissionGeneration := bump s.nextAdmissionGeneration
          entries := s.entries.insert command.timestamp
            ⟨command.command, command.responseMode, false, false, false, false,
              s.nextAdmissionGeneration⟩
          counters }
  | rollback (receipt : AdmissionReceipt) (entry : Entry) (counters : Counters) :
      s.closed = false → live s receipt = some entry → entry.responseQueued = false →
      Effect s (.rollback receipt) (.rolledBack .none)
        { s with entries := s.entries.erase receipt.timestamp, counters }
  | cancel (timestamp : Timestamp) (entry : Entry) (counters : Counters) :
      s.closed = false → s.entries.find? timestamp = some entry →
      entry.terminalQueued = false → entry.irrevocableTerminalClaimed = false →
      Effect s (.requestCancel timestamp) (.cancelled .requested)
        { s with
          entries := s.entries.insert timestamp { entry with cancelRequested := true }
          counters }
  | claim (receipt : AdmissionReceipt) (entry : Entry) :
      s.closed = false → live s receipt = some entry →
      entry.terminalQueued = false → entry.cancelRequested = false →
      Effect s (.claimIrrevocableTerminal receipt) (.claimed .none)
        { s with
          entries := s.entries.insert receipt.timestamp
            { entry with irrevocableTerminalClaimed := true } }
  | publish (receipt : AdmissionReceipt) (entry : Entry) (batch : OutboundBatch) :
      s.closed = false → receipt.timestamp = batch.timestamp → live s receipt = some entry →
      publishObstacle s entry batch = .none →
      Effect s (.publish receipt batch) (.published .none) (enqueue s entry batch)
  | lease (front : OutboundBatch) (rest : List OutboundBatch) (counters : Counters) :
      s.closed = false → s.activeLeaseId = none → s.outbound = front :: rest →
      Effect s .beginSend (.began ⟨some ⟨s.nextLeaseIdCounter, front⟩, .none⟩)
        { s with
          nextLeaseIdCounter :=
            if bump s.nextLeaseIdCounter = 0 then 1 else bump s.nextLeaseIdCounter
          activeLeaseId := some s.nextLeaseIdCounter
          counters }
  | complete (lease : SendLease) (batch : OutboundBatch) (rest : List OutboundBatch)
      (counters : Counters) :
      s.closed = false → s.activeLeaseId = some lease.id → s.outbound = batch :: rest →
      Effect s (.completeSend lease) (.completed .none)
        { s with
          queuedBytes := s.queuedBytes - batchBytes batch
          entries := if batch.terminal then s.entries.erase batch.timestamp else s.entries
          outbound := rest
          activeLeaseId := none
          counters }
  | empty (lease : SendLease) :
      s.activeLeaseId = some lease.id → s.outbound = [] →
      Effect s (.completeSend lease) (.completed .none) s
  | shut (op : Op) (outcome : Outcome) (counters : Counters) :
      s.closed = false →
      (op = .close ∧ outcome = .closed (cancellationHandoff s) ∨
        ∃ lease, op = .failSend lease ∧ s.activeLeaseId = some lease.id ∧
          outcome = .failed ⟨.none, cancellationHandoff s⟩) →
      Effect s op outcome
        { s with
          closed := true
          entries := .empty
          outbound := []
          queuedBytes := 0
          activeLeaseId := none
          counters }

theorem effect_ite {s : Session} {op : Op} {c : Prop} [Decidable c]
    {yes no : Session × AdmissionResult} (then_ : c → Effect s op (.admitted yes.2) yes.1)
    (else_ : ¬ c → Effect s op (.admitted no.2) no.1) :
    Effect s op (.admitted (if c then yes else no).2) (if c then yes else no).1 := by
  split
  · exact then_ ‹_›
  · exact else_ ‹_›

theorem admit_effect (s : Session) (command : CommandAdmission) :
    Effect s (.admitCommand command) (.admitted (admitCommand s command).2)
      (admitCommand s command).1 := by
  have refused (error : AdmissionError) :
      Effect s (.admitCommand command) (.admitted (rejectAdmission s error).2)
        (rejectAdmission s error).1 := .quiet _ _ _ rfl
  unfold admitCommand
  refine effect_ite (fun _ => refused _) (fun _ => effect_ite (fun _ => refused _) (fun _ => ?_))
  refine effect_ite (fun _ => refused _) (fun _ => effect_ite (fun _ => refused _) (fun _ => ?_))
  refine effect_ite (fun _ => refused _) (fun _ => ?_)
  refine effect_ite (fun _ => refused _) (fun isOpen => ?_)
  refine effect_ite (fun _ => refused _) (fun fresh => ?_)
  refine effect_ite (fun _ => refused _) (fun room => ?_)
  refine effect_ite (fun _ => refused _) (fun generation => ?_)
  refine .admitCommand command _ (by simpa using isOpen) ?_ (Nat.lt_of_not_ge room) generation
  simpa [OrderedMap.contains] using fresh

theorem rollback_effect (s : Session) (receipt : AdmissionReceipt) :
    Effect s (.rollback receipt) (.rolledBack (rollback s receipt).2)
      (rollback s receipt).1 := by
  unfold rollback
  split
  · exact .quiet _ _ s.counters rfl
  rename_i isOpen
  split
  · exact .quiet _ _ s.counters rfl
  rename_i entry found
  split
  · exact .quiet _ _ s.counters rfl
  rename_i idle
  have idle' : entry.responseQueued = false := by
    cases h : entry.responseQueued <;> simp [h] at idle ⊢
  exact .rollback receipt entry _ (by simpa using isOpen) found idle'

theorem requestCancel_effect (s : Session) (timestamp : Timestamp) :
    Effect s (.requestCancel timestamp) (.cancelled (requestCancel s timestamp).2)
      (requestCancel s timestamp).1 := by
  unfold requestCancel
  split
  · exact .quiet _ _ s.counters rfl
  rename_i isOpen
  split
  · exact .quiet _ _ s.counters rfl
  rename_i entry found
  split
  · exact .quiet _ _ s.counters rfl
  rename_i window
  split
  · exact .quiet _ _ s.counters rfl
  simp only [Bool.or_eq_true, not_or, Bool.not_eq_true] at window
  exact .cancel timestamp entry _ (by simpa using isOpen) found window.1 window.2

theorem claim_effect (s : Session) (receipt : AdmissionReceipt) :
    Effect s (.claimIrrevocableTerminal receipt)
      (.claimed (claimIrrevocableTerminal s receipt).2)
      (claimIrrevocableTerminal s receipt).1 := by
  unfold claimIrrevocableTerminal
  split
  · exact .quiet _ _ s.counters rfl
  rename_i isOpen
  split
  · exact .quiet _ _ s.counters rfl
  rename_i entry found
  split
  · exact .quiet _ _ s.counters rfl
  rename_i window
  split
  · exact .quiet _ _ s.counters rfl
  rename_i wanted
  simp only [Bool.or_eq_true, not_or, Bool.not_eq_true] at window
  exact .claim receipt entry (by simpa using isOpen) found window.1 (by simpa using wanted)

theorem publish_effect (s : Session) (receipt : AdmissionReceipt) (batch : OutboundBatch) :
    Effect s (.publish receipt batch) (.published (publish s receipt batch).2)
      (publish s receipt batch).1 := by
  have refused (error : PublishError) (h : error ≠ .none) :
      Effect s (.publish receipt batch) (.published (rejectPublish s error).2)
        (rejectPublish s error).1 := 
    .quiet _ _ _ (decide_eq_true h)
  unfold publish
  split
  · exact refused _ (by decide)
  split
  · exact refused _ (by decide)
  split
  · exact refused _ (by decide)
  split
  · exact refused _ (by decide)
  rename_i isOpen
  split
  · exact refused _ (by decide)
  rename_i same
  split
  · exact refused _ (by decide)
  rename_i entry found
  split
  · rename_i clear
    exact .publish receipt entry batch (by simpa using isOpen) (by simpa using same) found clear
  · rename_i error blocked
    exact refused _ blocked

theorem beginSend_effect (s : Session) :
    Effect s .beginSend (.began (beginSend s).2) (beginSend s).1 := by
  unfold beginSend
  split
  · exact .quiet _ _ s.counters rfl
  rename_i isOpen
  split
  · exact .quiet _ _ s.counters rfl
  rename_i idle
  split
  · exact .quiet _ _ s.counters rfl
  rename_i front rest queue
  exact .lease front rest _ (by simpa using isOpen) (by simpa using idle) queue

theorem leaseError_none {s : Session} {lease : SendLease} (h : leaseError s lease = .none) :
    s.closed = false ∧ s.activeLeaseId = some lease.id := by
  unfold leaseError at h
  split at h
  · cases h
  rename_i isOpen
  split at h
  · cases h
  rename_i id active
  split at h
  · cases h
  rename_i same
  exact ⟨by simpa using isOpen, by rw [active, not_not.mp same]⟩

theorem completeSend_effect (s : Session) (lease : SendLease) :
    Effect s (.completeSend lease) (.completed (completeSend s lease).2)
      (completeSend s lease).1 := by
  unfold completeSend
  split
  · rename_i held
    have held := leaseError_none held
    split
    · rename_i batch rest queue
      exact .complete lease batch rest _ held.1 held.2 queue
    · rename_i queue
      exact .empty lease held.2 queue
  · rename_i refusal
    exact .quiet _ _ s.counters (decide_eq_true refusal)

theorem failSend_effect (s : Session) (lease : SendLease) :
    Effect s (.failSend lease) (.failed (failSend s lease).2) (failSend s lease).1 := by
  unfold failSend
  split
  · rename_i held
    have held := leaseError_none held
    simp only [closeLocked, held.1, Bool.false_eq_true, if_false]
    exact .shut _ _ _ held.1 (.inr ⟨lease, rfl, held.2, rfl⟩)
  · rename_i refusal
    exact .quiet _ _ s.counters (decide_eq_true ⟨refusal, rfl⟩)

theorem close_effect (s : Session) : Effect s .close (.closed (close s).2) (close s).1 := by
  unfold close closeLocked
  split
  · exact .quiet _ _ s.counters rfl
  · rename_i isOpen
    exact .shut _ _ _ (by simpa using isOpen) (.inl ⟨rfl, rfl⟩)

theorem apply_effect (s : Session) (op : Op) : Effect s op (apply s op).2 (apply s op).1 := by
  cases op with
  | admitCommand command => exact admit_effect s command
  | rollback receipt => exact rollback_effect s receipt
  | requestCancel timestamp => exact requestCancel_effect s timestamp
  | claimIrrevocableTerminal receipt => exact claim_effect s receipt
  | publish receipt batch => exact publish_effect s receipt batch
  | beginSend => exact beginSend_effect s
  | completeSend lease => exact completeSend_effect s lease
  | failSend lease => exact failSend_effect s lease
  | close => exact close_effect s

theorem step_effect {s t : Session} {call : Call} (h : sessionSystem.step s call t) :
    Effect s call.op call.outcome t := by
  have effect := apply_effect s call.op
  rw [show apply s call.op = (t, call.outcome) from h] at effect
  exact effect

/-- One call as an event: what it returned and the session it left. -/
def perform (s : Session) (op : Op) : Call × Session := (⟨op, (apply s op).2⟩, (apply s op).1)

theorem perform_step (s : Session) (op : Op) :
    sessionSystem.step s (perform s op).1 (perform s op).2 := rfl

end Baas.TriggerSession
