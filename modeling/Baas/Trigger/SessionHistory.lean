import Baas.Trigger.SessionInvariant

/-! Conservation over whole runs: what each admission published, handed out and
completed, when it left the in-flight set, and who got the cancellation hand-off.
An admission is named by its receipt; the client may reuse its timestamp. -/
namespace Baas.TriggerSession

open Transition

abbrev SessionEvent := Event Session Call

def admittedBy (e : SessionEvent) : Option AdmissionReceipt :=
  match e.label.outcome with
  | .admitted result => result.receipt
  | _ => none

/-- The receipts of all successful admissions, oldest first. -/
def admissions (es : History) : List AdmissionReceipt := es.filterMap admittedBy

def publishedBy (r : AdmissionReceipt) (e : SessionEvent) : Option OutboundBatch :=
  match e.label with
  | ⟨.publish receipt batch, .published .none⟩ => if receipt = r then some batch else none
  | _ => none

/-- The batches `publish` accepted for an admission, oldest first. -/
def publishedFor (r : AdmissionReceipt) (es : History) : List OutboundBatch :=
  es.filterMap (publishedBy r)

/-- A batch belongs to the admission that is live under its timestamp. -/
def belongs (r : AdmissionReceipt) (s : Session) (batch : OutboundBatch) : Bool :=
  batch.timestamp = r.timestamp ∧ (live s r).isSome = true

def handedBy (r : AdmissionReceipt) (e : SessionEvent) : Option OutboundBatch :=
  match e.label with
  | ⟨.beginSend, .began ⟨some lease, .none⟩⟩ => some lease.batch |>.filter (belongs r e.source)
  | _ => none

/-- The batches of an admission that `begin_send` handed out, oldest first. -/
def handedFor (r : AdmissionReceipt) (es : History) : List OutboundBatch :=
  es.filterMap (handedBy r)

/-- The batch handed out under a lease id. -/
def leased (es : History) (id : SendLeaseId) : Option OutboundBatch :=
  ((handed es).find? (fun lease => lease.id = id)).map SendLease.batch

/-- The lease a call completed. -/
def completes (e : SessionEvent) : Option SendLeaseId :=
  match e.label with
  | ⟨.completeSend lease, .completed .none⟩ => some lease.id
  | _ => none

/-- The batches of an admission that `complete_send` confirmed, oldest first: the
ones handed out under the confirmed leases. -/
def completedFor (r : AdmissionReceipt) (es : History) : List OutboundBatch :=
  es.filterMap (fun e =>
    (completes e).bind (fun id => (leased es id).filter (belongs r e.source)))

/-- The call takes the admission out of the in-flight set. -/
def leaves (r : AdmissionReceipt) (e : SessionEvent) : Bool :=
  (live e.source r).isSome && (live e.target r).isNone

def closes (e : SessionEvent) : Bool := !e.source.closed && e.target.closed

/-- The three ways out of the in-flight set. -/
inductive LeavesBy (r : AdmissionReceipt) (e : SessionEvent) : Prop where
  | rollback : e.label = ⟨.rollback r, .rolledBack .none⟩ → LeavesBy r e
  | terminal (id : SendLeaseId) (batch : OutboundBatch) :
      completes e = some id → e.source.outbound.head? = some batch →
      batch.timestamp = r.timestamp → batch.terminal = true → LeavesBy r e
  | closing : closes e = true →
      (e.label.op = .close ∨ ∃ lease, e.label.op = .failSend lease) → LeavesBy r e

/-- The receipt a call presents. -/
def Op.receipt : Op → Option AdmissionReceipt
  | .rollback receipt | .claimIrrevocableTerminal receipt | .publish receipt _ => some receipt
  | _ => none

/-- The lease a call presents. -/
def Op.lease : Op → Option SendLease
  | .completeSend lease | .failSend lease => some lease
  | _ => none

/-- Entries, queue and lease are as before. -/
def Untouched (e : SessionEvent) : Prop :=
  e.target.entries = e.source.entries ∧ e.target.outbound = e.source.outbound ∧
    e.target.activeLeaseId = e.source.activeLeaseId

/-- The commands a call returned for cancellation. -/
def Outcome.handoff : Outcome → List ActiveCommand
  | .failed result => result.cancel
  | .closed active => active
  | _ => []

/-- The command of an entry that has no terminal in the queue. -/
def Cancellable (s : Session) (command : ActiveCommand) : Prop :=
  ∃ entry, s.entries.find? command.timestamp = some entry ∧
    (∀ batch ∈ queueOf s.outbound command.timestamp, batch.terminal = false) ∧
    command.command = entry.command ∧ command.cancelRequested = entry.cancelRequested

/-- What one admission did in a run. -/
structure Conserved (es : History) (s : Session) (r : AdmissionReceipt) : Prop where
  completed_handed : completedFor r es <+: handedFor r es
  handed_published : handedFor r es <+: publishedFor r es
  one_terminal : ∀ batch ∈ (publishedFor r es).dropLast, batch.terminal = false
  leaves_once : es.countP (leaves r) + (if (live s r).isSome then 1 else 0) = 1
  leaves_by : ∀ e ∈ es, leaves r e = true → LeavesBy r e

structure HistoryExact (es : History) (s : Session) : Prop where
  admission : ∀ r ∈ admissions es, Conserved es s r
  distinct : (admissions es).Nodup
  stale_receipt : ∀ e ∈ es, ∀ r, e.label.op.receipt = some r → live e.source r = none →
    Untouched e
  stale_lease : ∀ e ∈ es, ∀ lease, e.label.op.lease = some lease →
    e.source.activeLeaseId ≠ some lease.id → Untouched e
  /-- A completed lease is stale from then on. -/
  completed_stale : ∀ id, id ∈ es.filterMap completes → s.activeLeaseId ≠ some id
  handoff_once : es.countP closes = if s.closed then 1 else 0
  handoff_only : ∀ e ∈ es, closes e = false → e.label.outcome.handoff = []
  handoff_exact : ∀ e ∈ es, closes e = true → ∀ command,
    command ∈ e.label.outcome.handoff ↔ Cancellable e.source command
  handoff_sorted : ∀ e ∈ es,
    e.label.outcome.handoff.Pairwise (fun a b => a.timestamp < b.timestamp)

/-! Singletons: what one event contributes. -/

theorem publishedFor_append (r : AdmissionReceipt) (es : History) (e : SessionEvent) :
    publishedFor r (es ++ [e]) = publishedFor r es ++ (publishedBy r e).toList := by
  simp only [publishedFor, List.filterMap_append, List.filterMap_cons, List.filterMap_nil]
  cases publishedBy r e <;> rfl

theorem handedFor_append (r : AdmissionReceipt) (es : History) (e : SessionEvent) :
    handedFor r (es ++ [e]) = handedFor r es ++ (handedBy r e).toList := by
  simp only [handedFor, List.filterMap_append, List.filterMap_cons, List.filterMap_nil]
  cases handedBy r e <;> rfl

theorem admissions_append (es : History) (e : SessionEvent) :
    admissions (es ++ [e]) = admissions es ++ (admittedBy e).toList := by
  simp only [admissions, List.filterMap_append, List.filterMap_cons, List.filterMap_nil]
  cases admittedBy e <;> rfl

/-- The batch a completion takes off the queue. -/
def sentBy (r : AdmissionReceipt) (e : SessionEvent) : Option OutboundBatch :=
  (completes e).bind (fun _ => e.source.outbound.head?.filter (belongs r e.source))

def sentFor (r : AdmissionReceipt) (es : History) : List OutboundBatch :=
  es.filterMap (sentBy r)

theorem sentFor_append (r : AdmissionReceipt) (es : History) (e : SessionEvent) :
    sentFor r (es ++ [e]) = sentFor r es ++ (sentBy r e).toList := by
  simp only [sentFor, List.filterMap_append, List.filterMap_cons, List.filterMap_nil]
  cases sentBy r e <;> rfl

end Baas.TriggerSession
