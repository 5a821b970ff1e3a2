import Mathlib.Data.List.Nodup
import Baas.Trigger.SessionConservation

/-! The run theorem of the session: the books of every admission, the identity of
receipts and leases, and the single cancellation hand-off. -/
namespace Baas.TriggerSession

open Transition

/-- Receipts are never issued twice: the generation only grows until it is spent. -/
structure Issued (es : History) (s : Session) : Prop where
  counter : s.nextAdmissionGeneration < wordRange
  receipts : ∀ r ∈ admissions es, r.ownerId = s.instanceId ∧
    (s.nextAdmissionGeneration = 0 ∨ r.generation < s.nextAdmissionGeneration)
  distinct : (admissions es).Nodup

theorem Issued.fresh {es : History} {s : Session} (issued : Issued es s)
    (unspent : s.nextAdmissionGeneration ≠ 0) (timestamp : Timestamp) :
    ⟨s.instanceId, timestamp, s.nextAdmissionGeneration⟩ ∉ admissions es := by
  intro member
  rcases (issued.receipts _ member).2 with spent | smaller
  · exact unspent spent
  · exact Nat.lt_irrefl _ smaller

/-- A call that issues no receipt. -/
theorem Issued.keep {es : History} {s t : Session} {call : Call} (issued : Issued es s)
    (admitted : admittedBy ⟨s, call, t⟩ = none) (owner : t.instanceId = s.instanceId)
    (counter : t.nextAdmissionGeneration = s.nextAdmissionGeneration) :
    Issued (es ++ [⟨s, call, t⟩]) t := by
  have same : admissions (es ++ [⟨s, call, t⟩]) = admissions es := by
    rw [admissions_append, admitted]; simp
  constructor
  · rw [counter]; exact issued.counter
  · rw [same, owner, counter]; exact issued.receipts
  · rw [same]; exact issued.distinct

theorem Issued.admitCommand {es : History} {s t : Session} {call : Call} {timestamp : Timestamp}
    (issued : Issued es s) (unspent : s.nextAdmissionGeneration ≠ 0)
    (admitted : admittedBy ⟨s, call, t⟩ =
      some ⟨s.instanceId, timestamp, s.nextAdmissionGeneration⟩)
    (owner : t.instanceId = s.instanceId)
    (counter : t.nextAdmissionGeneration = bump s.nextAdmissionGeneration) :
    Issued (es ++ [⟨s, call, t⟩]) t := by
  have grown : admissions (es ++ [⟨s, call, t⟩]) =
      admissions es ++ [⟨s.instanceId, timestamp, s.nextAdmissionGeneration⟩] := by
    rw [admissions_append, admitted]; rfl
  have bound := issued.counter
  have next : bump s.nextAdmissionGeneration = 0 ∨
      bump s.nextAdmissionGeneration = s.nextAdmissionGeneration + 1 := by
    unfold bump wordRange at *
    omega
  constructor
  · rw [counter]; exact Nat.mod_lt _ (by decide)
  · rw [grown, owner, counter]
    intro r member
    rcases List.mem_append.mp member with old | new
    · obtain ⟨mine, spent | smaller⟩ := issued.receipts r old
      · exact absurd spent unspent
      · exact ⟨mine, next.imp_right (fun h => by omega)⟩
    · cases List.mem_singleton.mp new
      exact ⟨rfl, next.imp_right (fun h => by dsimp only; omega)⟩
  · rw [grown, List.nodup_append]
    refine ⟨issued.distinct, by simp, ?_⟩
    intro a member b new
    cases List.mem_singleton.mp new
    intro same
    exact issued.fresh unspent timestamp (same ▸ member)

theorem admittedBy_inert {s t : Session} {op : Op} {outcome : Outcome}
    (h : outcome.inert = true) : admittedBy ⟨s, ⟨op, outcome⟩, t⟩ = none := by
  cases outcome with
  | admitted result => simpa [admittedBy, Outcome.inert] using h
  | _ => rfl

theorem issued_of_run {es : History} {s : Session} (run : Run sessionSystem es s) :
    Issued es s := by
  refine run.history Issued ?_ ?_
  · rintro s ⟨limits, instanceId, _, rfl⟩
    exact ⟨Nat.one_lt_two_pow (show 64 ≠ 0 by decide), by simp [admissions], List.nodup_nil⟩
  · rintro es s ⟨op, outcome⟩ t _ issued h
    cases step_effect h with
    | quiet _ _ counters refused => exact issued.keep (admittedBy_inert refused) rfl rfl
    | admitCommand command counters _ _ _ unspent => exact issued.admitCommand unspent rfl rfl rfl
    | shut _ _ counters _ how =>
      refine issued.keep ?_ rfl rfl
      rcases how with ⟨rfl, rfl⟩ | ⟨lease, rfl, _, rfl⟩ <;> rfl
    | rollback | cancel | claim | publish | lease | complete | empty =>
      exact issued.keep rfl rfl rfl

theorem Account.start (s : Session) (entries : s.entries = .empty) (r : AdmissionReceipt) :
    Account [] s r := by
  have gone : live s r = none := by simp [live, entries]
  constructor <;> simp [gone, admissions, publishedFor, sentFor, handedFor]

theorem Account.step {es : History} {s t : Session} {call : Call} {r : AdmissionReceipt}
    (account : Account es s r) (inv : Invariant s) (issued : Issued es s)
    (h : sessionSystem.step s call t) : Account (es ++ [⟨s, call, t⟩]) t r := by
  obtain ⟨op, outcome⟩ := call
  cases step_effect h with
  | quiet _ _ counters refused =>
    exact account.remove (idle_inert r refused) (.inr ⟨live_congr rfl rfl r, rfl, rfl⟩)
  | admitCommand command counters _ absent _ unspent =>
    exact account.admitCommand inv ⟨rfl, rfl, rfl⟩ rfl (issued.fresh unspent _) rfl rfl absent rfl rfl
  | rollback receipt entry counters _ _ _ =>
    refine account.remove ⟨rfl, rfl, rfl, by simp [admittedBy]⟩ ?_
    have after := live_erase (s := s) (t := { s with
      entries := s.entries.erase receipt.timestamp, counters }) rfl rfl r
    split at after
    · exact .inl after
    · exact .inr ⟨after, rfl, rfl⟩
  | cancel timestamp entry counters _ found _ _ =>
    exact account.update ⟨rfl, rfl, rfl, by simp [admittedBy]⟩ rfl rfl found rfl rfl rfl rfl
  | claim receipt entry _ found _ _ =>
    exact account.update ⟨rfl, rfl, rfl, by simp [admittedBy]⟩ rfl rfl
      (live_find found).2.1 rfl rfl rfl rfl
  | publish receipt entry batch _ same found clear =>
    exact account.publish inv same found (publishObstacle_none clear)
  | lease front rest counters _ idle queue =>
    exact account.lease rfl rfl idle rfl queue rfl
  | complete lease batch rest counters _ active queue =>
    exact account.complete rfl rfl active rfl queue rfl
  | empty lease active queue =>
    exact absurd queue (inv.lease_queue (by rw [active]; rfl))
  | shut _ _ counters _ how =>
    refine account.remove ?_ (.inl (by simp [live]))
    rcases how with ⟨rfl, rfl⟩ | ⟨lease, rfl, _, rfl⟩ <;>
      exact ⟨rfl, rfl, rfl, by simp [admittedBy]⟩

theorem account_of_run {es : History} {s : Session} (run : Run sessionSystem es s)
    (r : AdmissionReceipt) : Account es s r := by
  refine run.history (fun es s => Account es s r) ?_ ?_
  · rintro s ⟨limits, instanceId, _, rfl⟩
    exact .start _ rfl r
  · intro es s call t prior account h
    exact account.step (invariant_of_run prior) (issued_of_run prior) h

/-! Leases. -/

/-- Lease ids are dealt in order while fewer than 2^64 were handed out. -/
structure Dealt (es : History) (s : Session) : Prop where
  ids : (handed es).map SendLease.id = List.range' 1 (handed es).length
  counter : s.nextLeaseIdCounter =
    if (handed es).length + 1 < wordRange then (handed es).length + 1 else 1
  completed : ∀ e ∈ es, ∀ id, completes e = some id →
    ∃ batch, ⟨id, batch⟩ ∈ handed es ∧ e.source.outbound.head? = some batch
  stale : ∀ id ∈ es.filterMap completes, s.activeLeaseId ≠ some id

theorem bump_eq {counter : Nat} (bound : counter < wordRange) :
    bump counter = if counter + 1 < wordRange then counter + 1 else 0 := by
  unfold bump
  split
  · exact Nat.mod_eq_of_lt ‹_›
  · rw [show counter + 1 = wordRange by omega, Nat.mod_self]

theorem completes_inert {s t : Session} {op : Op} {outcome : Outcome}
    (h : outcome.inert = true) : completes ⟨s, ⟨op, outcome⟩, t⟩ = none := by
  cases outcome with
  | completed error =>
    have refused : error ≠ .none := of_decide_eq_true h
    simp [completes, refused]
  | _ => simp [completes]

theorem completed_append (es : History) (e : SessionEvent) :
    (es ++ [e]).filterMap completes = es.filterMap completes ++ (completes e).toList := by
  simp only [List.filterMap_append, List.filterMap_cons, List.filterMap_nil]
  cases completes e <;> rfl

/-- A call that neither hands out nor completes a lease. -/
theorem Dealt.keep {es : History} {s t : Session} {call : Call} (dealt : Dealt es s)
    (noLease : handed [⟨s, call, t⟩] = []) (noCompletion : completes ⟨s, call, t⟩ = none)
    (counter : t.nextLeaseIdCounter = s.nextLeaseIdCounter)
    (active : t.activeLeaseId = s.activeLeaseId ∨ t.activeLeaseId = none) :
    Dealt (es ++ [⟨s, call, t⟩]) t := by
  have same : handed (es ++ [⟨s, call, t⟩]) = handed es := by
    rw [handed_append, noLease, List.append_nil]
  constructor
  · rw [same]; exact dealt.ids
  · rw [same, counter]; exact dealt.counter
  · intro e member id completed
    rcases List.mem_append.mp member with old | new
    · rw [same]; exact dealt.completed e old id completed
    · cases List.mem_singleton.mp new
      rw [noCompletion] at completed
      cases completed
  · intro id member
    rw [completed_append, noCompletion, Option.toList_none, List.append_nil] at member
    rcases active with active | active
    · rw [active]; exact dealt.stale id member
    · rw [active]; simp

theorem Dealt.lease {es : History} {s t : Session} {front : OutboundBatch}
    (dealt : Dealt es s) (room : (handed es).length + 1 < wordRange)
    (counter : t.nextLeaseIdCounter =
      if bump s.nextLeaseIdCounter = 0 then 1 else bump s.nextLeaseIdCounter)
    (active : t.activeLeaseId = some s.nextLeaseIdCounter) :
    Dealt (es ++ [⟨s, ⟨.beginSend, .began ⟨some ⟨s.nextLeaseIdCounter, front⟩, .none⟩⟩, t⟩])
      t := by
  have next : s.nextLeaseIdCounter = (handed es).length + 1 := by
    rw [dealt.counter, if_pos room]
  have grown : handed (es ++ [⟨s, ⟨.beginSend,
      .began ⟨some ⟨s.nextLeaseIdCounter, front⟩, .none⟩⟩, t⟩]) =
      handed es ++ [⟨s.nextLeaseIdCounter, front⟩] := by
    rw [handed_append]; rfl
  constructor
  · rw [grown, List.map_append, dealt.ids, List.length_append, List.length_singleton,
      List.range'_concat]
    simp [next, Nat.add_comm]
  · rw [grown, counter, next, List.length_append, List.length_singleton]
    rw [bump_eq room]
    split <;> simp
  · intro e member id completed
    rcases List.mem_append.mp member with old | new
    · obtain ⟨batch, found, head⟩ := dealt.completed e old id completed
      exact ⟨batch, grown ▸ List.mem_append_left _ found, head⟩
    · cases List.mem_singleton.mp new
      cases completed
  · intro id member
    rw [completed_append] at member
    obtain ⟨e, old, completed⟩ := List.mem_filterMap.mp (by simpa [completes] using member)
    obtain ⟨batch, found, _⟩ := dealt.completed e old id completed
    have bounded : id ∈ List.range' 1 (handed es).length :=
      dealt.ids ▸ List.mem_map_of_mem found
    rw [List.mem_range'_1] at bounded
    rw [active, next]
    intro same
    have : (handed es).length + 1 = id := Option.some.inj same
    omega

theorem Dealt.complete {es : History} {s t : Session} {lease : SendLease}
    {batch : OutboundBatch} {rest : List OutboundBatch} (dealt : Dealt es s)
    (front : LeasesFront es s) (active : s.activeLeaseId = some lease.id)
    (queue : s.outbound = batch :: rest)
    (counter : t.nextLeaseIdCounter = s.nextLeaseIdCounter) (idle : t.activeLeaseId = none) :
    Dealt (es ++ [⟨s, ⟨.completeSend lease, .completed .none⟩, t⟩]) t := by
  have same : handed (es ++ [⟨s, ⟨.completeSend lease, .completed .none⟩, t⟩]) = handed es := by
    rw [handed_append]; simp [handed]
  constructor
  · rw [same]; exact dealt.ids
  · rw [same, counter]; exact dealt.counter
  · intro e member id completed
    rw [same]
    rcases List.mem_append.mp member with old | new
    · exact dealt.completed e old id completed
    · cases List.mem_singleton.mp new
      cases Option.some.inj completed
      obtain ⟨batch', rest', queue', newest⟩ := front _ active
      rw [queue] at queue'
      cases queue'
      exact ⟨batch, List.mem_of_getLast? newest, by rw [queue]; rfl⟩
  · intro id _
    rw [idle]; simp

theorem dealt_of_run {es : History} {s : Session} (run : Run sessionSystem es s)
    (fewer : (handed es).length < wordRange) : Dealt es s := by
  refine run.history (fun es s => (handed es).length < wordRange → Dealt es s) ?_ ?_ fewer
  · rintro s ⟨limits, instanceId, _, rfl⟩ _
    constructor <;> simp [handed, wordRange]
  · rintro es s ⟨op, outcome⟩ t prior dealt h fewer
    rw [handed_append, List.length_append] at fewer
    have dealt := dealt (by omega)
    cases step_effect h with
    | quiet _ _ counters refused =>
      exact dealt.keep (handed_inert refused) (completes_inert refused) rfl (.inl rfl)
    | lease front rest counters _ _ queue => exact dealt.lease fewer rfl rfl
    | complete lease batch rest counters _ active queue =>
      exact dealt.complete (leasesFront_of_run prior) active queue rfl rfl
    | empty lease active queue =>
      exact absurd queue ((invariant_of_run prior).lease_queue (by rw [active]; rfl))
    | shut _ _ counters _ how =>
      rcases how with ⟨rfl, rfl⟩ | ⟨lease, rfl, _, rfl⟩ <;>
        exact dealt.keep rfl rfl rfl (.inr rfl)
    | admitCommand | rollback | cancel | claim | publish => exact dealt.keep rfl rfl rfl (.inl rfl)

/-- A completed lease carried exactly the batch that left the queue. -/
theorem Dealt.leased_front {es : History} {s : Session} (dealt : Dealt es s)
    {e : SessionEvent} (member : e ∈ es) {id : SendLeaseId} (completed : completes e = some id) :
    leased es id = e.source.outbound.head? := by
  obtain ⟨batch, found, head⟩ := dealt.completed e member id completed
  rw [head]
  unfold leased
  cases first : (handed es).find? (fun lease => lease.id = id) with
  | none =>
    have := List.find?_eq_none.mp first _ found
    simp at this
  | some lease =>
    have sameId : lease.id = id := by simpa using List.find?_some first
    have distinct : ((handed es).map SendLease.id).Nodup := dealt.ids ▸ List.nodup_range'
    have := List.inj_on_of_nodup_map distinct (List.mem_of_find?_eq_some first) found sameId
    rw [this]; rfl

theorem Dealt.completedFor_eq {es : History} {s : Session} (dealt : Dealt es s)
    (r : AdmissionReceipt) : completedFor r es = sentFor r es := by
  refine List.filterMap_congr (fun e member => ?_)
  unfold sentBy
  cases completed : completes e with
  | none => rfl
  | some id =>
    simp only [Option.bind_some]
    rw [dealt.leased_front member completed]

/-! Facts of single steps. -/

/-- Two live receipts under one timestamp are the same receipt. -/
theorem live_unique {s : Session} {a b : AdmissionReceipt} {entry : Entry}
    (liveA : (live s a).isSome = true) (liveB : live s b = some entry)
    (same : a.timestamp = b.timestamp) : a = b := by
  obtain ⟨other, found⟩ := Option.isSome_iff_exists.mp liveA
  obtain ⟨ownerA, placeA, generationA⟩ := live_find found
  obtain ⟨ownerB, placeB, generationB⟩ := live_find liveB
  rw [same, placeB] at placeA
  cases Option.some.inj placeA
  obtain ⟨_, _, _⟩ := a
  obtain ⟨_, _, _⟩ := b
  simp_all

theorem leaves_by_of_step {s t : Session} {call : Call} (h : sessionSystem.step s call t)
    {r : AdmissionReceipt} (left : leaves r ⟨s, call, t⟩ = true) : LeavesBy r ⟨s, call, t⟩ := by
  obtain ⟨op, outcome⟩ := call
  obtain ⟨before, after⟩ : (live s r).isSome = true ∧ live t r = none := by
    simpa [leaves] using left
  have changed (owner : t.instanceId = s.instanceId) : t.entries ≠ s.entries := by
    intro entries
    rw [← live_congr owner entries r, after] at before
    cases before
  have stays {timestamp : Timestamp} {entry entry' : Entry}
      (owner : t.instanceId = s.instanceId) (found : s.entries.find? timestamp = some entry)
      (generation : entry'.generation = entry.generation) :
      t.entries ≠ s.entries.insert timestamp entry' := by
    intro entries
    rw [live_insert entry owner entries found generation r] at after
    split at after <;> simp_all
  have grows {timestamp : Timestamp} {entry : Entry} (owner : t.instanceId = s.instanceId)
      (absent : s.entries.find? timestamp = none) :
      t.entries ≠ s.entries.insert timestamp entry := by
    intro entries
    rw [live_admitted owner entries absent r] at after
    split at after <;> simp_all
  have erased {timestamp : Timestamp} (owner : t.instanceId = s.instanceId)
      (entries : t.entries = s.entries.erase timestamp) : r.timestamp = timestamp := by
    rw [live_erase owner entries r] at after
    split at after
    · assumption
    · rw [after] at before
      cases before
  cases step_effect h with
  | quiet | lease => exact absurd rfl (changed rfl)
  | admitCommand command counters _ absent _ _ => exact absurd rfl (grows rfl absent)
  | rollback receipt entry counters _ found _ =>
    cases live_unique before found (erased rfl rfl)
    exact .rollback rfl
  | cancel timestamp entry counters _ found _ _ => exact absurd rfl (stays rfl found rfl)
  | claim receipt entry _ found _ _ => exact absurd rfl (stays rfl (live_find found).2.1 rfl)
  | publish receipt entry batch _ same found _ =>
    have place : s.entries.find? batch.timestamp = some entry := same ▸ (live_find found).2.1
    exact absurd rfl (stays rfl place rfl)
  | complete lease batch rest counters _ _ queue =>
    cases terminal : batch.terminal with
    | true =>
      exact .terminal lease.id batch rfl (by simp [queue])
        (erased rfl (if_pos terminal)).symm terminal
    | false => exact absurd (if_neg (by simp [terminal])) (changed rfl)
  | empty => exact absurd rfl (changed rfl)
  | shut _ _ counters isOpen how =>
    refine .closing (by simp [closes, isOpen]) ?_
    rcases how with ⟨rfl, _⟩ | ⟨lease, rfl, _⟩
    · exact .inl rfl
    · exact .inr ⟨lease, rfl⟩

theorem stale_receipt_untouched {s t : Session} {call : Call}
    (h : sessionSystem.step s call t) {r : AdmissionReceipt}
    (presented : call.op.receipt = some r) (stale : live s r = none) :
    Untouched ⟨s, call, t⟩ := by
  obtain ⟨op, outcome⟩ := call
  cases step_effect h with
  | quiet _ _ counters _ => exact ⟨rfl, rfl, rfl⟩
  | rollback receipt entry _ _ found | claim receipt entry _ found
  | publish receipt entry batch _ _ found =>
    cases presented
    rw [stale] at found
    cases found
  | shut _ _ counters _ how =>
    rcases how with ⟨rfl, _⟩ | ⟨lease, rfl, _⟩ <;> cases presented
  | admitCommand | cancel | lease | complete | empty => cases presented

theorem stale_lease_untouched {s t : Session} {call : Call} (h : sessionSystem.step s call t)
    {lease : SendLease} (presented : call.op.lease = some lease)
    (stale : s.activeLeaseId ≠ some lease.id) : Untouched ⟨s, call, t⟩ := by
  obtain ⟨op, outcome⟩ := call
  cases step_effect h with
  | quiet _ _ counters _ => exact ⟨rfl, rfl, rfl⟩
  | complete lease' _ _ _ _ active =>
    cases presented
    exact absurd active stale
  | empty => exact ⟨rfl, rfl, rfl⟩
  | shut _ _ counters _ how =>
    rcases how with ⟨rfl, _⟩ | ⟨lease', rfl, active, _⟩
    · cases presented
    · cases presented
      exact absurd active stale
  | admitCommand | rollback | cancel | claim | publish | lease => cases presented

/-- Either the call closes the session and hands the entries over, or it does neither. -/
theorem handoff_step {s t : Session} {call : Call} (h : sessionSystem.step s call t) :
    closes ⟨s, call, t⟩ = true ∧ t.closed = true ∧
        call.outcome.handoff = cancellationHandoff s ∨
      closes ⟨s, call, t⟩ = false ∧ t.closed = s.closed ∧ call.outcome.handoff = [] := by
  obtain ⟨op, outcome⟩ := call
  cases step_effect h with
  | quiet _ _ counters refused =>
    refine .inr ⟨by simp [closes], rfl, ?_⟩
    cases outcome with
    | failed result =>
      have : result.error ≠ .none ∧ result.cancel = [] := of_decide_eq_true refused
      exact this.2
    | closed active => exact of_decide_eq_true refused
    | _ => rfl
  | shut _ _ counters isOpen how =>
    refine .inl ⟨by simp [closes, isOpen], rfl, ?_⟩
    rcases how with ⟨rfl, rfl⟩ | ⟨lease, rfl, _, rfl⟩ <;> rfl
  | admitCommand | rollback | cancel | claim | publish | lease | complete | empty =>
    exact .inr ⟨by simp [closes, enqueue], rfl, rfl⟩

theorem handoff_sorted (s : Session) :
    (cancellationHandoff s).Pairwise (fun a b => a.timestamp < b.timestamp) := by
  unfold cancellationHandoff
  rw [List.pairwise_map]
  exact s.entries.sorted.filter _

theorem mem_cancellationHandoff {s : Session} (inv : Invariant s) (command : ActiveCommand) :
    command ∈ cancellationHandoff s ↔ Cancellable s command := by
  have unqueued (timestamp : Timestamp) (entry : Entry)
      (found : s.entries.find? timestamp = some entry) : entry.terminalQueued = false ↔
        ∀ batch ∈ queueOf s.outbound timestamp, batch.terminal = false := by
    have flag := inv.terminal_flag timestamp entry found
    cases queued : entry.terminalQueued <;> simp_all
  unfold cancellationHandoff
  constructor
  · intro member
    obtain ⟨⟨timestamp, entry⟩, kept, rfl⟩ := List.mem_map.mp member
    obtain ⟨listed, open'⟩ := List.mem_filter.mp kept
    have found := OrderedMap.mem_toList_iff.mp listed
    exact ⟨entry, found, (unqueued timestamp entry found).mp (by simpa using open'), rfl, rfl⟩
  · rintro ⟨entry, found, free, sameCommand, sameFlag⟩
    refine List.mem_map.mpr ⟨(command.timestamp, entry), List.mem_filter.mpr ⟨?_, ?_⟩, ?_⟩
    · exact OrderedMap.mem_toList_iff.mpr found
    · simpa using (unqueued _ entry found).mpr free
    · simp [← sameCommand, ← sameFlag]

theorem handoff_once_of_run {es : History} {s : Session} (run : Run sessionSystem es s) :
    es.countP closes = if s.closed then 1 else 0 := by
  refine run.history (fun es s => List.countP closes es = if s.closed then 1 else 0) ?_ ?_
  · rintro s ⟨limits, instanceId, _, rfl⟩
    rfl
  · intro es s call t _ once h
    rw [countP_append_singleton, once]
    rcases handoff_step h with ⟨closing, shut, _⟩ | ⟨open', same, _⟩
    · have isOpen : s.closed = false := by
        have : s.closed = false ∧ t.closed = true := by simpa [closes] using closing
        exact this.1
      simp [closing, shut, isOpen]
    · simp [open', same]

theorem conserved_of_run {es : History} {s : Session} (run : Run sessionSystem es s)
    (fewer : (handed es).length < wordRange) {r : AdmissionReceipt} (admitted : r ∈ admissions es) :
    Conserved es s r := by
  have account := account_of_run run r
  refine ⟨?_, account.handed_published, account.one_terminal, ?_, ?_⟩
  · rw [(dealt_of_run run fewer).completedFor_eq]; exact account.sent_handed
  · rw [account.leaves_once, if_pos admitted]
  · intro e member left
    exact leaves_by_of_step (run.of_mem member).1 left

end Baas.TriggerSession
