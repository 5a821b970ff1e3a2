import Mathlib.Data.List.Infix
import Baas.Trigger.SessionHistory

/-! The books of one admission, kept call by call, and from them the run theorem. -/
namespace Baas.TriggerSession

open Transition

/-! Who is live after a step. -/

theorem live_congr {s t : Session} (owner : t.instanceId = s.instanceId)
    (entries : t.entries = s.entries) (r : AdmissionReceipt) : live t r = live s r := by
  unfold live
  rw [owner, entries]

theorem live_insert {s t : Session} {timestamp : Timestamp} (entry : Entry) {entry' : Entry}
    (owner : t.instanceId = s.instanceId)
    (entries : t.entries = s.entries.insert timestamp entry')
    (found : s.entries.find? timestamp = some entry)
    (generation : entry'.generation = entry.generation) (r : AdmissionReceipt) :
    live t r = if r.timestamp = timestamp then (live s r).map (fun _ => entry')
      else live s r := by
  unfold live
  rw [owner, entries, OrderedMap.find?_insert]
  by_cases same : timestamp = r.timestamp
  · rw [if_pos same, if_pos same.symm, ← same, found]
    by_cases foreign : r.ownerId = s.instanceId
    · by_cases stale : entry.generation = r.generation <;>
        simp [foreign, generation, stale, Option.filter]
    · simp [foreign]
  · rw [if_neg same, if_neg (Ne.symm same)]

theorem live_erase {s t : Session} {timestamp : Timestamp}
    (owner : t.instanceId = s.instanceId) (entries : t.entries = s.entries.erase timestamp)
    (r : AdmissionReceipt) :
    live t r = if r.timestamp = timestamp then none else live s r := by
  unfold live
  rw [owner, entries, OrderedMap.find?_erase]
  by_cases same : timestamp = r.timestamp
  · rw [if_pos same, if_pos same.symm]
    simp
  · rw [if_neg same, if_neg (Ne.symm same)]

theorem live_admitted {s t : Session} {timestamp : Timestamp} {entry : Entry}
    (owner : t.instanceId = s.instanceId)
    (entries : t.entries = s.entries.insert timestamp entry)
    (absent : s.entries.find? timestamp = none) (r : AdmissionReceipt) :
    live t r = if r = ⟨s.instanceId, timestamp, entry.generation⟩ then some entry
      else live s r := by
  obtain ⟨ownerId, ts, generation⟩ := r
  unfold live
  rw [owner, entries, OrderedMap.find?_insert]
  by_cases same : timestamp = ts
  · subst same
    by_cases foreign : ownerId = s.instanceId
    · by_cases stale : generation = entry.generation
      · simp [foreign, stale]
      · simp [foreign, stale, absent, Ne.symm stale]
    · simp [foreign]
  · simp [same, Ne.symm same]

/-- The front batch of a timestamp while a lease on the front is open. -/
def leasedQueue (s : Session) (timestamp : Timestamp) : List OutboundBatch :=
  if s.activeLeaseId.isSome then queueOf (s.outbound.take 1) timestamp else []

/-- The books of one admission while the session runs. -/
structure Account (es : History) (s : Session) (r : AdmissionReceipt) : Prop where
  origin : (live s r).isSome = true → r ∈ admissions es
  conserve : (live s r).isSome = true →
    publishedFor r es = sentFor r es ++ queueOf s.outbound r.timestamp
  outstanding : (live s r).isSome = true →
    handedFor r es = sentFor r es ++ leasedQueue s r.timestamp
  sent_handed : sentFor r es <+: handedFor r es
  handed_published : handedFor r es <+: publishedFor r es
  one_terminal : ∀ batch ∈ (publishedFor r es).dropLast, batch.terminal = false
  unfinished : ∀ entry, live s r = some entry → entry.terminalQueued = false →
    ∀ batch ∈ publishedFor r es, batch.terminal = false
  unknown : r ∉ admissions es →
    publishedFor r es = [] ∧ sentFor r es = [] ∧ handedFor r es = []
  leaves_once : es.countP (leaves r) + (if (live s r).isSome then 1 else 0) =
    if r ∈ admissions es then 1 else 0

/-- The event adds nothing to the books of the admission. -/
structure Idle (r : AdmissionReceipt) (e : SessionEvent) : Prop where
  published : publishedBy r e = none
  handed : handedBy r e = none
  sent : sentBy r e = none
  admitted : admittedBy e ≠ some r

theorem mem_admissions_idle {r : AdmissionReceipt} (es : History) {e : SessionEvent}
    (idle : Idle r e) : r ∈ admissions (es ++ [e]) ↔ r ∈ admissions es := by
  rw [admissions_append, List.mem_append]
  constructor
  · rintro (h | h)
    · exact h
    · exact absurd (by simpa using h) idle.admitted
  · exact .inl

theorem countP_append_singleton {α : Type*} (p : α → Bool) (l : List α) (a : α) :
    (l ++ [a]).countP p = l.countP p + if p a then 1 else 0 := by
  rw [List.countP_append, List.countP_singleton]

/-- An event that admits nobody under `r` moves at most one departure. -/
theorem Account.leaves_step {es : History} {s t : Session} {call : Call} {r : AdmissionReceipt}
    (account : Account es s r)
    (known : r ∈ admissions (es ++ [⟨s, call, t⟩]) ↔ r ∈ admissions es)
    (shrinks : (live t r).isSome = true → (live s r).isSome = true) :
    List.countP (leaves r) (es ++ [⟨s, call, t⟩]) + (if (live t r).isSome then 1 else 0) =
      if r ∈ admissions (es ++ [⟨s, call, t⟩]) then 1 else 0 := by
  have departs : leaves r ⟨s, call, t⟩ = ((live s r).isSome && !(live t r).isSome) := by
    simp [leaves]
  rw [countP_append_singleton, departs]
  simp only [known, ← account.leaves_once]
  revert shrinks
  generalize (live s r).isSome = before
  generalize (live t r).isSome = after
  cases before <;> cases after <;> simp

/-- An idle event that keeps the entry live, its flag and its part of the queue. -/
theorem Account.frame {es : History} {s t : Session} {call : Call} {r : AdmissionReceipt}
    (account : Account es s r) (idle : Idle r ⟨s, call, t⟩)
    (kept : (live t r).isSome = (live s r).isSome)
    (flag : ∀ entry', live t r = some entry' → ∃ entry, live s r = some entry ∧
      entry.terminalQueued = entry'.terminalQueued)
    (queue : (live s r).isSome = true →
      queueOf t.outbound r.timestamp = queueOf s.outbound r.timestamp ∧
        leasedQueue t r.timestamp = leasedQueue s r.timestamp) :
    Account (es ++ [⟨s, call, t⟩]) t r := by
  have known := mem_admissions_idle es idle
  have published : publishedFor r (es ++ [⟨s, call, t⟩]) = publishedFor r es := by
    rw [publishedFor_append, idle.published]; simp
  have handed : handedFor r (es ++ [⟨s, call, t⟩]) = handedFor r es := by
    rw [handedFor_append, idle.handed]; simp
  have sent : sentFor r (es ++ [⟨s, call, t⟩]) = sentFor r es := by
    rw [sentFor_append, idle.sent]; simp
  constructor
  · intro h
    exact known.mpr (account.origin (kept ▸ h))
  · intro h
    rw [published, sent, (queue (kept ▸ h)).1]
    exact account.conserve (kept ▸ h)
  · intro h
    rw [handed, sent, (queue (kept ▸ h)).2]
    exact account.outstanding (kept ▸ h)
  · rw [sent, handed]; exact account.sent_handed
  · rw [handed, published]; exact account.handed_published
  · rw [published]; exact account.one_terminal
  · intro entry' h open'
    obtain ⟨entry, hs, same⟩ := flag entry' h
    rw [published]
    exact account.unfinished entry hs (same.trans open')
  · intro h
    rw [published, sent, handed]
    exact account.unknown (fun hk => h (known.mpr hk))
  · exact account.leaves_step known (fun h => kept ▸ h)

/-- An idle event that takes the admission out of the in-flight set. -/
theorem Account.depart {es : History} {s t : Session} {call : Call} {r : AdmissionReceipt}
    (account : Account es s r) (idle : Idle r ⟨s, call, t⟩)
    (before : (live s r).isSome = true) (gone : live t r = none) :
    Account (es ++ [⟨s, call, t⟩]) t r := by
  have known := mem_admissions_idle es idle
  have published : publishedFor r (es ++ [⟨s, call, t⟩]) = publishedFor r es := by
    rw [publishedFor_append, idle.published]; simp
  have handed : handedFor r (es ++ [⟨s, call, t⟩]) = handedFor r es := by
    rw [handedFor_append, idle.handed]; simp
  have sent : sentFor r (es ++ [⟨s, call, t⟩]) = sentFor r es := by
    rw [sentFor_append, idle.sent]; simp
  constructor
  · intro h; rw [gone] at h; cases h
  · intro h; rw [gone] at h; cases h
  · intro h; rw [gone] at h; cases h
  · rw [sent, handed]; exact account.sent_handed
  · rw [handed, published]; exact account.handed_published
  · rw [published]; exact account.one_terminal
  · intro entry h; rw [gone] at h; cases h
  · intro h
    exact absurd (known.mpr (account.origin before)) h
  · exact account.leaves_step known (fun _ => before)

theorem idle_inert {s t : Session} {op : Op} {outcome : Outcome} (r : AdmissionReceipt)
    (h : outcome.inert = true) : Idle r ⟨s, ⟨op, outcome⟩, t⟩ := by
  cases outcome with
  | admitted result =>
    have none : result.receipt = none := by simpa [Outcome.inert] using h
    constructor <;> simp [publishedBy, handedBy, sentBy, completes, admittedBy, none]
  | published error =>
    have refused : error ≠ .none := of_decide_eq_true h
    constructor <;> simp [publishedBy, handedBy, sentBy, completes, admittedBy, refused]
  | began result =>
    obtain ⟨lease, error⟩ := result
    have none : lease = none := by simpa [Outcome.inert] using h
    constructor <;> simp [publishedBy, handedBy, sentBy, completes, admittedBy, none]
  | completed error =>
    have refused : error ≠ .none := of_decide_eq_true h
    constructor <;> simp [publishedBy, handedBy, sentBy, completes, admittedBy, refused]
  | _ => constructor <;> simp [publishedBy, handedBy, sentBy, completes, admittedBy]

/-- Replacing the entry of one timestamp by one of the same generation and flag. -/
theorem Account.update {es : History} {s t : Session} {call : Call} {r : AdmissionReceipt}
    {timestamp : Timestamp} {entry entry' : Entry} (account : Account es s r)
    (idle : Idle r ⟨s, call, t⟩) (owner : t.instanceId = s.instanceId)
    (entries : t.entries = s.entries.insert timestamp entry')
    (found : s.entries.find? timestamp = some entry)
    (generation : entry'.generation = entry.generation)
    (terminal : entry'.terminalQueued = entry.terminalQueued)
    (queue : t.outbound = s.outbound) (lease : t.activeLeaseId = s.activeLeaseId) :
    Account (es ++ [⟨s, call, t⟩]) t r := by
  have after := live_insert entry owner entries found generation r
  refine account.frame idle ?_ ?_ ?_
  · rw [after]; split <;> simp
  · intro e' he'
    rw [after] at he'
    split at he'
    · rename_i same
      obtain ⟨e, he, rfl⟩ := Option.map_eq_some_iff.mp he'
      refine ⟨e, he, ?_⟩
      have := (live_find he).2.1
      rw [same, found] at this
      rw [← Option.some.inj this, terminal]
    · exact ⟨e', he', rfl⟩
  · intro _
    simp only [leasedQueue, queue, lease, and_self]

theorem Account.admitCommand {es : History} {s t : Session} {call : Call} {r : AdmissionReceipt}
    {timestamp : Timestamp} {entry : Entry} (account : Account es s r) (inv : Invariant s)
    (idle : publishedBy r ⟨s, call, t⟩ = none ∧ handedBy r ⟨s, call, t⟩ = none ∧
      sentBy r ⟨s, call, t⟩ = none)
    (admitted : admittedBy ⟨s, call, t⟩ = some ⟨s.instanceId, timestamp, entry.generation⟩)
    (fresh : ⟨s.instanceId, timestamp, entry.generation⟩ ∉ admissions es)
    (owner : t.instanceId = s.instanceId)
    (entries : t.entries = s.entries.insert timestamp entry)
    (absent : s.entries.find? timestamp = none)
    (queue : t.outbound = s.outbound) (lease : t.activeLeaseId = s.activeLeaseId) :
    Account (es ++ [⟨s, call, t⟩]) t r := by
  have after := live_admitted owner entries absent r
  by_cases new : r = ⟨s.instanceId, timestamp, entry.generation⟩
  · subst new
    rw [if_pos rfl] at after
    obtain ⟨noPublished, noSent, noHanded⟩ := account.unknown fresh
    have published : publishedFor ⟨s.instanceId, timestamp, entry.generation⟩
        (es ++ [⟨s, call, t⟩]) = [] := by
      rw [publishedFor_append, idle.1, noPublished]; rfl
    have handed : handedFor ⟨s.instanceId, timestamp, entry.generation⟩
        (es ++ [⟨s, call, t⟩]) = [] := by
      rw [handedFor_append, idle.2.1, noHanded]; rfl
    have sent : sentFor ⟨s.instanceId, timestamp, entry.generation⟩
        (es ++ [⟨s, call, t⟩]) = [] := by
      rw [sentFor_append, idle.2.2, noSent]; rfl
    have known : ⟨s.instanceId, timestamp, entry.generation⟩ ∈
        admissions (es ++ [⟨s, call, t⟩]) := by
      rw [admissions_append, admitted]; simp
    -- no queued batch can carry the timestamp: it would need an entry
    have silent : queueOf s.outbound timestamp = [] := by
      refine List.eq_nil_iff_forall_not_mem.mpr (fun batch hb => ?_)
      obtain ⟨member, same⟩ := mem_queueOf.mp hb
      obtain ⟨old, hold, _⟩ := inv.batch_entry batch member
      rw [same, absent] at hold
      cases hold
    have unleased : leasedQueue s timestamp = [] := by
      unfold leasedQueue
      split
      · refine List.eq_nil_iff_forall_not_mem.mpr (fun batch hb => ?_)
        obtain ⟨member, same⟩ := mem_queueOf.mp hb
        have := mem_queueOf.mpr ⟨List.mem_of_mem_take member, same⟩
        rw [silent] at this
        cases this
      · rfl
    have once := account.leaves_once
    rw [if_neg fresh] at once
    constructor
    · intro _; exact known
    · intro _; rw [published, sent, queue, silent]; rfl
    · intro _
      rw [handed, sent]
      simpa [leasedQueue, queue, lease] using unleased
    · rw [sent]; exact List.nil_prefix
    · rw [handed]; exact List.nil_prefix
    · rw [published]; simp
    · intro _ _ _; rw [published]; simp
    · intro h; exact absurd known h
    · have stays : leaves ⟨s.instanceId, timestamp, entry.generation⟩ ⟨s, call, t⟩ = false := by
        simp [leaves, after]
      rw [countP_append_singleton, stays, after, if_pos known]
      simp only [Option.isSome_some, if_true, Bool.false_eq_true, if_false]
      omega
  · rw [if_neg new] at after
    have idle' : Idle r ⟨s, call, t⟩ :=
      ⟨idle.1, idle.2.1, idle.2.2, fun h => new (Option.some.inj (h.symm.trans admitted))⟩
    refine account.frame idle' (by rw [after]) (fun e' he' => ⟨e', after ▸ he', rfl⟩) ?_
    intro _
    simp only [leasedQueue, queue, lease, and_self]

theorem leasedQueue_enqueue {s : Session} (inv : Invariant s) (entry : Entry)
    (batch : OutboundBatch) (timestamp : Timestamp) :
    leasedQueue (enqueue s entry batch) timestamp = leasedQueue s timestamp := by
  unfold leasedQueue
  show (if s.activeLeaseId.isSome = true then
    queueOf ((s.outbound ++ [batch]).take 1) timestamp else []) = _
  by_cases active : s.activeLeaseId.isSome = true
  · rw [if_pos active, if_pos active, List.take_append_of_le_length]
    exact List.length_pos_of_ne_nil (inv.lease_queue active)
  · rw [if_neg active, if_neg active]

theorem Account.publish {es : History} {s : Session} {r receipt : AdmissionReceipt}
    {entry : Entry} {batch : OutboundBatch} (account : Account es s r) (inv : Invariant s)
    (same : receipt.timestamp = batch.timestamp) (found : live s receipt = some entry)
    (fits : Admissible s entry batch) :
    Account (es ++ [⟨s, ⟨.publish receipt batch, .published .none⟩, enqueue s entry batch⟩])
      (enqueue s entry batch) r := by
  obtain ⟨owner, place, generation⟩ := live_find found
  have after : live (enqueue s entry batch) r = if r.timestamp = batch.timestamp then
      (live s r).map (fun _ => { entry with
        responseQueued := true
        terminalQueued := entry.terminalQueued || batch.terminal })
      else live s r := by
    refine live_insert (s := s) (t := enqueue s entry batch) entry rfl rfl ?_ rfl r
    exact same ▸ place
  by_cases mine : r = receipt
  · subst mine
    rw [if_pos same, found] at after
    have isLive : (live s r).isSome = true := by rw [found]; rfl
    have published : publishedFor r (es ++ [⟨s, ⟨.publish r batch, .published .none⟩,
        enqueue s entry batch⟩]) = publishedFor r es ++ [batch] := by
      rw [publishedFor_append]; simp [publishedBy]
    have handed : handedFor r (es ++ [⟨s, ⟨.publish r batch, .published .none⟩,
        enqueue s entry batch⟩]) = handedFor r es := by
      rw [handedFor_append]; simp [handedBy]
    have sent : sentFor r (es ++ [⟨s, ⟨.publish r batch, .published .none⟩,
        enqueue s entry batch⟩]) = sentFor r es := by
      rw [sentFor_append]; simp [sentBy, completes]
    have known : r ∈ admissions (es ++ [⟨s, ⟨.publish r batch, .published .none⟩,
        enqueue s entry batch⟩]) := by
      rw [admissions_append]; exact List.mem_append_left _ (account.origin isLive)
    have open' := account.unfinished entry found fits.unfinished
    constructor
    · intro _; exact known
    · intro _
      rw [published, sent, account.conserve isLive, List.append_assoc]
      simp only [enqueue, queueOf_append, if_pos same.symm]
    · intro _
      rw [handed, sent, account.outstanding isLive, leasedQueue_enqueue inv]
    · rw [sent, handed]; exact account.sent_handed
    · rw [handed, published]
      exact account.handed_published.trans (List.prefix_append _ _)
    · rw [published, List.dropLast_concat]; exact open'
    · intro entry' he' unfinished
      rw [after] at he'
      cases Option.some.inj he'
      simp only [Bool.or_eq_false_iff] at unfinished
      rw [published]
      intro b hb
      rcases List.mem_append.mp hb with hb | hb
      · exact open' b hb
      · rw [List.mem_singleton.mp hb]; exact unfinished.2
    · intro h; exact absurd known h
    · exact account.leaves_step (iff_of_true known (account.origin isLive)) (fun _ => isLive)
  · have idle : Idle r ⟨s, ⟨.publish receipt batch, .published .none⟩,
        enqueue s entry batch⟩ :=
      ⟨if_neg (Ne.symm mine), rfl, rfl, by simp [admittedBy]⟩
    -- another receipt with this timestamp is stale, so its queue is nobody's
    have other : (live s r).isSome = true → batch.timestamp ≠ r.timestamp := by
      intro isLive clash
      obtain ⟨e, he⟩ := Option.isSome_iff_exists.mp isLive
      obtain ⟨owner', place', generation'⟩ := live_find he
      rw [← clash, ← same, place] at place'
      cases Option.some.inj place'
      apply mine
      cases r
      cases receipt
      simp_all
    refine account.frame idle ?_ ?_ ?_
    · rw [after]; split <;> simp
    · intro e' he'
      rw [after] at he'
      split at he'
      · rename_i clash
        obtain ⟨e, he, _⟩ := Option.map_eq_some_iff.mp he'
        exact absurd clash.symm (other (by rw [he]; rfl))
      · exact ⟨e', he', rfl⟩
    · intro isLive
      exact ⟨by simp only [enqueue, queueOf_append, if_neg (other isLive)],
        leasedQueue_enqueue inv entry batch r.timestamp⟩

theorem belongs_not_live {s : Session} {r : AdmissionReceipt} (h : (live s r).isSome = false)
    (batch : OutboundBatch) : belongs r s batch = false := by
  simp [belongs, h]

/-- What a hand-out or a completion adds to the books of a live admission. -/
theorem filter_belongs {s : Session} {r : AdmissionReceipt} (h : (live s r).isSome = true)
    (batch : OutboundBatch) :
    ((some batch).filter (belongs r s)).toList = queueOf [batch] r.timestamp := by
  by_cases same : batch.timestamp = r.timestamp <;>
    simp [belongs, queueOf, Option.filter, h, same]

theorem Account.lease {es : History} {s t : Session} {r : AdmissionReceipt} {id : SendLeaseId}
    {front : OutboundBatch} {rest : List OutboundBatch} (account : Account es s r)
    (owner : t.instanceId = s.instanceId) (entries : t.entries = s.entries)
    (idle : s.activeLeaseId = none) (active : t.activeLeaseId = some id)
    (queue : s.outbound = front :: rest) (queue' : t.outbound = s.outbound) :
    Account (es ++ [⟨s, ⟨.beginSend, .began ⟨some ⟨id, front⟩, .none⟩⟩, t⟩]) t r := by
  have after := live_congr owner entries r
  cases isLive : (live s r).isSome with
  | false =>
    refine account.frame ?_ (by rw [after]) (fun e' he' => ⟨e', after ▸ he', rfl⟩) ?_
    · constructor <;>
        simp [publishedBy, handedBy, sentBy, completes, admittedBy, belongs_not_live isLive]
    · intro h; rw [isLive] at h; cases h
  | true =>
    have published : publishedFor r (es ++ [⟨s, ⟨.beginSend,
        .began ⟨some ⟨id, front⟩, .none⟩⟩, t⟩]) = publishedFor r es := by
      rw [publishedFor_append]; simp [publishedBy]
    have sent : sentFor r (es ++ [⟨s, ⟨.beginSend, .began ⟨some ⟨id, front⟩, .none⟩⟩, t⟩]) =
        sentFor r es := by
      rw [sentFor_append]; simp [sentBy, completes]
    have handed : handedFor r (es ++ [⟨s, ⟨.beginSend, .began ⟨some ⟨id, front⟩, .none⟩⟩, t⟩]) =
        sentFor r es ++ queueOf [front] r.timestamp := by
      have before := account.outstanding isLive
      rw [leasedQueue, idle, Option.isSome_none, if_neg Bool.false_ne_true,
        List.append_nil] at before
      rw [handedFor_append, before]
      exact congrArg _ (filter_belongs isLive front)
    have known : r ∈ admissions (es ++ [⟨s, ⟨.beginSend,
        .began ⟨some ⟨id, front⟩, .none⟩⟩, t⟩]) ↔ r ∈ admissions es := by
      rw [admissions_append]; simp [admittedBy]
    constructor
    · intro _; exact known.mpr (account.origin isLive)
    · intro _; rw [published, sent, queue']; exact account.conserve isLive
    · intro _
      rw [handed, sent, leasedQueue, active, Option.isSome_some, if_pos rfl, queue', queue]
      rfl
    · rw [sent, handed]; exact List.prefix_append _ _
    · rw [handed, published, account.conserve isLive, queue]
      refine List.prefix_append_right_inj _ |>.mpr ?_
      exact (List.prefix_append [front] rest).filter _
    · rw [published]; exact account.one_terminal
    · intro entry he; rw [published]; exact account.unfinished entry (after ▸ he)
    · intro h; exact absurd (known.mpr (account.origin isLive)) h
    · exact account.leaves_step known (fun _ => isLive)

theorem Account.complete {es : History} {s t : Session} {r : AdmissionReceipt}
    {lease : SendLease} {batch : OutboundBatch} {rest : List OutboundBatch}
    (account : Account es s r) (owner : t.instanceId = s.instanceId)
    (entries : t.entries =
      if batch.terminal then s.entries.erase batch.timestamp else s.entries)
    (active : s.activeLeaseId = some lease.id) (idle : t.activeLeaseId = none)
    (queue : s.outbound = batch :: rest) (queue' : t.outbound = rest) :
    Account (es ++ [⟨s, ⟨.completeSend lease, .completed .none⟩, t⟩]) t r := by
  have after : ∀ entry, live t r = some entry → live s r = some entry := by
    intro entry he
    cases terminal : batch.terminal with
    | true =>
      rw [terminal, if_pos rfl] at entries
      rw [live_erase owner entries r] at he
      split at he
      · cases he
      · exact he
    | false =>
      rw [terminal, if_neg Bool.false_ne_true] at entries
      exact live_congr owner entries r ▸ he
  have shrinks : (live t r).isSome = true → (live s r).isSome = true := by
    intro h
    obtain ⟨entry, he⟩ := Option.isSome_iff_exists.mp h
    rw [after entry he]; rfl
  cases isLive : (live s r).isSome with
  | false =>
    have gone : (live t r).isSome = false := by
      by_contra h
      rw [shrinks ((Bool.not_eq_false _).mp h)] at isLive
      cases isLive
    refine account.frame ?_ (by rw [gone, isLive]) ?_ ?_
    · constructor <;>
        simp [publishedBy, handedBy, sentBy, completes, admittedBy, queue,
          belongs_not_live isLive]
    · intro e' he'; exact ⟨e', after e' he', rfl⟩
    · intro h; rw [isLive] at h; cases h
  | true =>
    have published : publishedFor r (es ++ [⟨s, ⟨.completeSend lease, .completed .none⟩, t⟩]) =
        publishedFor r es := by
      rw [publishedFor_append]; simp [publishedBy]
    have handed : handedFor r (es ++ [⟨s, ⟨.completeSend lease, .completed .none⟩, t⟩]) =
        handedFor r es := by
      rw [handedFor_append]; simp [handedBy]
    have sent : sentFor r (es ++ [⟨s, ⟨.completeSend lease, .completed .none⟩, t⟩]) =
        sentFor r es ++ queueOf [batch] r.timestamp := by
      rw [sentFor_append, ← filter_belongs isLive]
      simp [sentBy, completes, queue]
    have known : r ∈ admissions (es ++ [⟨s, ⟨.completeSend lease, .completed .none⟩, t⟩]) ↔
        r ∈ admissions es := by
      rw [admissions_append]; simp [admittedBy]
    have lent : handedFor r es = sentFor r es ++ queueOf [batch] r.timestamp := by
      rw [account.outstanding isLive, leasedQueue, active, Option.isSome_some, if_pos rfl, queue]
      rfl
    constructor
    · intro _; exact known.mpr (account.origin isLive)
    · intro _
      rw [published, sent, queue', account.conserve isLive, queue, List.append_assoc]
      exact congrArg _ (List.filter_append [batch] rest)
    · intro _
      rw [handed, sent, lent, leasedQueue, idle]
      simp
    · rw [sent, handed, lent]
    · rw [handed, published]; exact account.handed_published
    · rw [published]; exact account.one_terminal
    · intro entry he; rw [published]; exact account.unfinished entry (after entry he)
    · intro h; exact absurd (known.mpr (account.origin isLive)) h
    · exact account.leaves_step known (fun _ => isLive)

/-- Whatever an idle event removes from the in-flight set, the books follow. -/
theorem Account.remove {es : History} {s t : Session} {call : Call} {r : AdmissionReceipt}
    (account : Account es s r) (idle : Idle r ⟨s, call, t⟩)
    (either : live t r = none ∨ live t r = live s r ∧ t.outbound = s.outbound ∧
      t.activeLeaseId = s.activeLeaseId) :
    Account (es ++ [⟨s, call, t⟩]) t r := by
  rcases either with gone | ⟨same, queue, lease⟩
  · cases isLive : (live s r).isSome with
    | true => exact account.depart idle isLive gone
    | false =>
      refine account.frame idle (by rw [isLive, gone]; rfl) ?_ ?_
      · intro e' he'; rw [gone] at he'; cases he'
      · intro h; rw [isLive] at h; cases h
  · refine account.frame idle (by rw [same]) (fun e' he' => ⟨e', same ▸ he', rfl⟩) ?_
    intro _
    simp only [leasedQueue, queue, lease, and_self]

end Baas.TriggerSession
