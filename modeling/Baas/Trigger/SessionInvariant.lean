import Mathlib.Algebra.GroupWithZero.Nat
import Baas.Trigger.SessionStep

/-! What holds in every reachable session, whatever the arguments of the calls. -/
namespace Baas.TriggerSession

open Transition

abbrev History := List (Event Session Call)

/-- The queued batches of one timestamp, in queue order. -/
def queueOf (outbound : List OutboundBatch) (timestamp : Timestamp) : List OutboundBatch :=
  outbound.filter (fun batch => batch.timestamp = timestamp)

structure Invariant (s : Session) : Prop where
  bytes_sum : s.queuedBytes = (s.outbound.map batchBytes).sum
  bytes_bound : s.queuedBytes ≤ s.limits.maxQueuedBytes
  batches_bound : s.outbound.length ≤ s.limits.maxQueuedBatches
  entries_bound : s.entries.size ≤ s.limits.maxInFlight
  lease_queue : s.activeLeaseId.isSome = true → s.outbound ≠ []
  batch_entry : ∀ batch ∈ s.outbound, ∃ entry, s.entries.find? batch.timestamp = some entry ∧
    entry.command = batch.command ∧ entry.responseMode = batch.responseMode ∧
      entry.responseQueued = true
  terminal_last : ∀ timestamp, ∀ batch ∈ (queueOf s.outbound timestamp).dropLast,
    batch.terminal = false
  terminal_flag : ∀ timestamp entry, s.entries.find? timestamp = some entry →
    (entry.terminalQueued = true ↔ ∃ batch ∈ queueOf s.outbound timestamp, batch.terminal = true)

/-- The leases handed out so far, oldest first. -/
def handed (es : History) : List SendLease :=
  es.filterMap (fun e => match e.label.outcome with
    | .began result => result.lease
    | _ => none)

/-- The active lease is the newest one handed out, and its batch is the queue's front. -/
def LeasesFront (es : History) (s : Session) : Prop :=
  ∀ id, s.activeLeaseId = some id →
    ∃ front rest, s.outbound = front :: rest ∧ (handed es).getLast? = some ⟨id, front⟩

theorem live_find {s : Session} {receipt : AdmissionReceipt} {entry : Entry}
    (h : live s receipt = some entry) :
    receipt.ownerId = s.instanceId ∧ s.entries.find? receipt.timestamp = some entry ∧
      entry.generation = receipt.generation := by
  unfold live at h
  split at h
  · cases h
  rename_i owner
  obtain ⟨found, generation⟩ := Option.filter_eq_some_iff.mp h
  exact ⟨not_not.mp owner, found, of_decide_eq_true generation⟩

/-- What a batch that passed every check of `publish` satisfies. -/
structure Admissible (s : Session) (entry : Entry) (batch : OutboundBatch) : Prop where
  command : entry.command = batch.command
  mode : entry.responseMode = batch.responseMode
  unfinished : entry.terminalQueued = false
  single : entry.responseMode = .single → batch.terminal = true
  failure : batch.status ≠ .ok → batch.terminal = true
  cancelled : entry.cancelRequested = true → batch.status = .cancelled
  count : s.outbound.length < s.limits.maxQueuedBatches
  bytes : batchBytes batch + s.queuedBytes ≤ s.limits.maxQueuedBytes

theorem publishObstacle_none {s : Session} {entry : Entry} {batch : OutboundBatch}
    (h : publishObstacle s entry batch = .none) : Admissible s entry batch := by
  unfold publishObstacle at h
  split at h
  · cases h
  rename_i command
  split at h
  · cases h
  rename_i mode
  split at h
  · cases h
  rename_i unfinished
  split at h
  · cases h
  rename_i single
  split at h
  · cases h
  rename_i failure
  split at h
  · cases h
  rename_i cancelled
  split at h
  · cases h
  rename_i count
  split at h
  · cases h
  rename_i bytes
  refine ⟨not_not.mp command, not_not.mp mode, by simpa using unfinished, ?_, ?_, ?_,
    Nat.lt_of_not_ge count, by omega⟩
  · intro hs; by_contra ht; exact single ⟨hs, by simpa using ht⟩
  · intro hs; by_contra ht; exact failure ⟨hs, by simpa using ht⟩
  · intro hs; by_contra ht; exact cancelled ⟨hs, ht⟩

theorem queueOf_append (outbound : List OutboundBatch) (batch : OutboundBatch)
    (timestamp : Timestamp) :
    queueOf (outbound ++ [batch]) timestamp =
      if batch.timestamp = timestamp then queueOf outbound timestamp ++ [batch]
      else queueOf outbound timestamp := by
  unfold queueOf
  rw [List.filter_append]
  split <;> simp_all

theorem queueOf_cons (batch : OutboundBatch) (rest : List OutboundBatch)
    (timestamp : Timestamp) :
    queueOf (batch :: rest) timestamp =
      if batch.timestamp = timestamp then batch :: queueOf rest timestamp
      else queueOf rest timestamp := by
  unfold queueOf
  split <;> simp_all

theorem mem_queueOf {outbound : List OutboundBatch} {timestamp : Timestamp}
    {batch : OutboundBatch} :
    batch ∈ queueOf outbound timestamp ↔ batch ∈ outbound ∧ batch.timestamp = timestamp := by
  simp [queueOf]

theorem mem_dropLast_cons {α : Type*} {a b : α} {l : List α} (h : b ∈ l.dropLast) :
    b ∈ (a :: l).dropLast := by
  cases l with
  | nil => cases h
  | cons c l => exact List.mem_cons_of_mem _ h

/-- A queued terminal is alone at the end of its timestamp's queue. -/
theorem Invariant.front_terminal {s : Session} (inv : Invariant s) {batch : OutboundBatch}
    {rest : List OutboundBatch} (queue : s.outbound = batch :: rest)
    (terminal : batch.terminal = true) : queueOf rest batch.timestamp = [] := by
  have last := inv.terminal_last batch.timestamp batch
  rw [queue, queueOf_cons, if_pos rfl] at last
  cases later : queueOf rest batch.timestamp with
  | nil => rfl
  | cons next others =>
    rw [later] at last
    have impossible := last List.mem_cons_self
    rw [terminal] at impossible
    cases impossible

theorem Invariant.initial (limits : TriggerSessionLimits) (instanceId : Nat) :
    Invariant { limits, instanceId } := by
  constructor <;> simp [queueOf]

/-- Replacing a live entry by one with the same response keeps the invariant. -/
theorem Invariant.update_entry {s : Session} (inv : Invariant s) {timestamp : Timestamp}
    {entry entry' : Entry} (found : s.entries.find? timestamp = some entry)
    (command : entry'.command = entry.command) (mode : entry'.responseMode = entry.responseMode)
    (queued : entry'.responseQueued = entry.responseQueued)
    (terminal : entry'.terminalQueued = entry.terminalQueued) (counters : Counters) :
    Invariant { s with entries := s.entries.insert timestamp entry', counters } := by
  refine { inv with entries_bound := ?_, batch_entry := ?_, terminal_flag := ?_ }
  · show (s.entries.insert timestamp entry').size ≤ _
    rw [OrderedMap.size_insert, found, Option.isSome_some, if_pos rfl]
    exact inv.entries_bound
  · intro batch hb
    obtain ⟨old, hold, hc, hm, hq⟩ := inv.batch_entry batch hb
    simp only [OrderedMap.find?_insert]
    split
    · rename_i same
      cases Option.some.inj ((same ▸ hold).symm.trans found)
      exact ⟨entry', rfl, command.trans hc, mode.trans hm, queued.trans hq⟩
    · exact ⟨old, hold, hc, hm, hq⟩
  · intro t e he
    simp only [OrderedMap.find?_insert] at he
    split at he
    · rename_i same
      cases Option.some.inj he
      rw [terminal]
      exact inv.terminal_flag t entry (same ▸ found)
    · exact inv.terminal_flag t e he

theorem Invariant.admitCommand {s : Session} (inv : Invariant s) (timestamp : Timestamp)
    (entry : Entry) (absent : s.entries.find? timestamp = none)
    (room : s.entries.size < s.limits.maxInFlight) (fresh : entry.terminalQueued = false)
    (generation : Nat) (counters : Counters) :
    Invariant { s with
      nextAdmissionGeneration := generation
      entries := s.entries.insert timestamp entry
      counters } := by
  have silent : ∀ batch ∈ s.outbound, batch.timestamp ≠ timestamp := by
    intro batch hb same
    obtain ⟨old, hold, _⟩ := inv.batch_entry batch hb
    rw [same, absent] at hold
    cases hold
  refine { inv with entries_bound := ?_, batch_entry := ?_, terminal_flag := ?_ }
  · show (s.entries.insert timestamp entry).size ≤ _
    rw [OrderedMap.size_insert, absent]
    exact room
  · intro batch hb
    simp only [OrderedMap.find?_insert, if_neg (Ne.symm (silent batch hb))]
    exact inv.batch_entry batch hb
  · intro t e he
    simp only [OrderedMap.find?_insert] at he
    split at he
    · rename_i same
      cases Option.some.inj he
      constructor
      · intro h; rw [fresh] at h; cases h
      · rintro ⟨batch, hb, _⟩
        obtain ⟨hb, ht⟩ := mem_queueOf.mp hb
        exact absurd (ht.trans same.symm) (silent batch hb)
    · exact inv.terminal_flag t e he

theorem Invariant.rollback {s : Session} (inv : Invariant s) {timestamp : Timestamp}
    {entry : Entry} (found : s.entries.find? timestamp = some entry)
    (idle : entry.responseQueued = false) (counters : Counters) :
    Invariant { s with entries := s.entries.erase timestamp, counters } := by
  have silent : ∀ batch ∈ s.outbound, timestamp ≠ batch.timestamp := by
    intro batch hb same
    obtain ⟨old, hold, _, _, hq⟩ := inv.batch_entry batch hb
    rw [← same, found] at hold
    cases Option.some.inj hold
    rw [idle] at hq
    cases hq
  refine { inv with entries_bound := ?_, batch_entry := ?_, terminal_flag := ?_ }
  · exact Nat.le_trans (OrderedMap.size_erase_le _ _) inv.entries_bound
  · intro batch hb
    simp only [OrderedMap.find?_erase, if_neg (silent batch hb)]
    exact inv.batch_entry batch hb
  · intro t e he
    simp only [OrderedMap.find?_erase] at he
    split at he
    · cases he
    · exact inv.terminal_flag t e he

theorem Invariant.enqueue {s : Session} (inv : Invariant s) {entry : Entry}
    {batch : OutboundBatch} (found : s.entries.find? batch.timestamp = some entry)
    (fits : Admissible s entry batch) : Invariant (enqueue s entry batch) := by
  -- the entry had no terminal queued, so every queued batch of the timestamp continues
  have continues : ∀ b ∈ queueOf s.outbound batch.timestamp, b.terminal = false := by
    intro b hb
    by_contra ht
    have := (inv.terminal_flag _ _ found).mpr ⟨b, hb, by simpa using ht⟩
    rw [fits.unfinished] at this
    cases this
  constructor
  · simp [TriggerSession.enqueue, inv.bytes_sum]
  · have := fits.bytes
    simp only [TriggerSession.enqueue]
    omega
  · have := fits.count
    simp only [TriggerSession.enqueue, List.length_append, List.length_singleton]
    omega
  · simp only [TriggerSession.enqueue, OrderedMap.size_insert, found, Option.isSome_some, if_true]
    exact inv.entries_bound
  · intro _
    simp [TriggerSession.enqueue]
  · intro b hb
    simp only [TriggerSession.enqueue, OrderedMap.find?_insert]
    split
    · rename_i same
      rcases List.mem_append.mp hb with hb | hb
      · obtain ⟨old, hold, hc, hm, _⟩ := inv.batch_entry b hb
        cases Option.some.inj ((same ▸ hold).symm.trans found)
        exact ⟨_, rfl, hc, hm, rfl⟩
      · cases List.mem_singleton.mp hb
        exact ⟨_, rfl, fits.command, fits.mode, rfl⟩
    · rename_i other
      rcases List.mem_append.mp hb with hb | hb
      · exact inv.batch_entry b hb
      · cases List.mem_singleton.mp hb
        exact absurd rfl other
  · intro t b hb
    simp only [TriggerSession.enqueue, queueOf_append] at hb
    split at hb
    · rename_i same
      rw [List.dropLast_concat] at hb
      exact continues b (same ▸ hb)
    · exact inv.terminal_last t b hb
  · intro t e he
    simp only [TriggerSession.enqueue, OrderedMap.find?_insert] at he
    simp only [TriggerSession.enqueue, queueOf_append]
    split at he
    · rename_i same
      subst same
      cases Option.some.inj he
      simp only [fits.unfinished, Bool.false_or, if_true]
      constructor
      · intro ht
        exact ⟨batch, List.mem_append_right _ List.mem_cons_self, ht⟩
      · rintro ⟨b, hb, ht⟩
        rcases List.mem_append.mp hb with hb | hb
        · rw [continues b hb] at ht; cases ht
        · rw [← List.mem_singleton.mp hb]; exact ht
    · rename_i other
      rw [if_neg other]
      exact inv.terminal_flag t e he

theorem Invariant.complete {s : Session} (inv : Invariant s) {batch : OutboundBatch}
    {rest : List OutboundBatch} (queue : s.outbound = batch :: rest) (counters : Counters) :
    Invariant { s with
      queuedBytes := s.queuedBytes - batchBytes batch
      entries := if batch.terminal then s.entries.erase batch.timestamp else s.entries
      outbound := rest
      activeLeaseId := none
      counters } := by
  have total := inv.bytes_sum
  rw [queue, List.map_cons, List.sum_cons] at total
  have bound := inv.bytes_bound
  have count := inv.batches_bound
  rw [queue, List.length_cons] at count
  constructor
  · dsimp only
    omega
  · dsimp only
    omega
  · dsimp only
    omega
  · dsimp only
    split
    · exact Nat.le_trans (OrderedMap.size_erase_le _ _) inv.entries_bound
    · exact inv.entries_bound
  · intro h; cases h
  · intro b hb
    have kept := inv.batch_entry b (queue ▸ List.mem_cons_of_mem _ hb)
    dsimp only
    split
    · rename_i terminal
      have other : batch.timestamp ≠ b.timestamp := by
        intro same
        have gone := inv.front_terminal queue terminal
        rw [same] at gone
        exact List.not_mem_nil (gone ▸ mem_queueOf.mpr ⟨hb, rfl⟩)
      rw [OrderedMap.find?_erase_ne _ other]
      exact kept
    · exact kept
  · intro t b hb
    have last := inv.terminal_last t b
    rw [queue, queueOf_cons] at last
    split at last
    · exact last (mem_dropLast_cons hb)
    · exact last hb
  · intro t e he
    dsimp only at he
    by_cases same : batch.timestamp = t
    · subst same
      split at he
      · rw [OrderedMap.find?_erase_self] at he
        cases he
      · rename_i continues
        have flag := inv.terminal_flag _ _ he
        rw [queue, queueOf_cons, if_pos rfl] at flag
        rw [flag]
        simp [continues]
    · have old : s.entries.find? t = some e := by
        split at he
        · rwa [OrderedMap.find?_erase_ne _ same] at he
        · exact he
      have flag := inv.terminal_flag t e old
      rwa [queue, queueOf_cons, if_neg same] at flag

theorem Invariant.step {s t : Session} {call : Call} (inv : Invariant s)
    (h : sessionSystem.step s call t) : Invariant t := by
  obtain ⟨op, outcome⟩ := call
  cases step_effect h with
  | quiet _ _ counters _ => exact { inv with }
  | admitCommand command counters _ absent room _ => exact inv.admitCommand _ _ absent room rfl _ counters
  | rollback receipt entry counters _ found idle =>
    exact inv.rollback (live_find found).2.1 idle counters
  | cancel timestamp entry counters _ found _ _ =>
    refine inv.update_entry found ?_ ?_ ?_ ?_ counters <;> rfl
  | claim receipt entry _ found _ _ =>
    refine inv.update_entry (live_find found).2.1 ?_ ?_ ?_ ?_ s.counters <;> rfl
  | publish receipt entry batch _ same found clear =>
    exact inv.enqueue (same ▸ (live_find found).2.1) (publishObstacle_none clear)
  | lease front rest counters _ _ queue =>
    exact { inv with lease_queue := fun _ => by simp [queue] }
  | complete lease batch rest counters _ _ queue => exact inv.complete queue counters
  | empty lease _ _ => exact inv
  | shut _ _ counters _ _ => constructor <;> simp [queueOf]

theorem invariant_of_run {es : History} {s : Session} (run : Run sessionSystem es s) :
    Invariant s := by
  refine run.invariant _ ?_ (fun _ _ _ => Invariant.step)
  rintro s ⟨limits, instanceId, _, rfl⟩
  exact .initial limits instanceId

theorem handed_append (es : History) (e : Event Session Call) :
    handed (es ++ [e]) = handed es ++ handed [e] := List.filterMap_append

theorem handed_inert {s t : Session} {op : Op} {outcome : Outcome} (h : outcome.inert = true) :
    handed [⟨s, ⟨op, outcome⟩, t⟩] = [] := by
  cases outcome with
  | began result => simpa [handed, Outcome.inert] using h
  | _ => rfl

theorem leasesFront_of_run {es : History} {s : Session} (run : Run sessionSystem es s) :
    LeasesFront es s := by
  refine run.history LeasesFront ?_ ?_
  · rintro s ⟨limits, instanceId, _, rfl⟩ id h
    cases h
  · rintro es s ⟨op, outcome⟩ t _ inv h id active
    rw [handed_append]
    cases step_effect h with
    | quiet _ _ counters refused =>
      rw [handed_inert refused, List.append_nil]
      exact inv id active
    | publish receipt entry batch _ _ _ _ =>
      obtain ⟨front, rest, queue, newest⟩ := inv id active
      exact ⟨front, rest ++ [batch], by simp [enqueue, queue], by simpa [handed] using newest⟩
    | lease front rest counters _ _ queue =>
      cases Option.some.inj active
      exact ⟨front, rest, queue, by simp [handed]⟩
    | complete | shut => cases active
    | admitCommand | rollback | cancel | claim | empty => simpa [handed] using inv id active

/-- The session's bookkeeping is exact in every state that any calls can reach. -/
theorem session_bookkeeping {es : History} {s : Session} (run : Run sessionSystem es s) :
    Invariant s ∧ LeasesFront es s :=
  ⟨invariant_of_run run, leasesFront_of_run run⟩

def sampleSession : Session := { limits := {}, instanceId := 1 }

def sampleAdmission : CommandAdmission := ⟨[97], 7, none, 0, 0, .stream⟩

def sampleReceipt : AdmissionReceipt := ⟨1, 7, 1⟩

def sampleBatch (terminal : Bool) : OutboundBatch :=
  ⟨[97], 7, .ok, .stream, terminal, [123, 125], false, []⟩

theorem session_bookkeeping_leased :
    let played := play perform sampleSession
      [.admitCommand sampleAdmission, .publish sampleReceipt (sampleBatch false), .beginSend,
        .publish sampleReceipt (sampleBatch true)]
    played.2.activeLeaseId = some 1 ∧ played.2.outbound.length = 2 ∧
      Invariant played.2 ∧ LeasesFront played.1 played.2 := by
  refine ⟨by decide, by decide, ?_⟩
  exact session_bookkeeping (run_play perform_step _ ⟨{}, 1, by decide, rfl⟩)

end Baas.TriggerSession
