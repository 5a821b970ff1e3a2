import Baas.Lib.Rotation
import Baas.Script.HeapRun

/-! The order in which the release queue serves its records.
A record is named when it is queued. The names follow the records through the queue,
so that two equal records stay apart. -/
namespace Baas.Script

open Rotation

/-- What happens to the release queue. -/
inductive QueueOp
  | lease (dispatcher : Bool)
  | acknowledge (dispatcher : Bool) (leaseId : Nat)
  | retry (dispatcher : Bool) (leaseId : Nat)
  | defer (dispatcher : Bool) (leaseId : Nat)
  /-- An open handle is closed or swept. -/
  | queue (metadata : HostHandleMetadata)
  /-- The records are handed over as a whole. -/
  | drain
  /-- Anything that leaves the queue as it is. -/
  | elsewhere (heap : Heap)

/-- The heap with a name for every position of its release queue. -/
structure NamedQueue where
  heap : Heap
  names : List Nat
  next : Nat

namespace NamedQueue

def guarded {α : Type} (dispatcher : Bool) (refused : α) (operation : Heap → Heap × α) (h : Heap) :
    Heap × α :=
  if dispatcher then operation h else outsideBoundary refused operation h

/-- The heap after an operation on its queue, and whether the operation was accepted. -/
def perform (h : Heap) : QueueOp → Heap × Bool
  | .lease dispatcher =>
    let outcome := guarded dispatcher none leaseHostReleaseForDispatcher h
    (outcome.1, outcome.2.isSome)
  | .acknowledge dispatcher leaseId =>
    guarded dispatcher false (acknowledgeHostReleaseForDispatcher leaseId) h
  | .retry dispatcher leaseId =>
    guarded dispatcher false (retryHostReleaseForDispatcher leaseId) h
  | .defer dispatcher leaseId =>
    guarded dispatcher false (deferHostReleaseForDispatcher leaseId) h
  | .queue metadata => (queueHostRelease metadata h, !metadata.closed)
  | .drain => ({ compactReleaseQueue (endLease h) with releaseQueue := [] }, true)
  | .elsewhere other =>
    ({ other with
        releaseQueue := h.releaseQueue
        releaseHead := h.releaseHead
        releaseCursor := h.releaseCursor
        activeReleaseIndex := h.activeReleaseIndex
        activeReleaseLeaseId := h.activeReleaseLeaseId
        releaseLeaseActive := h.releaseLeaseActive }, true)

/-- Where the names go in an accepted operation. -/
def rename (s : NamedQueue) : QueueOp → List Nat
  | .acknowledge _ _ =>
    if s.heap.releaseHead + 1 = s.names.length then []
    else swap s.heap.activeReleaseIndex s.heap.releaseHead s.names
  | .queue _ =>
    if s.heap.releaseHead ≠ 0 then s.names.set (s.heap.releaseHead - 1) s.next
    else s.names ++ [s.next]
  | .drain => []
  | _ => s.names

def step (s : NamedQueue) (op : QueueOp) : NamedQueue :=
  let outcome := perform s.heap op
  ⟨outcome.1, if outcome.2 then s.rename op else s.names, s.next + 1⟩

def run (s : NamedQueue) (ops : List QueueOp) : NamedQueue := ops.foldl step s

/-- The name of the record that an operation leases. -/
def leased (s : NamedQueue) : QueueOp → Option Nat
  | .lease dispatcher =>
    if (perform s.heap (.lease dispatcher)).2 then
      s.names[(perform s.heap (.lease dispatcher)).1.activeReleaseIndex]?
    else none
  | _ => none

def pending (s : NamedQueue) : List Nat := s.names.drop s.heap.releaseHead

/-- The cursor, or the head when the cursor is on no pending record. -/
def restart (h : Heap) : Nat :=
  if h.releaseCursor < h.releaseHead ∨ h.releaseCursor ≥ h.releaseQueue.length then
    h.releaseHead
  else h.releaseCursor

/-- The record on lease, or else the next one to lease. -/
def first (h : Heap) : Nat := if h.releaseLeaseActive then h.activeReleaseIndex else restart h

/-- The pending records in the order in which they are served. -/
def rotation (s : NamedQueue) : List Nat :=
  turn (first s.heap - s.heap.releaseHead) s.pending

structure Consistent (s : NamedQueue) : Prop where
  aligned : s.names.length = s.heap.releaseQueue.length
  head : s.heap.releaseHead ≤ s.names.length
  active : s.heap.releaseLeaseActive →
    s.heap.releaseHead ≤ s.heap.activeReleaseIndex ∧ s.heap.activeReleaseIndex < s.names.length
  distinct : s.pending.Nodup
  known : ∀ n ∈ s.pending, n < s.next

/-- The name of the record that an acknowledgement of another one moves forward. -/
def overtaken (s : NamedQueue) : QueueOp → Option Nat
  | .acknowledge dispatcher leaseId =>
    if (perform s.heap (.acknowledge dispatcher leaseId)).2 = true ∧
        s.heap.activeReleaseIndex ≠ s.heap.releaseHead then s.names[s.heap.releaseHead]?
    else none
  | _ => none

def service (s : NamedQueue) : Service Nat := ⟨s.rotation, s.heap.releaseLeaseActive⟩

theorem swapRecords_eq (i j : Nat) (queue : List HostReleaseRecord) :
    swapRecords i j queue = swap i j queue := by
  unfold swapRecords swap
  cases queue[i]? <;> cases queue[j]? <;> rfl

/-- The operations on leases are those of the heap. -/
theorem perform_heap (h : Heap) (faults : List Bool) (dispatcher : Bool) (leaseId : Nat) :
    (performOp h (.leaseHostRelease dispatcher, faults)).2 = (perform h (.lease dispatcher)).1 ∧
    (performOp h (.acknowledgeHostRelease dispatcher leaseId, faults)).2 =
      (perform h (.acknowledge dispatcher leaseId)).1 ∧
    (performOp h (.retryHostRelease dispatcher leaseId, faults)).2 =
      (perform h (.retry dispatcher leaseId)).1 ∧
    (performOp h (.deferHostRelease dispatcher leaseId, faults)).2 =
      (perform h (.defer dispatcher leaseId)).1 :=
  ⟨rfl, rfl, rfl, rfl⟩

/-- A step of the queue keeps it consistent and is a step of the service. -/
structure Turns (s : NamedQueue) (op : QueueOp) : Prop where
  consistent : Consistent (s.step op)
  served : Service.Step s.next s.service (s.leased op) (s.overtaken op) (s.step op).service

variable {s : NamedQueue}

theorem guarded_cases {α : Type} (dispatcher : Bool) (refused : α) (operation : Heap → Heap × α)
    (h : Heap) : guarded dispatcher refused operation h = (h, refused) ∨
      guarded dispatcher refused operation h = operation h := by
  unfold guarded outsideBoundary
  split
  · exact .inr rfl
  · split
    · exact .inl rfl
    · exact .inr rfl

theorem Consistent.later (c : Consistent s) {n : Nat} (le : s.next ≤ n) :
    Consistent { s with next := n } :=
  ⟨c.aligned, c.head, c.active, c.distinct, fun n mem => lt_of_lt_of_le (c.known n mem) le⟩

/-- A refused operation changes nothing. -/
theorem turns_refused (c : Consistent s) {op : QueueOp}
    (refused : perform s.heap op = (s.heap, false)) (noLease : s.leased op = none)
    (noOvertaking : s.overtaken op = none) : Turns s op := by
  have same : s.step op = { s with next := s.next + 1 } := by
    rw [step, refused]
    rfl
  constructor
  · rw [same]
    exact c.later (Nat.le_succ _)
  · rw [noLease, noOvertaking, same]
    exact .idle _

theorem turns_of {op : QueueOp} {h : Heap} (performed : perform s.heap op = (h, true))
    (consistent : Consistent ⟨h, s.rename op, s.next + 1⟩)
    (served : Service.Step s.next s.service (s.leased op) (s.overtaken op)
      (service ⟨h, s.rename op, s.next + 1⟩)) : Turns s op := by
  have reached : s.step op = ⟨h, s.rename op, s.next + 1⟩ := by
    rw [step, performed]
    rfl
  exact ⟨reached ▸ consistent, reached ▸ served⟩

theorem Consistent.pending_length (c : Consistent s) :
    s.pending.length = s.heap.releaseQueue.length - s.heap.releaseHead := by
  rw [pending, List.length_drop, c.aligned]

/-- The first record to serve is a pending one. -/
theorem Consistent.first_range (c : Consistent s)
    (filled : s.heap.releaseHead < s.heap.releaseQueue.length) :
    s.heap.releaseHead ≤ first s.heap ∧ first s.heap < s.heap.releaseQueue.length := by
  have aligned := c.aligned
  unfold first
  split
  · next active =>
    have range := c.active active
    omega
  · unfold restart
    split <;> omega

theorem Consistent.rotation_cons (c : Consistent s)
    (filled : s.heap.releaseHead < s.heap.releaseQueue.length) :
    ∃ f, s.names[first s.heap]? = some f ∧
      s.pending[first s.heap - s.heap.releaseHead]? = some f ∧
      s.rotation = f :: (s.pending.drop (first s.heap - s.heap.releaseHead + 1) ++
        s.pending.take (first s.heap - s.heap.releaseHead)) := by
  have range := c.first_range filled
  have inside : first s.heap < s.names.length := by rw [c.aligned]; exact range.2
  have here : s.names[first s.heap]? = some (s.names[first s.heap]) :=
    List.getElem?_eq_getElem inside
  have there : s.pending[first s.heap - s.heap.releaseHead]? =
      some (s.names[first s.heap]) := by
    rw [pending, List.getElem?_drop, Nat.add_sub_cancel' range.1, here]
  exact ⟨_, here, there, turn_cons there⟩

/-- The heap after the record at `restart` was leased. -/
def onLease (leaseId : Nat) (h : Heap) : Heap :=
  { h with
    releaseCursor := restart h
    nextReleaseLeaseId := bump leaseId
    activeReleaseLeaseId := leaseId
    activeReleaseIndex := restart h
    releaseLeaseActive := true }

theorem lease_accepted {h : Heap}
    (free : ¬ (h.releaseLeaseActive = true ∨ h.releaseHead ≥ h.releaseQueue.length)) :
    ∃ leaseId, leaseHostReleaseForDispatcher h = (onLease leaseId h,
      (h.releaseQueue[restart h]?).map fun record => ⟨leaseId, record⟩) := by
  unfold leaseHostReleaseForDispatcher
  rw [if_neg free]
  exact ⟨_, rfl⟩

theorem turns_lease (c : Consistent s) (dispatcher : Bool) : Turns s (.lease dispatcher) := by
  rcases guarded_cases dispatcher none leaseHostReleaseForDispatcher s.heap with shut | opened
  · have refused : perform s.heap (.lease dispatcher) = (s.heap, false) := by
      rw [perform, shut]; rfl
    exact turns_refused c refused (by rw [leased, refused]; rfl) rfl
  by_cases closed : s.heap.releaseLeaseActive = true ∨
      s.heap.releaseHead ≥ s.heap.releaseQueue.length
  · have refused : perform s.heap (.lease dispatcher) = (s.heap, false) := by
      rw [perform, opened, leaseHostReleaseForDispatcher, if_pos closed]; rfl
    exact turns_refused c refused (by rw [leased, refused]; rfl) rfl
  have filled : s.heap.releaseHead < s.heap.releaseQueue.length := by omega
  have idle : s.heap.releaseLeaseActive = false :=
    Bool.eq_false_iff.mpr fun active => closed (.inl active)
  have start : first s.heap = restart s.heap := by rw [first, idle]; rfl
  have range := c.first_range filled
  obtain ⟨f, here, -, order⟩ := c.rotation_cons filled
  rw [start] at range here order
  obtain ⟨leaseId, ran⟩ := lease_accepted closed
  have performed : perform s.heap (.lease dispatcher) = (onLease leaseId s.heap, true) := by
    rw [perform, opened, ran, Option.isSome_map, List.getElem?_eq_getElem range.2]
    rfl
  have leasing : s.leased (.lease dispatcher) = some f := by
    rw [leased, performed]
    exact here
  refine turns_of performed ⟨c.aligned, c.head, fun _ => ?_, c.distinct, ?_⟩ ?_
  · exact ⟨range.1, lt_of_lt_of_eq range.2 c.aligned.symm⟩
  · exact fun n mem => Nat.lt_succ_of_lt (c.known n mem)
  · rw [leasing]
    have before : s.service = ⟨s.rotation, false⟩ := by rw [service, idle]
    have after : service ⟨onLease leaseId s.heap, s.rename (.lease dispatcher), s.next + 1⟩ =
        ⟨s.rotation, true⟩ := by
      rw [service, rotation, rotation, start]
      rfl
    rw [before, after, order]
    exact .lease f _

theorem active_of_owns {leaseId : Nat} {h : Heap} (owns : ownsLease leaseId h = true) :
    h.releaseLeaseActive = true := by
  unfold ownsLease at owns
  simp only [Bool.and_eq_true] at owns
  exact owns.1.1

/-- What the consistent queue looks like while a record is on lease. -/
theorem Consistent.on_lease (c : Consistent s) (active : s.heap.releaseLeaseActive = true) :
    first s.heap = s.heap.activeReleaseIndex ∧
      s.heap.releaseHead < s.heap.releaseQueue.length ∧
      s.heap.activeReleaseIndex < s.heap.releaseQueue.length := by
  have range := c.active active
  have aligned := c.aligned
  exact ⟨by rw [first, if_pos active], by omega, by omega⟩

/-- The heap after a lease ended with the cursor at some position. -/
def afterLease (cursor : Nat) (h : Heap) : Heap := endLease { h with releaseCursor := cursor }

theorem Consistent.after_lease (c : Consistent s) (cursor : Nat) :
    Consistent ⟨afterLease cursor s.heap, s.names, s.next + 1⟩ :=
  ⟨c.aligned, c.head, fun active => absurd active Bool.false_ne_true, c.distinct,
    fun n mem => Nat.lt_succ_of_lt (c.known n mem)⟩

theorem turns_retry (c : Consistent s) (dispatcher : Bool) (leaseId : Nat) :
    Turns s (.retry dispatcher leaseId) := by
  rcases guarded_cases dispatcher false (retryHostReleaseForDispatcher leaseId) s.heap with
    shut | opened
  · exact turns_refused c shut rfl rfl
  cases owns : ownsLease leaseId s.heap with
  | false =>
    have refused : perform s.heap (.retry dispatcher leaseId) = (s.heap, false) := by
      rw [perform, opened, retryHostReleaseForDispatcher, owns]
      rfl
    exact turns_refused c refused rfl rfl
  | true =>
    have active := active_of_owns owns
    obtain ⟨start, -, inside⟩ := c.on_lease active
    have range := c.active active
    have performed : perform s.heap (.retry dispatcher leaseId) =
        (afterLease s.heap.activeReleaseIndex s.heap, true) := by
      rw [perform, opened, retryHostReleaseForDispatcher, owns]
      rfl
    refine turns_of performed (c.after_lease _) ?_
    have again : first (afterLease s.heap.activeReleaseIndex s.heap) = first s.heap := by
      rw [start]
      have onRecord : ¬ (s.heap.activeReleaseIndex < s.heap.releaseHead ∨
          s.heap.activeReleaseIndex ≥ s.heap.releaseQueue.length) := by omega
      exact if_neg onRecord
    have before : s.service = ⟨s.rotation, true⟩ := by rw [service, active]
    have after : service ⟨afterLease s.heap.activeReleaseIndex s.heap,
        s.rename (.retry dispatcher leaseId), s.next + 1⟩ = ⟨s.rotation, false⟩ := by
      rw [service, rotation, rotation, again]
      rfl
    rw [before, after]
    exact .retry _

theorem defer_cases (leaseId : Nat) (h : Heap) :
    deferHostReleaseForDispatcher leaseId h = (h, false) ∨
    (h.releaseLeaseActive = true ∧ deferHostReleaseForDispatcher leaseId h =
      (afterLease (if h.activeReleaseIndex + 1 ≥ h.releaseQueue.length then h.releaseHead
        else h.activeReleaseIndex + 1) h, true)) := by
  unfold deferHostReleaseForDispatcher
  by_cases refuse : (!ownsLease leaseId h) = true ∨ h.activeReleaseIndex ≥ h.releaseQueue.length
  · exact .inl (if_pos refuse)
  · have owns : ownsLease leaseId h = true := by
      cases shape : ownsLease leaseId h with
      | true => rfl
      | false => exact absurd (.inl (by rw [shape]; rfl)) refuse
    rw [if_neg refuse]
    exact .inr ⟨active_of_owns owns, rfl⟩

/-- The deferred record is served last from then on. -/
theorem Consistent.deferred (c : Consistent s) (active : s.heap.releaseLeaseActive = true)
    (next : Nat) : ∃ f rest, s.names[s.heap.activeReleaseIndex]? = some f ∧
      s.service = ⟨f :: rest, true⟩ ∧
      service ⟨afterLease (if s.heap.activeReleaseIndex + 1 ≥ s.heap.releaseQueue.length then
        s.heap.releaseHead else s.heap.activeReleaseIndex + 1) s.heap, s.names, next⟩ =
        ⟨rest ++ [f], false⟩ := by
  obtain ⟨start, filled, inside⟩ := c.on_lease active
  have range := c.active active
  have length := c.pending_length
  obtain ⟨f, here, there, order⟩ := c.rotation_cons filled
  rw [start] at here there order
  refine ⟨f, _, here, by rw [service, active, order], ?_⟩
  have onward (cursor : Nat) (low : s.heap.releaseHead ≤ cursor)
      (high : cursor < s.heap.releaseQueue.length) :
      service ⟨afterLease cursor s.heap, s.names, next⟩ =
        ⟨turn (cursor - s.heap.releaseHead) s.pending, false⟩ := by
    have onRecord : ¬ (cursor < s.heap.releaseHead ∨ cursor ≥ s.heap.releaseQueue.length) := by
      omega
    have place : first (afterLease cursor s.heap) = cursor := if_neg onRecord
    rw [service, rotation, place]
    rfl
  by_cases last : s.heap.activeReleaseIndex + 1 ≥ s.heap.releaseQueue.length
  · rw [if_pos last, onward _ (Nat.le_refl _) filled, Nat.sub_self, turn_zero,
      ← turn_last there (by omega)]
  · have offset : s.heap.activeReleaseIndex + 1 - s.heap.releaseHead =
        s.heap.activeReleaseIndex - s.heap.releaseHead + 1 := Nat.succ_sub range.1
    rw [if_neg last, onward _ (by omega) (by omega), offset, turn_succ there]

theorem turns_defer (c : Consistent s) (dispatcher : Bool) (leaseId : Nat) :
    Turns s (.defer dispatcher leaseId) := by
  rcases guarded_cases dispatcher false (deferHostReleaseForDispatcher leaseId) s.heap with
    shut | opened
  · exact turns_refused c shut rfl rfl
  rcases defer_cases leaseId s.heap with refused | ⟨active, ran⟩
  · exact turns_refused c (opened.trans refused) rfl rfl
  · obtain ⟨f, rest, -, before, after⟩ := c.deferred active (s.next + 1)
    refine turns_of (opened.trans ran) (c.after_lease _) ?_
    rw [before]
    exact after ▸ .defer f rest

/-- The heap after the record on lease was acknowledged, before the queue is compacted. -/
def settled (external : Nat) (h : Heap) : Heap :=
  endLease { h with
    externalBytes := external
    releaseQueue := swapRecords h.activeReleaseIndex h.releaseHead h.releaseQueue
    releaseHead := h.releaseHead + 1
    releaseCursor :=
      if h.activeReleaseIndex < h.releaseHead + 1 ∨
          h.activeReleaseIndex ≥ h.releaseQueue.length then h.releaseHead + 1
      else h.activeReleaseIndex }

theorem acknowledge_cases (leaseId : Nat) (h : Heap) :
    acknowledgeHostReleaseForDispatcher leaseId h = (h, false) ∨
    (h.releaseLeaseActive = true ∧ ∃ external,
      acknowledgeHostReleaseForDispatcher leaseId h =
        (if h.releaseHead + 1 = h.releaseQueue.length then
          compactReleaseQueue (settled external h) else settled external h, true)) := by
  unfold acknowledgeHostReleaseForDispatcher
  split
  · exact .inl rfl
  · next record found =>
    by_cases refuse : (!ownsLease leaseId h) = true ∨ record.externalBytes > h.externalBytes
    · exact .inl (if_pos refuse)
    · have owns : ownsLease leaseId h = true := by
        cases shape : ownsLease leaseId h with
        | true => rfl
        | false => exact absurd (.inl (by rw [shape]; rfl)) refuse
      rw [if_neg refuse]
      exact .inr ⟨active_of_owns owns, h.externalBytes - record.externalBytes, rfl⟩

/-- The queue is empty after its last record was acknowledged. -/
theorem compact_settled {external : Nat} {h : Heap}
    (last : h.releaseHead + 1 = h.releaseQueue.length) :
    compactReleaseQueue (settled external h) = { settled external h with
      releaseQueue := [], releaseCursor := 0, activeReleaseIndex := 0, releaseHead := 0 } := by
  have all : (settled external h).releaseHead ≥ (settled external h).releaseQueue.length := by
    have same : (settled external h).releaseQueue.length = h.releaseQueue.length :=
      (congrArg List.length (swapRecords_eq _ _ _)).trans (length_swap _ _ _)
    rw [same, ← last]
    exact Nat.le_refl _
  have moved : (settled external h).releaseHead ≠ 0 := Nat.succ_ne_zero _
  rw [compactReleaseQueue, if_neg moved, if_pos all]

/-- A service without pending records. -/
theorem Consistent.empty {h : Heap} (n : Nat) (queue : h.releaseQueue = [])
    (head : h.releaseHead = 0) (idle : h.releaseLeaseActive = false) :
    Consistent ⟨h, [], n⟩ :=
  ⟨(congrArg List.length queue).symm, Nat.le_of_eq head,
    fun active => absurd (idle.symm.trans active) Bool.false_ne_true,
    by simp [pending], by simp [pending]⟩

theorem service_empty {h : Heap} (n : Nat) (idle : h.releaseLeaseActive = false) :
    service ⟨h, [], n⟩ = ⟨[], false⟩ := by
  simp [service, rotation, pending, turn, idle]

theorem settled_length (external : Nat) (h : Heap) :
    (settled external h).releaseQueue.length = h.releaseQueue.length :=
  (congrArg List.length (swapRecords_eq _ _ _)).trans (length_swap _ _ _)

/-- The queue after an acknowledgement, by the names that are still pending. -/
theorem Consistent.settle (c : Consistent s) {external : Nat} {names : List Nat}
    (more : s.heap.releaseHead + 1 < s.heap.releaseQueue.length)
    (length : names.length = s.names.length)
    (distinct : (names.drop (s.heap.releaseHead + 1)).Nodup)
    (sub : ∀ n ∈ names.drop (s.heap.releaseHead + 1), n ∈ s.pending) :
    Consistent ⟨settled external s.heap, names, s.next + 1⟩ where
  aligned := length.trans (c.aligned.trans (settled_length external s.heap).symm)
  head := by
    have room : s.heap.releaseHead + 1 ≤ names.length := by
      have aligned := c.aligned
      omega
    exact room
  active := fun active => absurd active Bool.false_ne_true
  distinct := distinct
  known := fun n mem => Nat.lt_succ_of_lt (c.known n (sub n mem))

theorem service_settled {external : Nat} {h : Heap} {names : List Nat} {place : Nat} (n : Nat)
    (start : first (settled external h) = place) :
    service ⟨settled external h, names, n⟩ =
      ⟨turn (place - (h.releaseHead + 1)) (names.drop (h.releaseHead + 1)), false⟩ := by
  rw [service, rotation, start]
  rfl

/-- Where the service goes on after an acknowledgement. -/
theorem first_settled (external : Nat) {h : Heap}
    (more : h.releaseHead + 1 < h.releaseQueue.length)
    (inside : h.activeReleaseIndex < h.releaseQueue.length) :
    first (settled external h) = max h.activeReleaseIndex (h.releaseHead + 1) := by
  have length := settled_length external h
  have cursor : (settled external h).releaseCursor =
      max h.activeReleaseIndex (h.releaseHead + 1) := by
    dsimp only [settled, endLease]
    split <;> omega
  have head : (settled external h).releaseHead = h.releaseHead + 1 := rfl
  have onRecord : ¬ ((settled external h).releaseCursor < (settled external h).releaseHead ∨
      (settled external h).releaseCursor ≥ (settled external h).releaseQueue.length) := by
    rw [length, cursor, head]
    omega
  have idle : (settled external h).releaseLeaseActive = false := rfl
  rw [first, idle, if_neg Bool.false_ne_true, restart, if_neg onRecord, cursor]

theorem turns_acknowledge (c : Consistent s) (dispatcher : Bool) (leaseId : Nat) :
    Turns s (.acknowledge dispatcher leaseId) := by
  rcases guarded_cases dispatcher false (acknowledgeHostReleaseForDispatcher leaseId) s.heap with
    shut | opened
  · refine turns_refused c shut rfl ?_
    rw [overtaken, if_neg]
    rintro ⟨accepted, -⟩
    rw [perform, shut] at accepted
    exact Bool.false_ne_true accepted
  rcases acknowledge_cases leaseId s.heap with refused | ⟨active, external, ran⟩
  · have performed : perform s.heap (.acknowledge dispatcher leaseId) = (s.heap, false) := by
      rw [perform, opened, refused]
    refine turns_refused c performed rfl ?_
    rw [overtaken, if_neg]
    rintro ⟨accepted, -⟩
    rw [performed] at accepted
    exact Bool.false_ne_true accepted
  obtain ⟨start, filled, inside⟩ := c.on_lease active
  have range := c.active active
  have aligned := c.aligned
  obtain ⟨f, here, there, order⟩ := c.rotation_cons filled
  rw [start] at here there order
  have performed : perform s.heap (.acknowledge dispatcher leaseId) =
      (if s.heap.releaseHead + 1 = s.heap.releaseQueue.length then
        compactReleaseQueue (settled external s.heap) else settled external s.heap, true) := by
    rw [perform, opened, ran]
  have before : s.service = ⟨s.rotation, true⟩ := by rw [service, active]
  by_cases last : s.heap.releaseHead + 1 = s.heap.releaseQueue.length
  · rw [if_pos last, compact_settled last] at performed
    have names : s.rename (.acknowledge dispatcher leaseId) = [] := by
      rw [rename, if_pos (by omega)]
    have atHead : s.heap.activeReleaseIndex = s.heap.releaseHead := by omega
    have none : s.overtaken (.acknowledge dispatcher leaseId) = none := by
      rw [overtaken, if_neg]
      exact fun both => both.2 atHead
    refine turns_of performed ?_ ?_
    · rw [names]
      exact .empty _ rfl rfl rfl
    · rw [names, service_empty _ rfl, before, none]
      exact .clear _
  rw [if_neg last] at performed
  have names : s.rename (.acknowledge dispatcher leaseId) =
      swap s.heap.activeReleaseIndex s.heap.releaseHead s.names := by
    rw [rename, if_neg (by omega)]
  have more : s.heap.releaseHead + 1 < s.heap.releaseQueue.length := by omega
  have start' := first_settled external more inside
  by_cases atHead : s.heap.activeReleaseIndex = s.heap.releaseHead
  · have kept : s.rename (.acknowledge dispatcher leaseId) = s.names := by
      rw [names, atHead, swap_self]
    have none : s.overtaken (.acknowledge dispatcher leaseId) = none := by
      rw [overtaken, if_neg]
      exact fun both => both.2 atHead
    have rest : s.names.drop (s.heap.releaseHead + 1) = s.pending.drop 1 := by
      rw [pending, List.drop_drop]
    have place : first (settled external s.heap) = s.heap.releaseHead + 1 := by omega
    have zero : s.heap.activeReleaseIndex - s.heap.releaseHead = 0 := by omega
    refine turns_of performed ?_ ?_
    · rw [kept]
      refine c.settle more rfl ?_ ?_
      · rw [rest]
        exact c.distinct.sublist (List.drop_sublist 1 _)
      · rw [rest]
        exact fun n mem => List.mem_of_mem_drop mem
    · rw [zero, List.take_zero, List.append_nil] at order
      rw [kept, none, before, service_settled _ place, Nat.sub_self, turn_zero, rest, order]
      exact .finish f _
  · obtain ⟨x, p, shape⟩ : ∃ x p, s.pending = x :: p := by
      cases shape : s.pending with
      | nil =>
        rw [shape] at there
        exact absurd there nofun
      | cons x p => exact ⟨x, p, rfl⟩
    have k : s.heap.activeReleaseIndex - s.heap.releaseHead =
      (s.heap.activeReleaseIndex - s.heap.releaseHead - 1) + 1 := by omega
    rw [shape, k, List.getElem?_cons_succ] at there
    obtain ⟨mid, tail, parts, length⟩ := parts_at there
    rw [parts] at shape
    obtain ⟨gap, gapLength, whole⟩ : ∃ gap : List Nat, gap.length = s.heap.releaseHead ∧
        s.names = gap ++ x :: (mid ++ f :: tail) :=
      ⟨s.names.take s.heap.releaseHead, List.length_take_of_le c.head, by
        rw [← shape, pending, List.take_append_drop]⟩
    have place : s.heap.activeReleaseIndex = gap.length + 1 + mid.length := by omega
    have swapped : s.rename (.acknowledge dispatcher leaseId) =
        gap ++ f :: (mid ++ x :: tail) := by
      rw [names, place, ← gapLength, whole, swap_parts]
    have rest : (s.rename (.acknowledge dispatcher leaseId)).drop (s.heap.releaseHead + 1) =
        mid ++ x :: tail := by
      rw [swapped, ← gapLength, ← List.drop_drop, List.drop_left, List.drop_one, List.tail_cons]
    have passed : s.overtaken (.acknowledge dispatcher leaseId) = some x := by
      rw [overtaken, if_pos ⟨by rw [performed], atHead⟩, whole, ← gapLength,
        List.getElem?_append_right (Nat.le_refl _), Nat.sub_self]
      rfl
    have sorted : (mid ++ x :: tail).Perm (x :: (mid ++ tail)) := List.perm_middle
    have unsorted : s.pending = x :: (mid ++ f :: tail) := shape
    have sub : (x :: (mid ++ tail)).Sublist s.pending := by
      rw [unsorted]
      exact ((List.Sublist.refl mid).append (List.sublist_cons_self f tail)).cons_cons x
    have turned : turn mid.length (mid ++ x :: tail) = x :: (tail ++ mid) := turn_parts mid tail x
    refine turns_of performed (c.settle more ?_ ?_ ?_) ?_
    · rw [names, length_swap]
    · rw [rest]
      exact sorted.nodup_iff.mpr (c.distinct.sublist sub)
    · rw [rest]
      exact fun n mem => sub.subset (sorted.mem_iff.mp mem)
    · have rotated : s.rotation = f :: (tail ++ x :: mid) := by
        have turns : s.heap.activeReleaseIndex - s.heap.releaseHead = (x :: mid).length := by
          rw [List.length_cons, place, ← gapLength]
          omega
        rw [rotation, start, unsorted, turns]
        exact turn_parts (x :: mid) tail f
      have offset : max s.heap.activeReleaseIndex (s.heap.releaseHead + 1) -
          (s.heap.releaseHead + 1) = mid.length := by omega
      rw [before, passed, service_settled _ start', rest, offset, turned, rotated]
      exact .overtake f x tail mid

/-- The heap after a record was written before the head. -/
def queuedFront (metadata : HostHandleMetadata) (h : Heap) : Heap :=
  { h with
    releaseHead := h.releaseHead - 1
    releaseQueue := h.releaseQueue.set (h.releaseHead - 1) (releaseRecord metadata) }

/-- The heap after a record was appended. -/
def queuedBack (metadata : HostHandleMetadata) (h : Heap) : Heap :=
  { h with releaseQueue := h.releaseQueue ++ [releaseRecord metadata] }

/-- A record is on lease, or the cursor is on a pending record. -/
def Placed (h : Heap) : Prop :=
  h.releaseLeaseActive = true ∨ h.releaseHead ≤ h.releaseCursor ∧
    h.releaseCursor < h.releaseQueue.length

theorem first_placed {h h' : Heap} (placed : Placed h)
    (active : h'.releaseLeaseActive = h.releaseLeaseActive)
    (index : h'.activeReleaseIndex = h.activeReleaseIndex)
    (cursor : h'.releaseCursor = h.releaseCursor) (head : h'.releaseHead ≤ h.releaseHead)
    (length : h.releaseQueue.length ≤ h'.releaseQueue.length) : first h' = first h := by
  unfold first restart
  rw [active, index, cursor]
  rcases placed with leased | ⟨low, high⟩
  · rw [if_pos leased, if_pos leased]
  · have on : ¬ (h.releaseCursor < h.releaseHead ∨ h.releaseCursor ≥ h.releaseQueue.length) := by
      omega
    have on' : ¬ (h.releaseCursor < h'.releaseHead ∨
        h.releaseCursor ≥ h'.releaseQueue.length) := by omega
    rw [if_neg on, if_neg on']

theorem first_cursor {h : Heap} (idle : h.releaseLeaseActive = false)
    (on : h.releaseHead ≤ h.releaseCursor ∧ h.releaseCursor < h.releaseQueue.length) :
    first h = h.releaseCursor := by
  have valid : ¬ (h.releaseCursor < h.releaseHead ∨
      h.releaseCursor ≥ h.releaseQueue.length) := by omega
  rw [first, idle, if_neg Bool.false_ne_true, restart, if_neg valid]

/-- Without a place the service starts at the head. -/
theorem first_unplaced {h : Heap} (unplaced : ¬ Placed h) :
    h.releaseLeaseActive = false ∧ first h = h.releaseHead ∧
      (h.releaseCursor < h.releaseHead ∨ h.releaseCursor ≥ h.releaseQueue.length) := by
  unfold Placed at unplaced
  have idle : h.releaseLeaseActive = false :=
    Bool.eq_false_iff.mpr fun active => unplaced (.inl active)
  have off : h.releaseCursor < h.releaseHead ∨ h.releaseCursor ≥ h.releaseQueue.length := by
    omega
  refine ⟨idle, ?_, off⟩
  rw [first, idle, if_neg Bool.false_ne_true, restart, if_pos off]

/-- A record that is queued takes a place among the others. -/
theorem turns_added {metadata : HostHandleMetadata} {h : Heap} {names : List Nat}
    (performed : perform s.heap (.queue metadata) = (h, true))
    (renamed : s.rename (.queue metadata) = names)
    (busy : h.releaseLeaseActive = s.heap.releaseLeaseActive)
    (consistent : Consistent ⟨h, names, s.next + 1⟩)
    {front back : List Nat} (order : s.rotation = front ++ back)
    (order' : rotation ⟨h, names, s.next + 1⟩ = front ++ s.next :: back)
    (kept : s.heap.releaseLeaseActive = true → front ≠ []) : Turns s (.queue metadata) := by
  subst renamed
  refine turns_of performed consistent ?_
  rw [service, service, order, order', busy]
  exact .add front back _ kept

/-- What comes from the place on is not empty while a record is on lease. -/
theorem Consistent.rest_nonempty (c : Consistent s)
    (active : s.heap.releaseLeaseActive = true) :
    s.pending.drop (first s.heap - s.heap.releaseHead) ≠ [] := by
  obtain ⟨start, filled, inside⟩ := c.on_lease active
  have range := c.active active
  have length := c.pending_length
  intro none
  have short := List.drop_eq_nil_iff.mp none
  omega

theorem turns_queue (c : Consistent s) (metadata : HostHandleMetadata) :
    Turns s (.queue metadata) := by
  by_cases closed : metadata.closed = true
  · have refused : perform s.heap (.queue metadata) = (s.heap, false) := by
      rw [perform, queueHostRelease, if_pos closed, closed]
      rfl
    exact turns_refused c refused rfl rfl
  have opened : (!metadata.closed) = true := by simpa using closed
  have aligned := c.aligned
  have new : s.next ∉ s.pending := fun mem => Nat.lt_irrefl _ (c.known _ mem)
  have rotated : s.rotation = s.pending.drop (first s.heap - s.heap.releaseHead) ++
      s.pending.take (first s.heap - s.heap.releaseHead) := rfl
  by_cases moved : s.heap.releaseHead ≠ 0
  · have performed : perform s.heap (.queue metadata) =
        (queuedFront metadata s.heap, true) := by
      rw [perform, queueHostRelease, if_neg closed, if_pos moved, opened]
      rfl
    have names : s.rename (.queue metadata) = s.names.set (s.heap.releaseHead - 1) s.next := by
      rw [rename, if_pos moved]
    have head := c.head
    have pended : (s.names.set (s.heap.releaseHead - 1) s.next).drop (s.heap.releaseHead - 1) =
        s.next :: s.pending := by
      rw [drop_set _ (by omega), Nat.sub_add_cancel (Nat.pos_of_ne_zero moved), pending]
    have length : (queuedFront metadata s.heap).releaseQueue.length =
        s.heap.releaseQueue.length := List.length_set
    have consistent : Consistent ⟨queuedFront metadata s.heap,
        s.names.set (s.heap.releaseHead - 1) s.next, s.next + 1⟩ := by
      have room : (s.names.set (s.heap.releaseHead - 1) s.next).length = s.names.length :=
        List.length_set
      have pending' : pending ⟨queuedFront metadata s.heap,
          s.names.set (s.heap.releaseHead - 1) s.next, s.next + 1⟩ = s.next :: s.pending := pended
      refine ⟨room.trans (aligned.trans length.symm),
        Nat.le_trans (Nat.sub_le _ 1) (Nat.le_trans head (Nat.le_of_eq room.symm)),
        fun active => ?_, ?_, fun n mem => ?_⟩
      · have range := c.active active
        exact ⟨Nat.le_trans (Nat.sub_le _ 1) range.1, Nat.lt_of_lt_of_eq range.2 room.symm⟩
      · rw [pending']
        exact List.nodup_cons.mpr ⟨new, c.distinct⟩
      · rw [pending'] at mem
        exact Nat.lt_succ_of_le ((List.mem_cons.mp mem).elim Nat.le_of_eq
          fun old => (c.known n old).le)
    have rotation' : rotation ⟨queuedFront metadata s.heap,
        s.names.set (s.heap.releaseHead - 1) s.next, s.next + 1⟩ =
        turn (first (queuedFront metadata s.heap) - (s.heap.releaseHead - 1))
          (s.next :: s.pending) := by
      rw [rotation, pending, ← pended]
      rfl
    by_cases placed : Placed s.heap
    · have start : first (queuedFront metadata s.heap) = first s.heap :=
        first_placed placed rfl rfl rfl (Nat.sub_le _ 1) (Nat.le_of_eq length.symm)
      refine turns_added performed names rfl consistent rotated ?_ c.rest_nonempty
      have low : s.heap.releaseHead ≤ first s.heap := by
        rcases placed with active | on
        · exact (c.on_lease active).1 ▸ (c.active active).1
        · exact (c.first_range (by omega)).1
      have offset : first s.heap - (s.heap.releaseHead - 1) =
          first s.heap - s.heap.releaseHead + 1 := by omega
      rw [rotation', start, offset, turn_new_front]
    · obtain ⟨idle, start, off⟩ := first_unplaced placed
      have order : s.rotation = [] ++ s.pending := by
        rw [rotation, start, Nat.sub_self, turn_zero]
        rfl
      refine turns_added performed names rfl consistent order ?_ fun active => ?_
      · have start' : first (queuedFront metadata s.heap) = s.heap.releaseHead - 1 := by
          by_cases on : s.heap.releaseHead - 1 ≤ s.heap.releaseCursor ∧
              s.heap.releaseCursor < s.heap.releaseQueue.length
          · have cursor : first (queuedFront metadata s.heap) = s.heap.releaseCursor :=
              first_cursor idle ⟨on.1, Nat.lt_of_lt_of_eq on.2 length.symm⟩
            omega
          · refine (first_unplaced ?_).2.1
            rintro (active | on')
            · exact Bool.false_ne_true (idle.symm.trans active)
            · exact on ⟨on'.1, Nat.lt_of_lt_of_eq on'.2 length⟩
        rw [rotation', start', Nat.sub_self, turn_zero]
        rfl
      · rw [idle] at active
        exact absurd active Bool.false_ne_true
  · have zero : s.heap.releaseHead = 0 := not_not.mp moved
    have performed : perform s.heap (.queue metadata) =
        (queuedBack metadata s.heap, true) := by
      rw [perform, queueHostRelease, if_neg closed, if_neg moved, opened]
      rfl
    have names : s.rename (.queue metadata) = s.names ++ [s.next] := by
      rw [rename, if_neg moved]
    have pended : s.pending = s.names := by rw [pending, zero, List.drop_zero]
    have pended' : (s.names ++ [s.next]).drop s.heap.releaseHead = s.pending ++ [s.next] := by
      rw [pended, zero, List.drop_zero]
    have length : (queuedBack metadata s.heap).releaseQueue.length =
        s.heap.releaseQueue.length + 1 := by
      rw [queuedBack, List.length_append]
      rfl
    have consistent : Consistent ⟨queuedBack metadata s.heap, s.names ++ [s.next],
        s.next + 1⟩ := by
      have room : (s.names ++ [s.next]).length = s.names.length + 1 := List.length_append
      have pending' : pending ⟨queuedBack metadata s.heap, s.names ++ [s.next], s.next + 1⟩ =
          s.pending ++ [s.next] := pended'
      refine ⟨room.trans (by rw [aligned, length]), Nat.le_trans (Nat.le_of_eq zero)
        (Nat.zero_le _), fun active => ?_, ?_, fun n mem => ?_⟩
      · have range := c.active active
        exact ⟨range.1, Nat.lt_of_lt_of_eq (Nat.lt_succ_of_lt range.2) room.symm⟩
      · rw [pending']
        exact (List.perm_append_singleton _ _).nodup_iff.mpr
          (List.nodup_cons.mpr ⟨new, c.distinct⟩)
      · rw [pending', (List.perm_append_singleton _ _).mem_iff] at mem
        exact Nat.lt_succ_of_le ((List.mem_cons.mp mem).elim Nat.le_of_eq
          fun old => (c.known n old).le)
    have rotation' : rotation ⟨queuedBack metadata s.heap, s.names ++ [s.next], s.next + 1⟩ =
        turn (first (queuedBack metadata s.heap) - s.heap.releaseHead)
          (s.pending ++ [s.next]) := by
      rw [rotation, pending, ← pended']
      rfl
    have size := c.pending_length
    by_cases placed : Placed s.heap
    · have start : first (queuedBack metadata s.heap) = first s.heap :=
        first_placed placed rfl rfl rfl (Nat.le_refl _) (by omega)
      refine turns_added performed names rfl consistent rotated ?_ c.rest_nonempty
      have inside : first s.heap - s.heap.releaseHead ≤ s.pending.length := by
        rcases placed with active | on
        · have lease := c.on_lease active
          omega
        · have range := c.first_range (by omega)
          omega
      rw [rotation', start, turn_new_back inside]
    · obtain ⟨idle, start, off⟩ := first_unplaced placed
      have unrotated : s.rotation = s.pending := by
        rw [rotation, start, Nat.sub_self, turn_zero]
      have notActive (active : s.heap.releaseLeaseActive = true) (front : List Nat) :
          front ≠ [] := by
        rw [idle] at active
        exact absurd active Bool.false_ne_true
      by_cases next : s.heap.releaseCursor = s.heap.releaseQueue.length
      · have start' : first (queuedBack metadata s.heap) - s.heap.releaseHead =
            s.pending.length := by
          have cursor : first (queuedBack metadata s.heap) = s.heap.releaseCursor :=
            first_cursor idle ⟨Nat.le_trans (Nat.le_of_eq zero) (Nat.zero_le _),
              Nat.lt_of_lt_of_eq (Nat.lt_succ_of_le (Nat.le_of_eq next)) length.symm⟩
          omega
        refine turns_added performed names rfl consistent
          (unrotated.trans (List.nil_append _).symm) ?_ (fun active => notActive active _)
        rw [rotation', start', turn_new_back (Nat.le_refl _), List.drop_length, List.take_length]
      · have start' : first (queuedBack metadata s.heap) - s.heap.releaseHead = 0 := by
          have unplaced : ¬ Placed (queuedBack metadata s.heap) := by
            rintro (active | on)
            · exact Bool.false_ne_true (idle.symm.trans active)
            · have low : s.heap.releaseCursor < s.heap.releaseQueue.length + 1 :=
                Nat.lt_of_lt_of_eq on.2 length
              omega
          have head : first (queuedBack metadata s.heap) = s.heap.releaseHead :=
            (first_unplaced unplaced).2.1
          omega
        refine turns_added performed names rfl consistent
          (unrotated.trans (List.append_nil _).symm) ?_ (fun active => notActive active _)
        rw [rotation', start', turn_zero]

theorem turns_drain : Turns s .drain := by
  have head : (compactReleaseQueue (endLease s.heap)).releaseHead = 0 := by
    unfold compactReleaseQueue
    split
    · assumption
    · split <;> rfl
  have idle : (compactReleaseQueue (endLease s.heap)).releaseLeaseActive = false := by
    unfold compactReleaseQueue
    split
    · rfl
    · split <;> rfl
  refine turns_of rfl (.empty _ rfl head idle) ?_
  have after := service_empty (h := { compactReleaseQueue (endLease s.heap) with
    releaseQueue := [] }) (s.next + 1) idle
  rw [rename, after]
  exact .clear _

theorem turns_elsewhere (c : Consistent s) (heap : Heap) : Turns s (.elsewhere heap) :=
  turns_of rfl ⟨c.aligned, c.head, c.active, c.distinct,
    fun n mem => Nat.lt_succ_of_lt (c.known n mem)⟩ (.idle _)

theorem turns (c : Consistent s) : ∀ op, Turns s op
  | .lease dispatcher => turns_lease c dispatcher
  | .acknowledge dispatcher leaseId => turns_acknowledge c dispatcher leaseId
  | .retry dispatcher leaseId => turns_retry c dispatcher leaseId
  | .defer dispatcher leaseId => turns_defer c dispatcher leaseId
  | .queue metadata => turns_queue c metadata
  | .drain => turns_drain
  | .elsewhere heap => turns_elsewhere c heap

/-- Every name stands for one record. -/
structure Described (record : Nat → HostReleaseRecord) (s : NamedQueue) : Prop where
  queue : s.heap.releaseQueue = s.names.map record
  known : ∀ n ∈ s.names, n < s.next

theorem Described.same {record : Nat → HostReleaseRecord} (d : Described record s) {h : Heap}
    (queue : h.releaseQueue = s.heap.releaseQueue) :
    Described record ⟨h, s.names, s.next + 1⟩ :=
  ⟨queue.trans d.queue, fun n mem => Nat.lt_succ_of_lt (d.known n mem)⟩

theorem lease_queue (h : Heap) : (leaseHostReleaseForDispatcher h).1.releaseQueue =
    h.releaseQueue := by
  unfold leaseHostReleaseForDispatcher
  split <;> rfl

theorem retry_queue (leaseId : Nat) (h : Heap) :
    (retryHostReleaseForDispatcher leaseId h).1.releaseQueue = h.releaseQueue := by
  unfold retryHostReleaseForDispatcher
  split <;> rfl

theorem defer_queue (leaseId : Nat) (h : Heap) :
    (deferHostReleaseForDispatcher leaseId h).1.releaseQueue = h.releaseQueue := by
  unfold deferHostReleaseForDispatcher
  split <;> rfl

theorem guarded_queue {α : Type} {dispatcher : Bool} {refused : α} {operation : Heap → Heap × α}
    {h : Heap} (same : (operation h).1.releaseQueue = h.releaseQueue) :
    (guarded dispatcher refused operation h).1.releaseQueue = h.releaseQueue := by
  rcases guarded_cases dispatcher refused operation h with shut | opened
  · rw [shut]
  · rw [opened, same]

theorem Described.acknowledge {record : Nat → HostReleaseRecord} (c : Consistent s)
    (d : Described record s) (dispatcher : Bool) (leaseId : Nat) :
    Described record (s.step (.acknowledge dispatcher leaseId)) := by
  have refused (performed : perform s.heap (.acknowledge dispatcher leaseId) = (s.heap, false)) :
      Described record (s.step (.acknowledge dispatcher leaseId)) := by
    rw [step, performed]
    exact d.same rfl
  rcases guarded_cases dispatcher false (acknowledgeHostReleaseForDispatcher leaseId) s.heap with
    shut | opened
  · exact refused shut
  rcases acknowledge_cases leaseId s.heap with no | ⟨active, external, ran⟩
  · exact refused (opened.trans no)
  rw [step, perform, opened, ran]
  dsimp only
  rw [if_pos rfl, rename, c.aligned]
  split
  · next last =>
    rw [compact_settled last]
    exact ⟨rfl, fun n mem => absurd mem List.not_mem_nil⟩
  · refine ⟨?_, fun n mem => Nat.lt_succ_of_lt (d.known n ?_)⟩
    · rw [map_swap, ← d.queue]
      exact swapRecords_eq _ _ _
    · exact mem_of_mem_swap mem

theorem Described.queued {record : Nat → HostReleaseRecord} (d : Described record s)
    (metadata : HostHandleMetadata) : ∃ record' : Nat → HostReleaseRecord,
      (∀ n < s.next, record' n = record n) ∧ Described record' (s.step (.queue metadata)) := by
  by_cases closed : metadata.closed = true
  · refine ⟨record, fun _ _ => rfl, ?_⟩
    rw [step, perform, queueHostRelease, if_pos closed, closed]
    exact d.same rfl
  let record' := fun n => if n = s.next then releaseRecord metadata else record n
  have old : ∀ n < s.next, record' n = record n := fun n less => if_neg (Nat.ne_of_lt less)
  have new : record' s.next = releaseRecord metadata := if_pos rfl
  have kept : s.names.map record' = s.names.map record :=
    List.map_congr_left fun n mem => old n (d.known n mem)
  have opened : (!metadata.closed) = true := by simpa using closed
  refine ⟨record', old, ?_⟩
  rw [step, perform, queueHostRelease, if_neg closed, rename]
  dsimp only
  rw [if_pos opened]
  split
  · refine ⟨?_, fun n mem => ?_⟩
    · dsimp only
      rw [List.map_set, kept, new, d.queue]
    · rcases List.mem_or_eq_of_mem_set mem with before | rfl
      · exact Nat.lt_succ_of_lt (d.known n before)
      · exact Nat.lt_succ_self _
  · refine ⟨?_, fun n mem => ?_⟩
    · dsimp only
      rw [List.map_append, kept, d.queue, List.map_singleton, new]
    · rcases List.mem_append.mp mem with before | last
      · exact Nat.lt_succ_of_lt (d.known n before)
      · rw [List.mem_singleton.mp last]
        exact Nat.lt_succ_self _

/-- A name stands for the same record in every state. -/
theorem described_step {record : Nat → HostReleaseRecord} (c : Consistent s)
    (d : Described record s) (op : QueueOp) : ∃ record' : Nat → HostReleaseRecord,
      (∀ n < s.next, record' n = record n) ∧ Described record' (s.step op) := by
  have unmoved (queue : (perform s.heap op).1.releaseQueue = s.heap.releaseQueue)
      (names : s.rename op = s.names) : ∃ record' : Nat → HostReleaseRecord,
      (∀ n < s.next, record' n = record n) ∧ Described record' (s.step op) := by
    refine ⟨record, fun _ _ => rfl, ?_⟩
    rw [step, names, ite_self]
    exact d.same queue
  cases op with
  | lease dispatcher => exact unmoved (guarded_queue (lease_queue s.heap)) rfl
  | acknowledge dispatcher leaseId =>
    exact ⟨record, fun _ _ => rfl, d.acknowledge c dispatcher leaseId⟩
  | retry dispatcher leaseId => exact unmoved (guarded_queue (retry_queue leaseId s.heap)) rfl
  | defer dispatcher leaseId => exact unmoved (guarded_queue (defer_queue leaseId s.heap)) rfl
  | queue metadata => exact d.queued metadata
  | drain => exact ⟨record, fun _ _ => rfl, rfl, fun n mem => absurd mem List.not_mem_nil⟩
  | elsewhere heap => exact unmoved rfl rfl

/-! Runs. -/

@[simp] theorem run_append (s : NamedQueue) (ops : List QueueOp) (op : QueueOp) :
    s.run (ops ++ [op]) = (s.run ops).step op := by
  simp [run]

theorem Consistent.run (c : Consistent s) (ops : List QueueOp) : Consistent (s.run ops) := by
  induction ops using List.reverseRecOn with
  | nil => exact c
  | append_singleton ops op ih =>
    rw [run_append]
    exact (turns ih op).consistent

theorem next_run (s : NamedQueue) (ops : List QueueOp) :
    (s.run ops).next = s.next + ops.length := by
  induction ops using List.reverseRecOn with
  | nil => rfl
  | append_singleton ops op ih =>
    rw [run_append, List.length_append, ← Nat.add_assoc, ← ih]
    rfl

/-- The record is leased in one of the operations. -/
def LeasedIn (s : NamedQueue) (ops : List QueueOp) (n : Nat) : Prop :=
  ∃ before op after, ops = before ++ op :: after ∧ (s.run before).leased op = some n

/-- The record was pending, still is, and has not been leased since. -/
def Unserved (s : NamedQueue) (ops : List QueueOp) (n : Nat) : Prop :=
  n ∈ s.pending ∧ n ∈ (s.run ops).pending ∧ ¬ s.LeasedIn ops n

/-- The record overtakes another one that has waited since. -/
def Overtakes (s : NamedQueue) (r : Nat) (ops : List QueueOp) (op : QueueOp) : Prop :=
  (s.run ops).overtaken op = some r ∧ ∃ n, n ≠ r ∧ s.Unserved ops n

theorem leasedIn_append (s : NamedQueue) (ops : List QueueOp) (op : QueueOp) (n : Nat) :
    s.LeasedIn (ops ++ [op]) n ↔ s.LeasedIn ops n ∨ (s.run ops).leased op = some n := by
  constructor
  · rintro ⟨before, o, after, parts, leasing⟩
    rcases List.eq_nil_or_concat after with rfl | ⟨rest, last, rfl⟩
    · obtain ⟨same, rfl⟩ : ops = before ∧ op = o := by
        have inits := List.append_inj' parts rfl
        exact ⟨inits.1, List.singleton_inj.mp inits.2⟩
      exact .inr (same ▸ leasing)
    · refine .inl ⟨before, o, rest, ?_, leasing⟩
      have regrouped : ops ++ [op] = (before ++ o :: rest) ++ [last] := by
        rw [parts]; simp
      exact (List.append_inj' regrouped rfl).1
  · rintro (⟨before, o, after, rfl, leasing⟩ | leasing)
    · exact ⟨before, o, after ++ [op], by simp, leasing⟩
    · exact ⟨ops, op, [], rfl, leasing⟩

theorem mem_rotation {n : Nat} : n ∈ s.rotation ↔ n ∈ s.pending := mem_turn

theorem Consistent.rotation_nodup (c : Consistent s) : s.rotation.Nodup :=
  (turn_perm _ _).nodup_iff.mpr c.distinct

theorem leasedIn_nil (s : NamedQueue) (n : Nat) : ¬ s.LeasedIn [] n := by
  rintro ⟨before, op, after, parts, -⟩
  exact absurd parts.symm (by simp)

/-- One more operation serves someone, or loses someone, but adds no one who waits. -/
theorem Unserved.earlier (c : Consistent s) {ops : List QueueOp} {op : QueueOp} {n : Nat}
    (waits : s.Unserved (ops ++ [op]) n) :
    s.Unserved ops n ∧ (s.run ops).leased op ≠ some n ∧ n ∈ ((s.run ops).step op).rotation := by
  obtain ⟨pending, still, never⟩ := waits
  rw [leasedIn_append, not_or] at never
  rw [run_append, ← mem_rotation] at still
  have older : n ≠ (s.run ops).next := by
    have known := c.known n pending
    have grown := next_run s ops
    omega
  have before := ((turns (c.run ops) op).served.members still).resolve_right older
  exact ⟨⟨pending, mem_rotation.mp before, never.1⟩, never.2, still⟩

/-- From the deferral of a record on, everyone who still waits stands before it, unless it
overtakes someone. -/
theorem waits_run (c : Consistent s) {r : Nat} (old : r ∈ s.pending)
    (start : Waits r (s.Unserved []) s.service) (ops : List QueueOp)
    (polite : ∀ before op after, ops = before ++ op :: after → ¬ s.Overtakes r before op) :
    Waits r (s.Unserved ops) (s.run ops).service := by
  induction ops using List.reverseRecOn with
  | nil => exact start
  | append_singleton ops op ih =>
    have waits := ih fun before o after parts =>
      polite before o (after ++ [op]) (by rw [parts]; simp)
    have turn := turns (c.run ops) op
    have older : r ≠ (s.run ops).next := by
      have known := c.known r old
      have grown := next_run s ops
      omega
    rw [run_append]
    refine waits.step turn.served (c.run ops).rotation_nodup
      (fun n waiting => waiting.earlier c) older ?_
    intro overtook n waiting
    by_contra other
    exact polite ops op [] rfl ⟨overtook, n, other, (waiting.earlier c).1⟩

/-- The dispatcher leases the first record when nothing is on lease. -/
theorem leased_first (c : Consistent s) (idle : s.heap.releaseLeaseActive = false) {f : Nat}
    {rest : List Nat} (order : s.rotation = f :: rest) :
    s.leased (.lease true) = some f := by
  have filled : s.heap.releaseHead < s.heap.releaseQueue.length := by
    by_contra empty
    have none : s.pending = [] := List.eq_nil_of_length_eq_zero (by rw [c.pending_length]; omega)
    have mem : f ∈ s.rotation := order ▸ List.mem_cons_self
    rw [mem_rotation, none] at mem
    exact List.not_mem_nil mem
  have start : first s.heap = restart s.heap := by rw [first, idle]; rfl
  have range := c.first_range filled
  obtain ⟨f', here, -, order'⟩ := c.rotation_cons filled
  rw [start] at range here
  have same : f' = f := (List.cons.inj (order'.symm.trans order)).1
  have free : ¬ (s.heap.releaseLeaseActive = true ∨
      s.heap.releaseHead ≥ s.heap.releaseQueue.length) := by
    rintro (active | none)
    · exact Bool.false_ne_true (idle.symm.trans active)
    · omega
  obtain ⟨leaseId, ran⟩ := lease_accepted free
  have performed : perform s.heap (.lease true) = (onLease leaseId s.heap, true) := by
    rw [perform, guarded, if_pos rfl, ran, Option.isSome_map, List.getElem?_eq_getElem range.2]
    rfl
  rw [leased, performed, ← same]
  exact here

/-- What is on lease was leased since a time when nothing was. -/
theorem leased_since (c : Consistent s) (idle : s.heap.releaseLeaseActive = false)
    (ops : List QueueOp) {n : Nat} {rest : List Nat}
    (busy : (s.run ops).heap.releaseLeaseActive = true)
    (order : (s.run ops).rotation = n :: rest) : s.LeasedIn ops n := by
  induction ops using List.reverseRecOn generalizing n rest with
  | nil => exact absurd (idle.symm.trans busy) Bool.false_ne_true
  | append_singleton ops op ih =>
    rw [run_append] at busy order
    rw [leasedIn_append]
    rcases (turns (c.run ops) op).served.on_lease busy order with now | ⟨before, rest', order'⟩
    · exact .inr now
    · exact .inl (ih before order')

/-- Who overtakes others is leased next, and they still wait. -/
theorem leased_after_overtaking (c : Consistent s) (idle : s.heap.releaseLeaseActive = false)
    {r : Nat} {ops : List QueueOp} {op : QueueOp} (overtakes : s.Overtakes r ops op) :
    (s.run (ops ++ [op])).leased (.lease true) = some r ∧
      ∃ n, n ≠ r ∧ s.Unserved (ops ++ [op]) n := by
  obtain ⟨overtook, n, other, pending, still, never⟩ := overtakes
  have turn := turns (c.run ops) op
  have served := turn.served
  rw [overtook] at served
  obtain ⟨f, tail, mid, noLease, source, target⟩ := served.overtaking
  have busy : (s.run ops).heap.releaseLeaseActive = true := congrArg Service.busy source
  have order : (s.run ops).rotation = f :: (tail ++ r :: mid) := congrArg Service.order source
  have idle' : ((s.run ops).step op).heap.releaseLeaseActive = false :=
    congrArg Service.busy target
  have order' : ((s.run ops).step op).rotation = r :: (tail ++ mid) :=
    congrArg Service.order target
  have notFirst : n ≠ f := fun eq => never (eq ▸ leased_since c idle ops busy order)
  rw [run_append]
  refine ⟨leased_first turn.consistent idle' order', n, other, pending, ?_, ?_⟩
  · rw [← mem_rotation, order] at still
    rw [run_append, ← mem_rotation, order']
    simp only [List.mem_cons, List.mem_append] at still ⊢
    tauto
  · rw [leasedIn_append, noLease]
    exact fun served => served.elim never nofun

/-- The deferred record is the last one to serve, and nothing is on lease. -/
theorem service_deferred (c : Consistent s) {dispatcher : Bool} {leaseId r : Nat}
    (accepted : (perform s.heap (.defer dispatcher leaseId)).2 = true)
    (named : s.names[s.heap.activeReleaseIndex]? = some r) :
    ∃ rest, (s.step (.defer dispatcher leaseId)).service = ⟨rest ++ [r], false⟩ := by
  rcases guarded_cases dispatcher false (deferHostReleaseForDispatcher leaseId) s.heap with
    shut | opened
  · rw [perform, shut] at accepted
    exact absurd accepted Bool.false_ne_true
  rcases defer_cases leaseId s.heap with refused | ⟨active, ran⟩
  · rw [perform, opened, refused] at accepted
    exact absurd accepted Bool.false_ne_true
  · obtain ⟨f, rest, here, -, after⟩ := c.deferred active (s.next + 1)
    have performed := opened.trans ran
    have reached : s.step (.defer dispatcher leaseId) = ⟨afterLease
        (if s.heap.activeReleaseIndex + 1 ≥ s.heap.releaseQueue.length then s.heap.releaseHead
          else s.heap.activeReleaseIndex + 1) s.heap, s.names, s.next + 1⟩ := by
      rw [step, perform, performed]
      rfl
    have same : f = r := Option.some.inj (here.symm.trans named)
    exact ⟨rest, by rw [reached, after, same]⟩

/-- A fresh heap has no releases. -/
def fresh (platform : Platform) (canonicalModuleKind : Bytes → Option ModuleKind)
    (limits : HeapLimits) (heapIdentity : Nat) : NamedQueue :=
  ⟨freshHeap platform canonicalModuleKind limits heapIdentity, [], 0⟩

/-- After the deferral of a record, it is never leased before another one that has waited
since, if and only if no acknowledgement moves it past one that waits. -/
theorem deferred_waits_its_turn (platform : Platform)
    (canonicalModuleKind : Bytes → Option ModuleKind) (limits : HeapLimits) (heapIdentity : Nat)
    (earlier : List QueueOp) (dispatcher : Bool) (leaseId r : Nat) (s : NamedQueue)
    (reached : (fresh platform canonicalModuleKind limits heapIdentity).run earlier = s)
    (accepted : (perform s.heap (.defer dispatcher leaseId)).2 = true)
    (named : s.names[s.heap.activeReleaseIndex]? = some r) (ops : List QueueOp) :
    let u := s.step (.defer dispatcher leaseId)
    (∀ before after, ops = before ++ after → ∀ dispatcher',
      (u.run before).leased (.lease dispatcher') = some r → ∀ n, n ≠ r → ¬ u.Unserved before n) ↔
    (∀ before op after, ops = before ++ op :: after → ¬ u.Overtakes r before op) := by
  intro u
  have c : Consistent s := reached ▸ Consistent.run (.empty 0 rfl rfl rfl) earlier
  have cu : Consistent u := (turns c _).consistent
  obtain ⟨rest, service⟩ := service_deferred c accepted named
  have idle : u.heap.releaseLeaseActive = false := congrArg Service.busy service
  have order : u.rotation = rest ++ [r] := congrArg Service.order service
  constructor
  · intro fair before op after parts overtakes
    obtain ⟨leasing, n, other, waits⟩ := leased_after_overtaking cu idle overtakes
    exact fair (before ++ [op]) after (by rw [parts]; simp) true leasing n other waits
  · intro polite before after parts dispatcher' leasing n other waiting
    have old : r ∈ u.pending := by
      rw [← mem_rotation, order]
      exact List.mem_append_right _ (List.mem_singleton_self r)
    have start : Waits r (u.Unserved []) u.service := by
      rw [service]
      exact .put_last fun a waits => order ▸ mem_rotation.mpr waits.1
    have waits := waits_run cu old start before fun b op a split =>
      polite b op (a ++ after) (by rw [parts, split]; simp)
    have served := (turns (cu.run before) (.lease dispatcher')).served
    rw [leasing] at served
    exact other (waits.served served (cu.run before).rotation_nodup n waiting)

/-- An open handle. -/
def sampleHandle (handleId : Nat) : HostHandleMetadata :=
  ⟨handleId, 0, 0, false, .resource, 1, 1, 1, 0⟩

/-- Three releases are queued and the first one is leased. -/
def sampleQueue : List QueueOp :=
  [.queue (sampleHandle 7), .queue (sampleHandle 8), .queue (sampleHandle 9), .lease true]

def sampleFresh : NamedQueue :=
  fresh samplePlatform (fun _ => none) { maxCollectionWork := 4, maxSingleAllocation := 64 } 1

theorem deferred_waits_its_turn_sample :
    let u := (sampleFresh.run sampleQueue).step (.defer true 1)
    ∀ dispatcher', (u.run [.lease true, .retry true 2]).leased (.lease dispatcher') = some 0 →
      ∀ n, n ≠ 0 → ¬ u.Unserved [.lease true, .retry true 2] n := by
  refine (deferred_waits_its_turn samplePlatform (fun _ => none)
    { maxCollectionWork := 4, maxSingleAllocation := 64 } 1 sampleQueue true 1 0
    (sampleFresh.run sampleQueue) rfl (by decide) (by decide)
    [.lease true, .retry true 2]).mpr ?_ [.lease true, .retry true 2] [] rfl
  intro before op after parts overtakes
  obtain ⟨overtook, -⟩ := overtakes
  have mem : op ∈ [QueueOp.lease true, .retry true 2] := by rw [parts]; simp
  rcases List.mem_pair.mp mem with rfl | rfl
  · exact absurd overtook nofun
  · exact absurd overtook nofun

/-- The first of three records is deferred, the second one is acknowledged, and the first
one is leased again before the third. -/
theorem deferred_record_overtakes : ¬ ∀ (platform : Platform)
    (canonicalModuleKind : Bytes → Option ModuleKind) (limits : HeapLimits) (heapIdentity : Nat)
    (earlier : List QueueOp) (dispatcher : Bool) (leaseId r : Nat) (s : NamedQueue),
    (fresh platform canonicalModuleKind limits heapIdentity).run earlier = s →
    (perform s.heap (.defer dispatcher leaseId)).2 = true →
    s.names[s.heap.activeReleaseIndex]? = some r →
    ∀ ops dispatcher', ((s.step (.defer dispatcher leaseId)).run ops).leased
      (.lease dispatcher') = some r →
    ∀ n, n ≠ r → ¬ (s.step (.defer dispatcher leaseId)).Unserved ops n := by
  intro claim
  have early := claim samplePlatform (fun _ => none)
    { maxCollectionWork := 4, maxSingleAllocation := 64 } 1 sampleQueue true 1 0 _ rfl
    (by decide) (by decide) [.lease true, .acknowledge true 2] true (by decide) 2 (by decide)
  refine early ⟨by decide, by decide, ?_⟩
  have parts : [QueueOp.lease true, .acknowledge true 2] =
    ([] ++ [.lease true]) ++ [.acknowledge true 2] := rfl
  rw [parts, leasedIn_append, leasedIn_append]
  rintro ((none | second) | none)
  · exact leasedIn_nil _ _ none
  · exact absurd second (by decide)
  · exact absurd none nofun

end NamedQueue

end Baas.Script
