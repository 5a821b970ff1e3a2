import Mathlib.Data.List.Nodup
import Mathlib.Order.Basic
import Baas.Procedure.Coordinator

/-! The table of the coordinator against the leases and the waiting calls, over whole runs. -/
namespace Baas.Procedure

/-- The tickets of the calls that wait for a device, in the order they came. -/
def queueOf (calls : List Waiting) (device : String) : List Nat :=
  (calls.filter (fun call => call.device = device)).map Waiting.ticket

section Queues

variable {calls : List Waiting} {call : Waiting} {device : String}

theorem queueOf_append_self (calls : List Waiting) (call : Waiting) :
    queueOf (calls ++ [call]) call.device = queueOf calls call.device ++ [call.ticket] := by
  simp [queueOf]

theorem queueOf_append_ne (other : call.device ≠ device) :
    queueOf (calls ++ [call]) device = queueOf calls device := by
  simp [queueOf, other]

theorem queueOf_erase_ne (other : call.device ≠ device) :
    queueOf (calls.erase call) device = queueOf calls device := by
  induction calls with
  | nil => rfl
  | cons first rest ih =>
    by_cases same : first = call
    · subst same
      rw [List.erase_cons_head]
      simp [queueOf, other]
    · rw [List.erase_cons_tail (by simpa using same)]
      unfold queueOf at ih ⊢
      by_cases here : first.device = device
      · simp [here, ih]
      · simp [here, ih]

theorem queueOf_erase_self (distinct : (calls.map Waiting.ticket).Nodup)
    (there : call ∈ calls) :
    queueOf (calls.erase call) call.device = (queueOf calls call.device).erase call.ticket := by
  induction calls with
  | nil => cases there
  | cons first rest ih =>
    rw [List.map_cons, List.nodup_cons] at distinct
    by_cases same : first = call
    · subst same
      rw [List.erase_cons_head]
      simp [queueOf]
    · obtain rfl | later := List.mem_cons.mp there
      · exact absurd rfl same
      · have tickets : first.ticket ≠ call.ticket := by
          intro equal
          apply distinct.1
          rw [equal]
          exact List.mem_map_of_mem later
        have rest := ih distinct.2 later
        rw [List.erase_cons_tail (by simpa using same)]
        unfold queueOf at rest ⊢
        by_cases here : first.device = call.device
        · simp [here, rest, tickets]
        · simp [here, rest]

theorem ticket_mem_queueOf (there : call ∈ calls) : call.ticket ∈ queueOf calls call.device :=
  List.mem_map_of_mem (List.mem_filter.mpr ⟨there, by simp⟩)

theorem mem_queueOf {ticket : Nat} (there : ticket ∈ queueOf calls device) :
    ∃ call ∈ calls, call.device = device ∧ call.ticket = ticket := by
  obtain ⟨call, found, same⟩ := List.mem_map.mp there
  rw [List.mem_filter, decide_eq_true_eq] at found
  exact ⟨call, found.1, found.2, same⟩

theorem queueOf_nil_iff : queueOf calls device = [] ↔ ∀ call ∈ calls, call.device ≠ device := by
  simp [queueOf]

theorem queueOf_sorted (ordered : (calls.map Waiting.ticket).Pairwise (· < ·)) :
    (queueOf calls device).Pairwise (· < ·) :=
  ordered.sublist (List.filter_sublist.map _)

end Queues

/-- What the entry of a device is, by whether it is leased and who waits for it. -/
def FitsAt (entry : Option DeviceState) (leased : Prop) (queue : List Nat) : Prop :=
  match entry with
  | none => ¬ leased ∧ queue = []
  | some state =>
    (state.busy = true ↔ leased) ∧ state.waiters = queue ∧ (state.busy = true ∨ queue ≠ [])

def World.entry (w : World) (device : String) : Option DeviceState :=
  w.coordinator.devices.find? device

def World.leased (w : World) (device : String) : Prop := device ∈ w.leases.map Lease.device

structure Sound (w : World) : Prop where
  fits : ∀ device, FitsAt (w.entry device) (w.leased device) (queueOf w.calls device)
  exclusive : (w.leases.map Lease.device).Nodup
  counted : w.coordinator.waiterCount = w.calls.length
  ordered : (w.calls.map Waiting.ticket).Pairwise (· < ·)
  issued : ∀ call ∈ w.calls, call.ticket < w.coordinator.nextTicket

theorem sound_start : Sound .start where
  fits _ := ⟨by simp [World.leased, World.start], rfl⟩
  exclusive := List.nodup_nil
  counted := rfl
  ordered := List.Pairwise.nil
  issued := nofun

section Table

variable {c : Coordinator} {device other : String} {state : DeviceState}

theorem find?_set (c : Coordinator) (device other : String) (state : DeviceState) :
    (c.set device state).devices.find? other =
      if device = other then some state else c.devices.find? other :=
  OrderedMap.find?_insert _ _ _ _

theorem find?_drop (c : Coordinator) (device other : String) :
    (c.drop device).devices.find? other =
      if device = other then none else c.devices.find? other :=
  OrderedMap.find?_erase _ _ _

end Table

/-- What a change at one device leaves of the other devices. -/
theorem fits_elsewhere {w w' : World} (sound : Sound w) (device : String)
    (entries : ∀ other, device ≠ other → w'.entry other = w.entry other)
    (leases : ∀ other, device ≠ other → (w'.leased other ↔ w.leased other))
    (queues : ∀ other, device ≠ other → queueOf w'.calls other = queueOf w.calls other)
    (here : FitsAt (w'.entry device) (w'.leased device) (queueOf w'.calls device)) :
    ∀ other, FitsAt (w'.entry other) (w'.leased other) (queueOf w'.calls other) := by
  intro other
  by_cases same : device = other
  · exact same ▸ here
  · rw [entries other same, queues other same]
    have before := sound.fits other
    generalize w.entry other = entry at before ⊢
    cases entry with
    | none => exact ⟨fun leased => before.1 ((leases other same).mp leased), before.2⟩
    | some state => exact ⟨before.1.trans (leases other same).symm, before.2⟩

section Steps

variable {w : World} {call : Waiting}

theorem Sound.distinct (sound : Sound w) : (w.calls.map Waiting.ticket).Nodup :=
  sound.ordered.imp (fun lt => Nat.ne_of_lt lt)

/-- A device that someone waits for has an entry, whose queue is that of the waiting calls. -/
theorem Sound.waited (sound : Sound w) (there : call ∈ w.calls) :
    ∃ state, w.entry call.device = some state ∧ (state.busy = true ↔ w.leased call.device) ∧
      state.waiters = queueOf w.calls call.device := by
  have before := sound.fits call.device
  have ticket := ticket_mem_queueOf there
  unfold FitsAt at before
  cases found : w.entry call.device with
  | none =>
    rw [found] at before
    rw [before.2] at ticket
    cases ticket
  | some state =>
    rw [found] at before
    exact ⟨state, rfl, before.1, before.2.1⟩

/-- Two coordinators with the same table and counts. -/
theorem Sound.same_table (sound : Sound w) {c : Coordinator}
    (devices : c.devices = w.coordinator.devices)
    (count : c.waiterCount = w.coordinator.waiterCount)
    (tickets : w.coordinator.nextTicket ≤ c.nextTicket) : Sound { w with coordinator := c } where
  fits device := by
    have before := sound.fits device
    unfold World.entry at before ⊢
    rw [devices]
    exact before
  exclusive := sound.exclusive
  counted := count.trans sound.counted
  ordered := sound.ordered
  issued call there := Nat.lt_of_lt_of_le (sound.issued call there) tickets

theorem ordered_erase (sound : Sound w) :
    ((w.calls.erase call).map Waiting.ticket).Pairwise (· < ·) :=
  sound.ordered.sublist (List.erase_sublist.map _)

/-- `cancel_wait` takes a waiting call out of the table. -/
theorem Sound.cancelWait (sound : Sound w) (there : call ∈ w.calls) :
    Sound { w with
      coordinator := w.coordinator.cancelWait call.device call.ticket
      calls := w.calls.erase call } := by
  obtain ⟨state, found, busy, waiters⟩ := sound.waited there
  have found' : w.coordinator.devices.find? call.device = some state := found
  have ticket : call.ticket ∈ state.waiters := waiters ▸ ticket_mem_queueOf there
  have queue : state.waiters.erase call.ticket = queueOf (w.calls.erase call) call.device := by
    rw [waiters, queueOf_erase_self sound.distinct there]
  have count : w.coordinator.waiterCount - 1 = (w.calls.erase call).length := by
    rw [sound.counted, List.length_erase_of_mem there]
  have issued : ∀ other ∈ w.calls.erase call, other.ticket < w.coordinator.nextTicket :=
    fun other kept => sound.issued other (List.mem_of_mem_erase kept)
  have queues : ∀ other, call.device ≠ other →
      queueOf (w.calls.erase call) other = queueOf w.calls other :=
    fun other differ => queueOf_erase_ne differ
  unfold Coordinator.cancelWait
  rw [found']
  simp only [ticket, if_true]
  by_cases last : state.busy = false ∧ state.waiters.erase call.ticket = []
  · rw [if_pos last]
    refine ⟨?_, sound.exclusive, count, ordered_erase sound, issued⟩
    apply fits_elsewhere sound call.device
    · intro other differ
      exact (find?_drop _ _ _).trans (if_neg differ)
    · exact fun _ _ => Iff.rfl
    · exact queues
    · have gone : World.entry { w with
          coordinator := { w.coordinator.drop call.device with
            waiterCount := w.coordinator.waiterCount - 1 }
          calls := w.calls.erase call } call.device = none :=
        (find?_drop _ _ _).trans (if_pos rfl)
      rw [gone]
      refine ⟨?_, queue ▸ last.2⟩
      intro leased
      rw [busy.mpr leased] at last
      cases last.1
  · rw [if_neg last]
    refine ⟨?_, sound.exclusive, count, ordered_erase sound, issued⟩
    apply fits_elsewhere sound call.device
    · intro other differ
      exact (find?_set _ _ _ _).trans (if_neg differ)
    · exact fun _ _ => Iff.rfl
    · exact queues
    · have kept : World.entry { w with
          coordinator := { w.coordinator.set call.device
              { state with waiters := state.waiters.erase call.ticket } with
            waiterCount := w.coordinator.waiterCount - 1 }
          calls := w.calls.erase call } call.device =
            some { state with waiters := state.waiters.erase call.ticket } :=
        (find?_set _ _ _ _).trans (if_pos rfl)
      rw [kept]
      refine ⟨busy, queue, ?_⟩
      rw [← queue]
      by_cases isBusy : state.busy = true
      · exact .inl isBusy
      · right
        intro empty
        exact last ⟨by simpa using isBusy, empty⟩

theorem leased_append {leases : List Lease} {lease : Lease} {other : String}
    (differ : lease.device ≠ other) :
    other ∈ (leases ++ [lease]).map Lease.device ↔ other ∈ leases.map Lease.device := by
  simp [Ne.symm differ]

/-- A new lease of a device that has none, with what that makes of its entry and queue. -/
theorem Sound.grant (sound : Sound w) {device : String} {c : Coordinator}
    {calls : List Waiting} {state : DeviceState} {lease : Nat} (free : ¬ w.leased device)
    (entries : ∀ other, device ≠ other → c.devices.find? other = w.entry other)
    (here : c.devices.find? device = some state) (busy : state.busy = true)
    (waiters : state.waiters = queueOf calls device)
    (queues : ∀ other, device ≠ other → queueOf calls other = queueOf w.calls other)
    (counted : c.waiterCount = calls.length)
    (ordered : (calls.map Waiting.ticket).Pairwise (· < ·))
    (issued : ∀ call ∈ calls, call.ticket < c.nextTicket) {next : Nat} :
    Sound ⟨c, w.leases ++ [⟨lease, device, true⟩], next, calls⟩ where
  fits := by
    refine @fits_elsewhere w ⟨c, w.leases ++ [⟨lease, device, true⟩], next, calls⟩ sound device
      entries (fun _ differ => leased_append differ) queues ?_
    have there : World.entry ⟨c, w.leases ++ [⟨lease, device, true⟩], next, calls⟩ device =
        some state := here
    rw [there]
    refine ⟨iff_of_true busy ?_, waiters, .inl busy⟩
    simp [World.leased]
  exclusive := by
    rw [List.map_append]
    apply List.Nodup.append sound.exclusive (List.nodup_singleton _)
    intro other old new
    cases List.mem_singleton.mp new
    exact free old
  counted := counted
  ordered := ordered
  issued := issued

/-- The head of the queue of a device is the oldest call that waits for it. -/
theorem Sound.oldest (sound : Sound w) {state : DeviceState}
    (found : w.entry call.device = some state) (first : state.waiters.head? = some call.ticket) :
    ∀ other ∈ w.calls, other.device = call.device → call.ticket ≤ other.ticket := by
  intro other there same
  have before := sound.fits call.device
  rw [found] at before
  have sorted : state.waiters.Pairwise (· < ·) := before.2.1 ▸ queueOf_sorted sound.ordered
  have listed : other.ticket ∈ state.waiters := by
    rw [before.2.1, ← same]
    exact ticket_mem_queueOf there
  obtain ⟨rest, whole⟩ := List.head?_eq_some_iff.mp first
  rw [whole] at sorted listed
  obtain head | later := List.mem_cons.mp listed
  · exact Nat.le_of_eq head.symm
  · exact Nat.le_of_lt ((List.pairwise_cons.mp sorted).1 _ later)

/-- The loop keeps the table right, and a call that it grants is the oldest of its device,
which nobody has. -/
theorem Sound.wake (sound : Sound w) (there : call ∈ w.calls) (polls : Polls)
    (allocations : Allocations) :
    Sound (w.wake call polls allocations).2 ∧
      ∀ lease, (w.wake call polls allocations).1 = .acquired lease →
        ¬ w.leased call.device ∧
        ∀ other ∈ w.calls, other.device = call.device → call.ticket ≤ other.ticket := by
  have cancelled := sound.cancelWait there
  obtain ⟨state, found, busy, waiters⟩ := sound.waited there
  have found' : w.coordinator.devices.find? call.device = some state := found
  unfold World.wake Coordinator.turn
  by_cases deadline : polls.deadline = true
  · rw [if_pos deadline]
    exact ⟨cancelled, nofun⟩
  rw [if_neg deadline]
  by_cases cancel : polls.cancelled = true
  · rw [if_pos cancel]
    exact ⟨cancelled, nofun⟩
  rw [if_neg cancel]
  by_cases stopping : w.coordinator.stopping = true
  · rw [if_pos stopping]
    exact ⟨cancelled, nofun⟩
  rw [if_neg stopping, found']
  simp only
  by_cases turn : state.busy = false ∧ state.waiters.head? = some call.ticket
  · rw [if_pos turn]
    have free : ¬ w.leased call.device := by
      intro leased
      rw [busy.mpr leased] at turn
      cases turn.1
    by_cases acquisition : allocations.acquisition = true
    · rw [if_pos acquisition]
      refine ⟨?_, fun _ _ => ⟨free, sound.oldest found turn.2⟩⟩
      have queue : state.waiters.tail = queueOf (w.calls.erase call) call.device := by
        obtain ⟨rest, whole⟩ := List.head?_eq_some_iff.mp turn.2
        rw [queueOf_erase_self sound.distinct there, ← waiters, whole, List.erase_cons_head,
          List.tail_cons]
      apply sound.grant free
      · exact fun other differ => (find?_set _ _ _ _).trans (if_neg differ)
      · exact (find?_set _ _ _ _).trans (if_pos rfl)
      · rfl
      · exact queue
      · exact fun other differ => queueOf_erase_ne differ
      · have count := sound.counted
        rw [List.length_erase_of_mem there, ← count]
      · exact ordered_erase sound
      · exact fun other kept => sound.issued other (List.mem_of_mem_erase kept)
    · rw [if_neg acquisition]
      exact ⟨cancelled, nofun⟩
  · rw [if_neg turn]
    exact ⟨sound, nofun⟩

/-- The destructor of a lease starts. -/
theorem Sound.disarm (sound : Sound w) (lease : Nat) : Sound (w.disarm lease) := by
  have devices : (w.disarm lease).leases.map Lease.device = w.leases.map Lease.device := by
    unfold World.disarm
    rw [List.map_map]
    apply List.map_congr_left
    intro other _
    simp only [Function.comp_apply]
    split <;> rfl
  refine ⟨?_, ?_, sound.counted, sound.ordered, sound.issued⟩
  · intro device
    have same : (w.disarm lease).leased device = w.leased device := by
      unfold World.leased
      rw [devices]
    rw [same]
    exact sound.fits device
  · rw [devices]
    exact sound.exclusive

theorem map_erase_device {leases : List Lease} {lease : Lease}
    (distinct : (leases.map Lease.device).Nodup) (there : lease ∈ leases) :
    (leases.erase lease).map Lease.device = (leases.map Lease.device).erase lease.device := by
  induction leases with
  | nil => cases there
  | cons first rest ih =>
    rw [List.map_cons, List.nodup_cons] at distinct
    by_cases same : first = lease
    · subst same
      rw [List.erase_cons_head, List.map_cons, List.erase_cons_head]
    · obtain rfl | later := List.mem_cons.mp there
      · exact absurd rfl same
      · have differ : first.device ≠ lease.device := by
          intro equal
          apply distinct.1
          rw [equal]
          exact List.mem_map_of_mem later
        rw [List.erase_cons_tail (by simpa using same), List.map_cons, List.map_cons,
          List.erase_cons_tail (by simpa using differ), ih distinct.2 later]

theorem Sound.release (sound : Sound w) {lease : Lease} (there : lease ∈ w.leases) :
    Sound (w.release lease) := by
  have held : w.leased lease.device := List.mem_map_of_mem there
  have left := map_erase_device sound.exclusive there
  have before := sound.fits lease.device
  have gone : ¬ (w.release lease).leased lease.device := by
    unfold World.leased World.release
    rw [left]
    exact sound.exclusive.not_mem_erase
  have others (other : String) (differ : lease.device ≠ other) :
      (w.release lease).leased other ↔ w.leased other := by
    unfold World.leased World.release
    rw [left]
    exact List.mem_erase_of_ne differ.symm
  have exclusive : ((w.release lease).leases.map Lease.device).Nodup := by
    unfold World.release
    rw [left]
    exact sound.exclusive.erase _
  cases found : w.entry lease.device with
  | none =>
    rw [found] at before
    exact absurd held before.1
  | some state =>
    rw [found] at before
    have found' : w.coordinator.devices.find? lease.device = some state := found
    have step : (w.release lease).coordinator = if state.waiters = [] then
        w.coordinator.drop lease.device
        else w.coordinator.set lease.device { state with busy := false, owner := none } := by
      unfold World.release Coordinator.release
      rw [found']
    by_cases last : state.waiters = []
    · rw [if_pos last] at step
      refine ⟨?_, exclusive, ?_, sound.ordered, ?_⟩
      · apply fits_elsewhere sound lease.device _ others (fun _ _ => rfl)
        · unfold World.entry
          rw [step, find?_drop, if_pos rfl]
          exact ⟨gone, before.2.1 ▸ last⟩
        · intro other differ
          unfold World.entry
          rw [step, find?_drop, if_neg differ]
      · rw [step]
        exact sound.counted
      · rw [step]
        exact sound.issued
    · rw [if_neg last] at step
      refine ⟨?_, exclusive, ?_, sound.ordered, ?_⟩
      · apply fits_elsewhere sound lease.device _ others (fun _ _ => rfl)
        · unfold World.entry
          rw [step, find?_set, if_pos rfl]
          exact ⟨iff_of_false nofun gone, before.2.1, .inr (before.2.1 ▸ last)⟩
        · intro other differ
          unfold World.entry
          rw [step, find?_set, if_neg differ]
      · rw [step]
        exact sound.counted
      · rw [step]
        exact sound.issued

/-! The first critical section. -/

/-- A device is in use when it is leased or someone waits for it. -/
def World.used (w : World) (device : String) : Prop :=
  w.leased device ∨ ∃ call ∈ w.calls, call.device = device

theorem Sound.entry_none_iff (sound : Sound w) (device : String) :
    w.entry device = none ↔ ¬ w.used device := by
  have before := sound.fits device
  unfold World.used
  rw [not_or]
  cases found : w.entry device with
  | none =>
    rw [found] at before
    have queue := queueOf_nil_iff.mp before.2
    refine ⟨fun _ => ⟨before.1, ?_⟩, fun _ => rfl⟩
    rintro ⟨call, there, same⟩
    exact queue call there same
  | some state =>
    rw [found] at before
    refine ⟨nofun, ?_⟩
    rintro ⟨free, alone⟩
    obtain ⟨busy, -, inUse | queued⟩ := before
    · exact absurd (busy.mp inUse) free
    · exfalso
      apply queued
      apply queueOf_nil_iff.mpr
      exact fun call there same => alone ⟨call, there, same⟩

/-- The steps that a call has to get through for its device to be in the table afterwards only
if it is in use. -/
def World.Clear (w : World) (limits : CoordinatorLimits) (request : Request)
    (others : Nat → Bool) (allocations : Allocations) : Prop :=
  ¬ w.used request.device → w.coordinator.stopping = false →
    w.coordinator.devices.size < limits.maxDevices → allocations.entry = true →
    w.depth others request.lineage < limits.maxAdmissionDepth ∧ allocations.acquisition = true

/-- A call that waits: its ticket is the last one. -/
theorem Sound.enqueue (sound : Sound w) {device : String} {state : DeviceState} {thread : Nat}
    (found : w.entry device = some state) :
    Sound { w with
      coordinator := { w.coordinator.set device
          { state with waiters := state.waiters ++ [w.coordinator.nextTicket] } with
        nextTicket := w.coordinator.nextTicket + 1
        waiterCount := w.coordinator.waiterCount + 1 }
      calls := w.calls ++ [⟨w.coordinator.nextTicket, thread, device⟩] } := by
  have before := sound.fits device
  rw [found] at before
  refine ⟨?_, sound.exclusive, ?_, ?_, ?_⟩
  · apply fits_elsewhere sound device
    · exact fun other differ => (find?_set _ _ _ _).trans (if_neg differ)
    · exact fun _ _ => Iff.rfl
    · exact fun other differ => queueOf_append_ne differ
    · have there : World.entry { w with
          coordinator := { w.coordinator.set device
              { state with waiters := state.waiters ++ [w.coordinator.nextTicket] } with
            nextTicket := w.coordinator.nextTicket + 1
            waiterCount := w.coordinator.waiterCount + 1 }
          calls := w.calls ++ [⟨w.coordinator.nextTicket, thread, device⟩] } device =
            some { state with waiters := state.waiters ++ [w.coordinator.nextTicket] } :=
        (find?_set _ _ _ _).trans (if_pos rfl)
      rw [there]
      have queue := queueOf_append_self w.calls ⟨w.coordinator.nextTicket, thread, device⟩
      refine ⟨before.1, ?_, .inr ?_⟩
      · rw [queue, before.2.1]
      · rw [queue]
        exact List.append_ne_nil_of_right_ne_nil _ (List.cons_ne_nil _ _)
  · simp [sound.counted]
  · rw [List.map_append, List.pairwise_append]
    refine ⟨sound.ordered, List.pairwise_singleton _ _, ?_⟩
    intro old listed new here
    obtain ⟨call, there, rfl⟩ := List.mem_map.mp listed
    cases List.mem_singleton.mp here
    exact sound.issued call there
  · intro call there
    obtain old | new := List.mem_append.mp there
    · exact Nat.lt_succ_of_lt (sound.issued call old)
    · cases List.mem_singleton.mp new
      exact Nat.lt_succ_self _

theorem World.reenters_leased {device : String} {lineage : List Node}
    (reenters : w.reenters device lineage = true) : w.leased device := by
  unfold World.reenters at reenters
  obtain ⟨lease, there, held⟩ := List.any_eq_true.mp reenters
  simp only [Bool.and_eq_true, decide_eq_true_eq] at held
  rw [← held.1.2]
  exact List.mem_map_of_mem there

theorem Sound.erase_last (sound : Sound w) (thread : Nat) (device : String) :
    (w.calls ++ [(⟨w.coordinator.nextTicket, thread, device⟩ : Waiting)]).erase
      ⟨w.coordinator.nextTicket, thread, device⟩ = w.calls := by
  have new : (⟨w.coordinator.nextTicket, thread, device⟩ : Waiting) ∉ w.calls :=
    fun old => Nat.lt_irrefl _ (sound.issued _ old)
  rw [List.erase_append_right _ new]
  simp

theorem settle_coordinator (w : World) (c : Coordinator) (calls rest : List Waiting)
    (call : Waiting) (ended : Coordinator × Ended) :
    ({ w with coordinator := c, calls := calls } : World).settle call rest ended =
      ({ w with calls := calls } : World).settle call rest ended := by
  obtain ⟨c', code | _ | _ | ticket⟩ := ended <;> rfl

/-- What `acquire` answers in its first critical section. -/
structure Entered (limits : CoordinatorLimits) (w : World) (request : Request)
    (others : Nat → Bool) (answer : Answer) : Prop where
  newcomer : ∀ lease, answer = .acquired lease → ¬ w.used request.device
  reentry : w.reenters request.device request.lineage = true →
    answer = .returned .reentrant ∨
      w.coordinator.stopping = true ∧ answer = .returned .shutdown
  full : answer = .returned .backpressure → ¬ w.used request.device →
    limits.maxDevices ≤ w.coordinator.devices.size

theorem Sound.enter (sound : Sound w) {limits : CoordinatorLimits} {request : Request}
    {others : Nat → Bool} {allocations : Allocations}
    (clear : w.Clear limits request others allocations) (polls : Polls) :
    Sound (w.enter limits request others polls allocations).2 ∧
      Entered limits w request others (w.enter limits request others polls allocations).1 := by
  unfold World.enter Coordinator.enter
  by_cases stopping : w.coordinator.stopping = true
  · rw [if_pos stopping]
    exact ⟨sound, nofun, fun _ => .inr ⟨stopping, rfl⟩, nofun⟩
  rw [if_neg stopping]
  have running : w.coordinator.stopping = false := by simpa using stopping
  have unused := sound.entry_none_iff request.device
  cases found : w.entry request.device with
  | none =>
    have found' : w.coordinator.devices.find? request.device = none := found
    have free : ¬ w.used request.device := unused.mp found
    have fresh : w.reenters request.device request.lineage = false := by
      rw [Bool.eq_false_iff]
      exact fun reenters => free (.inl (World.reenters_leased reenters))
    have noReentry {answer : Answer} (reenters : w.reenters request.device request.lineage = true) :
        answer = .returned .reentrant ∨
          w.coordinator.stopping = true ∧ answer = .returned .shutdown := by
      rw [fresh] at reenters
      cases reenters
    rw [found']
    simp only
    by_cases full : limits.maxDevices ≤ w.coordinator.devices.size
    · rw [if_pos full]
      exact ⟨sound, nofun, noReentry, fun _ _ => full⟩
    rw [if_neg full]
    by_cases entry : allocations.entry = true
    · rw [if_pos entry]
      obtain ⟨shallow, acquisition⟩ := clear free running (Nat.lt_of_not_le full) entry
      have granted : (w.coordinator.set request.device .idle).queue limits .idle request.thread
          request.device (w.reenters request.device request.lineage)
          (w.depth others request.lineage) allocations =
          ((w.coordinator.set request.device .idle).set request.device
            ⟨true, some request.thread, []⟩, .granted) := by
        unfold Coordinator.queue
        rw [fresh, if_neg (by simp), if_neg (by simp [DeviceState.idle]),
          if_neg (Nat.not_le_of_lt shallow), if_pos ⟨rfl, rfl⟩, if_pos acquisition]
        rfl
      rw [granted]
      refine ⟨?_, fun _ _ => free, noReentry, nofun⟩
      have queue := sound.fits request.device
      rw [found] at queue
      apply sound.grant queue.1
      · intro other differ
        rw [find?_set, if_neg differ, find?_set, if_neg differ]
        rfl
      · rw [find?_set, if_pos rfl]
      · rfl
      · exact queue.2.symm
      · exact fun _ _ => rfl
      · exact sound.counted
      · exact sound.ordered
      · exact sound.issued
    · rw [if_neg entry]
      exact ⟨sound, nofun, noReentry, nofun⟩
  | some state =>
    have found' : w.coordinator.devices.find? request.device = some state := found
    have inUse : w.used request.device := by
      by_contra free
      rw [unused.mpr free] at found
      cases found
    have before := sound.fits request.device
    rw [found] at before
    rw [found']
    simp only
    unfold Coordinator.queue
    by_cases reenters : w.reenters request.device request.lineage = true
    · rw [if_pos reenters]
      exact ⟨sound, nofun, fun _ => .inl rfl, nofun⟩
    rw [if_neg reenters]
    have noReentry {answer : Answer} (again : w.reenters request.device request.lineage = true) :
        answer = .returned .reentrant ∨
          w.coordinator.stopping = true ∧ answer = .returned .shutdown :=
      absurd again reenters
    have noRoom {answer : Answer} (_ : answer = .returned .backpressure)
        (free : ¬ w.used request.device) : limits.maxDevices ≤ w.coordinator.devices.size :=
      absurd inUse free
    by_cases same : state.busy = true ∧ state.owner = some request.thread
    · rw [if_pos same]
      exact ⟨sound, nofun, noReentry, noRoom⟩
    rw [if_neg same]
    by_cases deep : limits.maxAdmissionDepth ≤ w.depth others request.lineage
    · rw [if_pos deep]
      exact ⟨sound, nofun, noReentry, noRoom⟩
    rw [if_neg deep]
    have taken : ¬ (state.busy = false ∧ state.waiters = []) := by
      rintro ⟨idle, alone⟩
      obtain ⟨-, waiters, busy | queued⟩ := before
      · rw [idle] at busy
        cases busy
      · exact queued (waiters ▸ alone)
    rw [if_neg taken]
    by_cases crowded : limits.maxWaiters ≤ w.coordinator.waiterCount
    · rw [if_pos crowded]
      exact ⟨sound, nofun, noReentry, noRoom⟩
    rw [if_neg crowded]
    by_cases ticket : allocations.ticket = true
    · rw [if_pos ticket]
      simp only
      have queued := @Sound.enqueue w sound request.device state request.thread found
      have there := List.mem_append_right w.calls (List.mem_singleton_self
        (⟨w.coordinator.nextTicket, request.thread, request.device⟩ : Waiting))
      have last := sound.erase_last request.thread request.device
      obtain ⟨woken, granted⟩ := queued.wake there polls allocations
      unfold World.wake at woken granted
      rw [last] at woken granted
      rw [settle_coordinator] at woken granted
      refine ⟨woken, ?_, noReentry, noRoom⟩
      intro lease same
      obtain ⟨free, oldest⟩ := granted lease same
      rintro (leased | ⟨call, waits, here⟩)
      · exact free leased
      · have before := oldest call (List.mem_append_left _ waits) here
        exact Nat.not_lt_of_le before (sound.issued call waits)
    · rw [if_neg ticket]
      exact ⟨sound.same_table rfl rfl (Nat.le_succ _), nofun, noReentry, noRoom⟩

end Steps

/-! Runs. -/

/-- The condition on a step: a call for a device that is not in use gets past the depth of
admissions and allocates its acquisition. -/
def Careful (limits : CoordinatorLimits) (e : Transition.Event World Label) : Prop :=
  match e.label with
  | .enter request others _ allocations _ => e.source.Clear limits request others allocations
  | _ => True

variable {limits : CoordinatorLimits} {es : List (Transition.Event World Label)} {w : World}

theorem Step.sound {label : Label} {t : World} (step : Step limits w label t)
    (careful : Careful limits ⟨w, label, t⟩) (sound : Sound w) : Sound t := by
  cases step with
  | refuse refused => exact sound
  | enter valid => exact (sound.enter careful _).1
  | wake there => exact (sound.wake there _ _).1
  | disarm => exact sound.disarm _
  | release there inactive => exact sound.release there
  | shutdown => exact sound.same_table rfl rfl (Nat.le_refl _)

theorem run_sound (run : Transition.Run (system limits) es w)
    (careful : ∀ e ∈ es, Careful limits e) : Sound w := by
  apply run.invariant_while (Careful limits) Sound
  · rintro s rfl
    exact sound_start
  · exact fun s label t sound step careful => Step.sound step careful sound
  · exact careful

/-- What a step may grant and reject. -/
def Fair (limits : CoordinatorLimits) (e : Transition.Event World Label) : Prop :=
  match e.label with
  | .enter request others _ _ answer => Entered limits e.source request others answer
  | .wake call _ _ answer => ∀ lease, answer = .acquired lease →
    ¬ e.source.leased call.device ∧
      ∀ other ∈ e.source.calls, other.device = call.device → call.ticket ≤ other.ticket
  | _ => True

theorem Step.fair {label : Label} {t : World} (step : Step limits w label t)
    (careful : Careful limits ⟨w, label, t⟩) (sound : Sound w) : Fair limits ⟨w, label, t⟩ := by
  cases step with
  | refuse refused => trivial
  | enter valid => exact (sound.enter careful _).2
  | wake there => exact (sound.wake there _ _).2
  | disarm => trivial
  | release there inactive => trivial
  | shutdown => trivial

/-- Every event of a careful run starts in a state that a careful run has reached. -/
theorem run_fair (run : Transition.Run (system limits) es w)
    (careful : ∀ e ∈ es, Careful limits e) : ∀ e ∈ es, Fair limits e := by
  induction run with
  | start _ => exact fun e there => absurd there List.not_mem_nil
  | step prior step ih =>
    have earlier := fun e there => careful e (List.mem_append_left _ there)
    have last := careful _ (List.mem_append_right _ (List.mem_singleton_self _))
    intro e there
    obtain old | new := List.mem_append.mp there
    · exact ih earlier e old
    · cases List.mem_singleton.mp new
      exact Step.fair step last (run_sound prior earlier)

/-- The devices in the table are the devices in use, each once. -/
theorem Sound.table (sound : Sound w) :
    ∃ devices : List String, devices.Nodup ∧ (∀ device, device ∈ devices ↔ w.used device) ∧
      devices.length = w.coordinator.devices.size := by
  have keys (device : String) :
      device ∈ w.coordinator.devices.toList.map Prod.fst ↔ w.used device := by
    have unused := sound.entry_none_iff device
    rw [← not_iff_not, ← unused]
    constructor
    · intro absent
      cases found : w.entry device with
      | none => rfl
      | some state =>
        exact absurd (List.mem_map_of_mem (OrderedMap.mem_toList_iff.mpr found)) absent
    · intro none_ listed
      obtain ⟨⟨key, state⟩, there, rfl⟩ := List.mem_map.mp listed
      have found : w.entry key = some state := OrderedMap.mem_toList_iff.mp there
      rw [found] at none_
      cases none_
  refine ⟨w.coordinator.devices.toList.map Prod.fst, ?_, keys, List.length_map _⟩
  have sorted := w.coordinator.devices.sorted
  rw [List.Nodup, List.pairwise_map]
  exact sorted.imp (fun lt => ne_of_lt lt)

def sampleLimits : CoordinatorLimits := ⟨1, 4, 256, 4⟩

/-- A call on an unused coordinator, whose acquisition is allocated or not. -/
def sampleEnter (allocates : Bool) : Answer × World :=
  World.start.enter sampleLimits ⟨0, "a", []⟩ (fun _ => false) ⟨false, false⟩
    ⟨true, true, allocates⟩

theorem sampleEnter_run (allocates : Bool) : Transition.Run (system sampleLimits)
    [⟨.start, .enter ⟨0, "a", []⟩ (fun _ => false) ⟨false, false⟩ ⟨true, true, allocates⟩
      (sampleEnter allocates).1, (sampleEnter allocates).2⟩] (sampleEnter allocates).2 :=
  .step (.start rfl) (.enter (by decide +kernel))

end Baas.Procedure
