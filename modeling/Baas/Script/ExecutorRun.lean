import Baas.Script.ExecutorBooks

/-! What holds of an executor at every moment: its bounds, its flags and where its answers come
from. -/
namespace Baas.Executor

open Transition (Event Run)

variable {ρ : Type} {es : List (Event (State ρ) (Label ρ))} {s : State ρ}

section control

/-- A worker that has not exited. -/
@[simp] def Worker.present : Worker ρ → List Unit
  | exited => []
  | _ => [()]

structure Controlled (s : State ρ) : Prop where
  room : s.queue.length ≤ s.capacity
  flags : s.stopping = !s.accepting
  staffed : s.workers ≠ []
  remaining : s.workersRemaining = (s.workers.flatMap Worker.present).count ()
  left : ∀ worker ∈ s.workers, worker = .leaving ∨ worker = .exited →
    s.stopping = true ∧ s.queue = []
  joined : .shutdownReturned false ∈ s.calls → s.workersRemaining = 0

/-- The flags, the queue and the workers are the same but for one worker that stays. -/
theorem Controlled.worker (controlled : Controlled s) {id : Nat} {old new : Worker ρ} {s' : State ρ}
    (there : s.workers[id]? = some old) (workers : s'.workers = s.workers.set id new)
    (stays : old.present = [()] ∧ new.present = [()] ∧ new ≠ .leaving)
    (capacity : s'.capacity = s.capacity) (queue : s'.queue.length ≤ s.queue.length)
    (accepting : s'.accepting = s.accepting) (stopping : s'.stopping = s.stopping)
    (remaining : s'.workersRemaining = s.workersRemaining) (calls : s'.calls = s.calls) :
    Controlled s' := by
  obtain ⟨room, flags, staffed, remains, left, joined⟩ := controlled
  obtain ⟨present, present', remote⟩ := stays
  refine ⟨capacity ▸ Nat.le_trans queue room, by rw [stopping, accepting, flags], ?_, ?_, ?_, ?_⟩
  · rw [workers]
    exact fun none => staffed ((List.set_eq_nil_iff _ _).mp none)
  · have moved := Tokens.count_set Worker.present there new ()
    rw [present, present'] at moved
    rw [remaining, workers, remains]
    exact (Nat.add_right_cancel moved).symm
  · intro worker member gone
    rw [workers] at member
    obtain old | rfl := List.mem_or_eq_of_mem_set member
    · obtain ⟨stopped, empty⟩ := left worker old gone
      rw [empty] at queue
      exact ⟨stopping.trans stopped, List.length_eq_zero_iff.mp (Nat.le_zero.mp queue)⟩
    · obtain rfl | rfl := gone
      · exact absurd rfl remote
      · cases present'
  · rw [calls, remaining]
    exact joined

/-- The workers are the same, and the queue is no longer than before. -/
theorem Controlled.call (controlled : Controlled s) {id : Nat} {new : Call} {s' : State ρ}
    (calls : s'.calls = s.calls.set id new)
    (joins : new = .shutdownReturned false → s.workersRemaining = 0)
    (capacity : s'.capacity = s.capacity) (queue : s'.queue.length ≤ s.queue.length)
    (flags : s'.stopping = !s'.accepting) (stopping : s.stopping = true → s'.stopping = true)
    (workers : s'.workers = s.workers) (remaining : s'.workersRemaining = s.workersRemaining) :
    Controlled s' := by
  obtain ⟨room, -, staffed, remains, left, joined⟩ := controlled
  refine ⟨capacity ▸ Nat.le_trans queue room, flags, workers ▸ staffed, ?_, ?_, ?_⟩
  · rw [remaining, workers, remains]
  · intro worker member gone
    obtain ⟨stopped, empty⟩ := left worker (workers ▸ member) gone
    rw [empty] at queue
    exact ⟨stopping stopped, List.length_eq_zero_iff.mp (Nat.le_zero.mp queue)⟩
  · intro returned
    rw [remaining]
    rw [calls] at returned
    obtain old | same := List.mem_or_eq_of_mem_set returned
    · exact joined old
    · exact joins same.symm

theorem controlled_step (controlled : Controlled s) {l : Label ρ} {s' : State ρ}
    (move : Move s l s') : Controlled s' := by
  have ⟨room, flags, staffed, remains, left, joined⟩ := controlled
  have same : s.queue.length ≤ s.queue.length := Nat.le_refl _
  have kept : s.stopping = true → s.stopping = true := id
  cases move with
  | refused _ => exact controlled
  | accepted accepting free =>
    refine ⟨?_, flags, staffed, remains, fun worker member gone => ?_, joined⟩
    · change (s.queue ++ [_]).length ≤ s.capacity
      rw [List.length_append, List.length_singleton]
      exact free
    · rw [accepting] at flags
      have stopped := (left worker member gone).1
      rw [flags] at stopped
      cases stopped
  | called fresh =>
    refine ⟨room, flags, staffed, remains, left, fun returned => ?_⟩
    obtain old | new := List.mem_append.mp returned
    · exact joined old
    · cases List.mem_singleton.mp new
      cases fresh
  | pop there queue =>
    refine controlled.worker there rfl ⟨rfl, rfl, by rintro ⟨⟩⟩ rfl ?_ rfl rfl rfl rfl
    rw [queue]
    exact Nat.le_succ _
  | leave there empty stopping =>
    refine ⟨room, flags, fun none => staffed ((List.set_eq_nil_iff _ _).mp none), ?_, ?_, joined⟩
    · have moved := Tokens.count_set Worker.present there .leaving ()
      exact remains.trans (Nat.add_right_cancel moved).symm
    · exact fun _ _ _ => ⟨stopping, empty⟩
  | begin there known queued =>
    exact controlled.worker there rfl ⟨rfl, rfl, by rintro ⟨⟩⟩ rfl same rfl rfl rfl rfl
  | skip there known other =>
    exact controlled.worker there rfl ⟨rfl, rfl, by rintro ⟨⟩⟩ rfl same rfl rfl rfl rfl
  | ended result there =>
    exact controlled.worker there rfl ⟨rfl, rfl, by rintro ⟨⟩⟩ rfl same rfl rfl rfl rfl
  | fulfil there =>
    exact controlled.worker there rfl ⟨rfl, rfl, by rintro ⟨⟩⟩ rfl same rfl rfl rfl rfl
  | finish there =>
    exact controlled.worker there rfl ⟨rfl, rfl, by rintro ⟨⟩⟩ rfl same rfl rfl rfl rfl
  | exit there =>
    obtain ⟨stopping, empty⟩ := left _ (List.mem_of_getElem? there) (.inl rfl)
    refine ⟨room, flags, fun none => staffed ((List.set_eq_nil_iff _ _).mp none), ?_, ?_, ?_⟩
    · have moved := Tokens.count_set Worker.present there .exited ()
      change s.workersRemaining - 1 = _
      rw [remains]
      exact Nat.sub_eq_of_eq_add moved.symm
    · exact fun _ _ _ => ⟨stopping, empty⟩
    · intro returned
      exact (congrArg (· - 1) (joined returned)).trans rfl
  | take there queued =>
    refine controlled.call rfl (by rintro ⟨⟩) rfl ?_ flags kept rfl rfl
    exact List.length_erase_le
  | missed there absent => exact controlled.call rfl (by rintro ⟨⟩) rfl same flags kept rfl rfl
  | wins there wins known queued =>
    exact controlled.call rfl (fun no => by subst no; cases wins) rfl same flags kept rfl rfl
  | late there known late => exact controlled.call rfl (by rintro ⟨⟩) rfl same flags kept rfl rfl
  | running there known running =>
    exact controlled.call rfl (by rintro ⟨⟩) rfl same flags kept rfl rfl
  | stop there known first => exact controlled.call rfl (by rintro ⟨⟩) rfl same flags kept rfl rfl
  | settles there settles =>
    exact controlled.call rfl (fun no => by subst no; cases settles) rfl same flags kept rfl rfl
  | @shutdown _ mode _ there first =>
    refine controlled.call rfl (by rintro ⟨⟩) rfl ?_ rfl (fun _ => rfl) rfl rfl
    change (remainingOf s mode).length ≤ _
    rw [remainingOf]
    split
    · exact Nat.zero_le _
    · exact same
  | passed there known other => exact controlled.call rfl (by rintro ⟨⟩) rfl same flags kept rfl rfl
  | joins there joins => exact controlled.call rfl (by rintro ⟨⟩) rfl same flags kept rfl rfl
  | @returned _ calledFromWorker there joined' =>
    refine controlled.call rfl (fun outside => ?_) rfl same flags kept rfl rfl
    cases outside
    exact joined'.resolve_left (by rintro ⟨⟩)

theorem controlled_run (run : Run (executorSystem ρ) es s) : Controlled s := by
  refine run.invariant Controlled ?_ fun s l s' controlled step =>
    controlled_step controlled (step_move step)
  rintro s ⟨workerCount, queueCapacity, some, -, rfl⟩
  refine ⟨Nat.zero_le _, rfl, ?_, ?_, ?_, fun no => (List.not_mem_nil no).elim⟩
  · exact fun none => Nat.ne_of_gt some ((List.replicate_eq_nil_iff _).mp none)
  · have all : (List.replicate workerCount (Worker.waiting : Worker ρ)).flatMap Worker.present =
        List.replicate workerCount () := by
      rw [List.flatMap_replicate]
      simp
    change workerCount =
      ((List.replicate workerCount Worker.waiting).flatMap Worker.present).count ()
    rw [all, List.count_replicate_self]
  · intro worker member gone
    rw [List.eq_of_mem_replicate member] at gone
    cases gone with
    | inl no => cases no
    | inr no => cases no

/-- Once the workers are counted out, none is left, and nothing is queued. -/
theorem Controlled.empty (controlled : Controlled s) (none : s.workersRemaining = 0) :
    (∀ worker ∈ s.workers, worker = .exited) ∧ s.stopping = true ∧ s.queue = [] := by
  have exited : ∀ worker ∈ s.workers, worker = .exited := by
    intro worker member
    have counted := Tokens.count_le Worker.present member ()
    rw [← controlled.remaining, none] at counted
    cases worker with
    | exited => rfl
    | _ => exact absurd counted (by simp)
  obtain ⟨worker, member⟩ := List.exists_mem_of_ne_nil _ controlled.staffed
  exact ⟨exited, controlled.left worker member (.inr (exited worker member))⟩

end control

section order

/-- Tasks leave the queue for the workers in the order in which they were accepted. -/
theorem popped_sorted (run : Run (executorSystem ρ) es s) :
    (trace Label.popped es ++ s.queue).Pairwise (· < ·) := by
  refine run.history (fun es s => (trace Label.popped es ++ s.queue).Pairwise (· < ·)) ?_ ?_
  · rintro s ⟨workerCount, queueCapacity, -, -, rfl⟩
    exact .nil
  · intro es s l s' run sorted step
    have keep : ∀ queue : List Nat, List.Sublist queue s.queue →
        (trace Label.popped es ++ queue).Pairwise (· < ·) :=
      fun queue sub => sorted.sublist (List.Sublist.append_left sub _)
    have move := step_move step
    rw [trace_concat]
    cases move with
    | accepted accepting room =>
      change (_ ++ [] ++ (s.queue ++ [s.tasks.length])).Pairwise _
      rw [List.append_nil, ← List.append_assoc, List.pairwise_append]
      refine ⟨sorted, List.pairwise_singleton _ _, fun t there last member => ?_⟩
      rw [List.mem_singleton.mp member]
      have counted := (balanced_run run t).accepted
      have present : 0 < (trace Label.popped es).count t + s.queue.count t := by
        rw [← List.count_append]
        exact List.count_pos_iff.mpr there
      exact List.mem_range.mp (List.count_pos_iff.mp (by omega))
    | @pop id task rest there queue =>
      change (_ ++ [task] ++ rest).Pairwise _
      rwa [List.append_assoc, List.singleton_append, ← queue]
    | take there queued =>
      change (_ ++ [] ++ s.queue.erase _).Pairwise _
      rw [List.append_nil]
      exact keep _ List.erase_sublist
    | @shutdown _ mode _ there first =>
      change (_ ++ [] ++ remainingOf s mode).Pairwise _
      rw [List.append_nil]
      refine keep _ ?_
      rw [remainingOf]
      split
      · exact List.nil_sublist _
      · exact .refl _
    | _ =>
      change (_ ++ [] ++ s.queue).Pairwise _
      rwa [List.append_nil]

end order

end Baas.Executor
