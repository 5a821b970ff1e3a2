import Baas.Lib.Arena
import Baas.Script.ExecutorShutdown

/-! A shutdown comes to its end: the workers of an executor that is stopping have only so many
steps left, and each of them can take its next one. -/
namespace Baas.Executor

open Transition (Event Run)

variable {ρ : Type} {es : List (Event (State ρ) (Label ρ))} {s s' : State ρ} {l : Label ρ}

/-- The steps that a worker has left when it finds the queue empty. -/
def Worker.rank : Worker ρ → Nat
  | popped _ => 6
  | invoking _ => 5
  | fulfilling _ _ => 4
  | finishing _ => 3
  | waiting => 2
  | leaving => 1
  | exited => 0

/-- A queued task takes a worker five steps. -/
def remaining (s : State ρ) : Nat := 5 * s.queue.length + (s.workers.map Worker.rank).sum

/-- One entry for each step of a worker. -/
def Label.worked : Label ρ → List Unit
  | pop _ | begin _ | skip _ | ended _ _ | promise _ (.returned _) | finish _ | leave | exit => [()]
  | _ => []

theorem remaining_work {id : Nat} {old new : Worker ρ} (there : s.workers[id]? = some old)
    (workers : s'.workers = s.workers.set id new)
    (falls : 5 * s'.queue.length + new.rank < 5 * s.queue.length + old.rank) :
    1 + remaining s' ≤ remaining s := by
  have moved := Arena.sum_map_set Worker.rank new there
  rw [remaining, remaining, workers]
  omega

theorem remaining_idle (workers : s'.workers = s.workers)
    (queue : s'.queue.length ≤ s.queue.length) : 0 + remaining s' ≤ remaining s := by
  rw [remaining, remaining, workers]
  omega

/-- Nothing is accepted any more, so the steps of the workers use up what remains. -/
theorem remaining_step (controlled : Controlled s) (stopping : s.stopping = true)
    (move : Move s l s') :
    (l.worked.length + remaining s' ≤ remaining s) ∧ s'.stopping = true := by
  have same := Nat.le_refl s.queue.length
  have falls : ∀ {a b : Nat}, a < b → 5 * s.queue.length + a < 5 * s.queue.length + b :=
    fun lower => Nat.add_lt_add_left lower _
  cases move with
  | accepted accepting room =>
    have flags := controlled.flags
    rw [stopping, accepting] at flags
    cases flags
  | shutdown there first => cases stopping.symm.trans first
  | @pop id task rest there queue =>
    refine ⟨remaining_work there rfl ?_, stopping⟩
    rw [queue, List.length_cons]
    change 5 * rest.length + 6 < 5 * (rest.length + 1) + 2
    omega
  | begin there known queued =>
    exact ⟨remaining_work there rfl (falls (by decide : 5 < 6)), stopping⟩
  | skip there known other => exact ⟨remaining_work there rfl (falls (by decide : 2 < 6)), stopping⟩
  | ended result there => exact ⟨remaining_work there rfl (falls (by decide : 4 < 5)), stopping⟩
  | fulfil there => exact ⟨remaining_work there rfl (falls (by decide : 3 < 4)), stopping⟩
  | finish there => exact ⟨remaining_work there rfl (falls (by decide : 2 < 3)), stopping⟩
  | leave there empty stopped =>
    exact ⟨remaining_work there rfl (falls (by decide : 1 < 2)), stopping⟩
  | exit there => exact ⟨remaining_work there rfl (falls (by decide : 0 < 1)), stopping⟩
  | take there queued => exact ⟨remaining_idle rfl List.length_erase_le, stopping⟩
  | _ => exact ⟨remaining_idle rfl same, stopping⟩

/-- A worker that has not exited is never stuck. -/
theorem worker_enabled (run : Run (executorSystem ρ) es s) (stopping : s.stopping = true) {id : Nat}
    {worker : Worker ρ} (there : s.workers[id]? = some worker) (present : worker ≠ .exited)
    (result : ρ) : (advance s (.worker id result)).isSome := by
  rw [advance, there, Option.bind_some]
  cases worker with
  | waiting =>
    rw [runWorker]
    split
    · rfl
    · rw [if_pos stopping]
      rfl
  | popped task =>
    have balanced := balanced_run run task
    have popped := balanced.popped
    have accepted := balanced.accepted
    have held := Tokens.count_le Worker.held (List.mem_of_getElem? there) task
    have one : (Worker.popped task : Worker ρ).held.count task = 1 := List.count_singleton_self
    have known : task ∈ List.range s.tasks.length := List.count_pos_iff.mp (by omega)
    rw [runWorker, Option.isSome_map, List.getElem?_eq_getElem (List.mem_range.mp known)]
    rfl
  | exited => exact absurd rfl present
  | _ => rfl

/-- From the moment an executor is stopping its workers take no more steps than remained at that
moment, and each that has not exited can always take one. When all have exited, every shutdown that
joins them can return. -/
theorem workers_end {before later : List (Event (State ρ) (Label ρ))}
    {e : Event (State ρ) (Label ρ)} (run : Run (executorSystem ρ) (before ++ e :: later) s)
    (stopping : e.target.stopping = true) :
    (trace Label.worked later).length + remaining s ≤ remaining e.target ∧
    (∀ id worker, s.workers[id]? = some worker → worker ≠ .exited →
      ∀ result, (advance s (.worker id result)).isSome) ∧
    ((∀ worker ∈ s.workers, worker = .exited) → ∀ id calledFromWorker,
      s.calls[id]? = some (.joinAll calledFromWorker) → (advance s (.call id)).isSome) := by
  have since : Controlled s ∧ s.stopping = true ∧
      (trace Label.worked later).length + remaining s ≤ remaining e.target := by
    refine run.since (fun _ => True) (fun es s => Controlled s ∧ s.stopping = true ∧
      (trace Label.worked es).length + remaining s ≤ remaining e.target) ?_ ?_ fun _ _ => trivial
    · rintro es s l s' ⟨controlled, stopping, spent⟩ step -
      have move := step_move step
      obtain ⟨less, stopping'⟩ := remaining_step controlled stopping move
      refine ⟨controlled_step controlled move, stopping', ?_⟩
      rw [trace_concat, List.length_append]
      change _ + l.worked.length + _ ≤ _
      omega
    · obtain ⟨prior, step⟩ := run.upto
      exact ⟨controlled_run (prior.step step), stopping, Nat.le_of_eq (Nat.zero_add _)⟩
  obtain ⟨controlled, stopping', spent⟩ := since
  refine ⟨spent, fun id worker there present result =>
    worker_enabled run stopping' there present result, fun exited id calledFromWorker there => ?_⟩
  have none : s.workersRemaining = 0 := by
    refine controlled.remaining.trans (List.count_eq_zero.mpr fun inside => ?_)
    obtain ⟨worker, member, inside⟩ := List.mem_flatMap.mp inside
    rw [exited worker member] at inside
    cases inside
  rw [advance, there, Option.bind_some, runCall, if_pos (.inr none)]
  rfl

theorem workers_end_sample :
    (trace Label.worked (samplePlay.1.drop 8)).length + remaining samplePlay.2 ≤
      remaining (samplePlay.1.get ⟨7, by decide⟩).target :=
  have run : Run (executorSystem Unit) (samplePlay.1.take 7 ++ samplePlay.1.get ⟨7, by decide⟩ ::
      samplePlay.1.drop 8) samplePlay.2 := samplePlay_run
  (workers_end run rfl).1

end Baas.Executor
