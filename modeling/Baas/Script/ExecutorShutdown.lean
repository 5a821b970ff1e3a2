import Baas.Script.ExecutorAnswers

/-! What the callers of an executor can rely on, whatever order the workers, the cancellations and
the shutdowns take their steps in. -/
namespace Baas.Executor

open Transition (Event Run)

variable {ρ : Type} {es : List (Event (State ρ) (Label ρ))} {s : State ρ}

section once

theorem promises_count (es : List (Event (State ρ) (Label ρ))) (t : Nat) :
    ((trace Label.promises es).map Prod.fst).count t =
      (trace Label.fulfilled es).count t + (trace Label.excepted es).count t := by
  induction es using List.reverseRecOn with
  | nil => rfl
  | append_singleton front e ih =>
    have last : (e.label.promises.map Prod.fst).count t =
        e.label.fulfilled.count t + e.label.excepted.count t := by
      cases e.label with
      | promise task outcome =>
        cases outcome with
        | returned result => rfl
        | taskCancelled => exact (Nat.zero_add _).symm
      | _ => rfl
    rw [trace_concat, trace_concat, trace_concat, List.map_append, List.count_append,
      List.count_append, List.count_append, ih, last]
    omega

theorem mem_fulfilled {t : Nat} {result : ρ}
    (there : (t, .returned result) ∈ trace Label.promises es) : t ∈ trace Label.fulfilled es := by
  refine trace_imp (fun l inside => ?_) there
  cases l with
  | promise task outcome =>
    cases List.mem_singleton.mp inside
    exact List.mem_cons_self
  | _ => cases inside

theorem mem_excepted {t : Nat}
    (there : (t, .taskCancelled) ∈ trace Label.promises es) : t ∈ trace Label.excepted es := by
  refine trace_imp (fun l inside => ?_) there
  cases l with
  | promise task outcome =>
    cases List.mem_singleton.mp inside
    exact List.mem_cons_self
  | _ => cases inside

/-- The future of a task that ran to its end. -/
def Returned (es : List (Event (State ρ) (Label ρ))) (t : Nat) (record : Task ρ) : Prop :=
  ∃ result, record.promise = some (.returned result) ∧ (t, result) ∈ trace Label.results es ∧
    t ∈ trace Label.begun es

/-- The future of a task that was cancelled before it began. -/
def Cancelled (es : List (Event (State ρ) (Label ρ))) (t : Nat) (record : Task ρ) : Prop :=
  record.promise = some .taskCancelled ∧ t ∈ trace Label.lost es ∧ t ∉ trace Label.begun es

theorem not_both (run : Run (executorSystem ρ) es s) (t : Nat) :
    (trace Label.begun es).count t + (trace Label.lost es).count t ≤ 1 := by
  have phases := (balanced_run run t).phases
  have once : (List.range s.tasks.length).count t ≤ 1 :=
    List.nodup_iff_count_le_one.mp List.nodup_range t
  omega

theorem promise_cases (run : Run (executorSystem ρ) es s) {t : Nat} {record : Task ρ}
    (known : s.tasks[t]? = some record) :
    record.promise = none ∨ Returned es t record ∨ Cancelled es t record := by
  have futures := futures_run run
  have balanced := balanced_run run t
  cases set : record.promise with
  | none => exact .inl rfl
  | some outcome =>
    have there := futures.promised t record known outcome set
    cases outcome with
    | returned result =>
      have fulfilled := List.count_pos_iff.mpr (mem_fulfilled there)
      have begun := balanced.begun
      have invoked := balanced.invoked
      exact .inr (.inl ⟨result, set, futures.returned t result there,
        List.count_pos_iff.mp (by omega)⟩)
    | taskCancelled =>
      have excepted := List.count_pos_iff.mpr (mem_excepted there)
      have lost := balanced.lost
      have both := not_both run t
      refine .inr (.inr ⟨set, List.count_pos_iff.mp (by omega), fun begun => ?_⟩)
      have again := List.count_pos_iff.mpr begun
      omega

/-- The queue keeps to its capacity and hands the tasks out in the order in which they came. A task
begins at most once and not when it is cancelled, which happens at most once; its promise is set at
most once, to what its callable came to or to the cancellation. A cancellation that succeeds found
the task not yet begun, or had it asked to stop. -/
theorem executor_once (run : Run (executorSystem ρ) es s) :
    s.queue.length ≤ s.capacity ∧ (trace Label.popped es ++ s.queue).Pairwise (· < ·) ∧
    (∀ t, (trace Label.begun es).count t + (trace Label.lost es).count t ≤ 1) ∧
    ((trace Label.promises es).map Prod.fst).Nodup ∧
    (∀ t record, s.tasks[t]? = some record →
      record.promise = none ∨ Returned es t record ∨ Cancelled es t record) ∧
    ∀ t, .cancelReturned t true ∈ s.calls →
      t ∈ trace Label.lost es ∨ t ∈ trace Label.begun es ∧ t ∈ trace Label.stopped es := by
  refine ⟨(controlled_run run).room, popped_sorted run, not_both run, ?_,
    fun t record => promise_cases run, (sourced_run run).answered⟩
  refine List.nodup_iff_count_le_one.mpr fun t => ?_
  have both := not_both run t
  obtain ⟨-, -, -, begun, invoked, -, lost, -, -, -⟩ := balanced_run run t
  rw [promises_count]
  omega

/-- A choice that cannot be made is replaced by an attempt to enqueue. -/
def sampleNext (s : State Unit) (choice : Choice Unit) : Label Unit × State Unit :=
  (advance s choice).getD (enqueue s .full)

theorem sampleNext_steps (s : State Unit) (choice : Choice Unit) :
    (executorSystem Unit).step s (sampleNext s choice).1 (sampleNext s choice).2 := by
  rw [sampleNext]
  cases made : advance s choice with
  | none => exact ⟨.tryEnqueue, rfl⟩
  | some _ => exact ⟨choice, made⟩

/-- One worker runs one task to its end, and is shut down. -/
def samplePlay : List (Event (State Unit) (Label Unit)) × State Unit :=
  Transition.play sampleNext (boundedExecutor 1 1)
    [.tryEnqueue, .worker 0 (), .worker 0 (), .worker 0 (), .worker 0 (), .worker 0 (),
      .shutdown .drain false, .call 0, .call 0, .worker 0 (), .worker 0 (), .call 0]

theorem samplePlay_run : Run (executorSystem Unit) samplePlay.1 samplePlay.2 :=
  Transition.run_play sampleNext_steps _ ⟨1, 1, by decide, by decide, rfl⟩

theorem executor_once_sample : samplePlay.2.queue.length ≤ samplePlay.2.capacity ∧
    ((trace Label.promises samplePlay.1).map Prod.fst).Nodup :=
  have once := executor_once samplePlay_run
  ⟨once.1, once.2.2.2.1⟩

end once

section shutdown

/-- The shutdowns that found the executor open. -/
@[simp] def Label.modes : Label ρ → List ShutdownMode
  | beginShutdown mode _ => [mode]
  | _ => []

/-- The first shutdown chooses the mode, and draining takes nothing out of the queue. -/
structure Chosen (es : List (Event (State ρ) (Label ρ))) (s : State ρ) : Prop where
  before : s.stopping = false → trace Label.modes es = [] ∧ trace Label.swept es = []
  after : s.stopping = true → ∃ mode, trace Label.modes es = [mode] ∧
    (mode = .drain → trace Label.swept es = [])

theorem chosen_run (run : Run (executorSystem ρ) es s) : Chosen es s := by
  refine run.history Chosen ?_ ?_
  · rintro s ⟨workerCount, queueCapacity, -, -, rfl⟩
    exact ⟨fun _ => ⟨rfl, rfl⟩, by rintro ⟨⟩⟩
  · intro es s l s' run ⟨before, after⟩ step
    have keep : s'.stopping = s.stopping → l.modes = [] → l.swept = [] →
        Chosen (es ++ [⟨s, l, s'⟩]) s' := by
      intro same modes swept
      have still : trace Label.modes (es ++ [⟨s, l, s'⟩]) = trace Label.modes es := by
        rw [trace_concat, modes, List.append_nil]
      have still' : trace Label.swept (es ++ [⟨s, l, s'⟩]) = trace Label.swept es := by
        rw [trace_concat, swept, List.append_nil]
      refine ⟨fun stopping => ?_, fun stopping => ?_⟩
      · rw [still, still']
        exact before (same ▸ stopping)
      · rw [still, still']
        exact after (same ▸ stopping)
    cases step_move step with
    | @shutdown id mode calledFromWorker there first =>
      obtain ⟨modes, swept⟩ := before first
      refine ⟨by rintro ⟨⟩, fun _ => ⟨mode, ?_, fun drain => ?_⟩⟩
      · rw [trace_concat, modes]
        rfl
      · rw [trace_concat, swept, drain]
        rfl
    | _ => exact keep rfl rfl rfl

/-- The call has returned. -/
def Call.ended : Call → Bool
  | cancelReturned _ _ => true
  | shutdownReturned _ => true
  | _ => false

theorem idle_places (place : Worker ρ → List Nat)
    (exited : ∀ worker ∈ s.workers, worker = .exited) (none : place .exited = []) (t : Nat) :
    (s.workers.flatMap place).count t = 0 := by
  refine List.count_eq_zero.mpr fun there => ?_
  obtain ⟨worker, member, inside⟩ := List.mem_flatMap.mp there
  rw [exited worker member, none] at inside
  cases inside

theorem ended_places (place : Call → List Nat) (ended : ∀ call ∈ s.calls, call.ended = true)
    (cancel : ∀ task result, place (.cancelReturned task result) = [])
    (shutdown : ∀ calledFromWorker, place (.shutdownReturned calledFromWorker) = []) (t : Nat) :
    (s.calls.flatMap place).count t = 0 := by
  refine List.count_eq_zero.mpr fun there => ?_
  obtain ⟨call, member, inside⟩ := List.mem_flatMap.mp there
  have returned := ended call member
  cases call with
  | cancelReturned task result =>
    rw [cancel] at inside
    cases inside
  | shutdownReturned calledFromWorker =>
    rw [shutdown] at inside
    cases inside
  | _ => cases returned

/-- A promise that was set stays set. -/
theorem settled_cases (run : Run (executorSystem ρ) es s) {t : Nat} {record : Task ρ}
    (known : s.tasks[t]? = some record)
    (settled : 0 < (trace Label.fulfilled es).count t + (trace Label.excepted es).count t) :
    Returned es t record ∨ Cancelled es t record := by
  refine (promise_cases run known).resolve_left ?_
  rw [← promises_count] at settled
  obtain ⟨⟨_, outcome⟩, there, rfl⟩ := List.mem_map.mp (List.count_pos_iff.mp settled)
  obtain ⟨other, known', some⟩ := (futures_run run).kept _ outcome there
  rw [known] at known'
  cases known'
  exact some

/-- No worker gets a task that a shutdown has taken out of the queue. -/
theorem swept_apart (run : Run (executorSystem ρ) es s) {t : Nat}
    (swept : t ∈ trace Label.swept es) : t ∉ trace Label.begun es := by
  intro begun
  have accepted := (balanced_run run t).accepted
  have popped := (balanced_run run t).popped
  have once : (List.range s.tasks.length).count t ≤ 1 :=
    List.nodup_iff_count_le_one.mp List.nodup_range t
  have one := List.count_pos_iff.mpr begun
  have two : 0 < (trace Label.taken es).count t := by
    refine List.count_pos_iff.mpr (trace_imp (fun l inside => ?_) swept)
    cases l with
    | beginShutdown mode pending => exact inside
    | _ => cases inside
  omega

/-- Once a shutdown from outside has returned, nothing is queued and all workers have exited. Every
task that was accepted has run to its end unless its handle was cancelled or the shutdown, called to
cancel what is pending, found it in the queue: such a task never begins. When the other calls have
returned as well, no future is left open. -/
theorem shutdown_complete (run : Run (executorSystem ρ) es s)
    (returned : .shutdownReturned false ∈ s.calls) :
    s.queue = [] ∧ s.accepting = false ∧ (∀ worker ∈ s.workers, worker = .exited) ∧
    (∃ mode, trace Label.modes es = [mode] ∧ (mode = .drain → trace Label.swept es = [])) ∧
    (∀ t record, s.tasks[t]? = some record → ¬Asked s t → t ∉ trace Label.swept es →
      Returned es t record) ∧
    (∀ t ∈ trace Label.swept es, t ∉ trace Label.begun es) ∧
    ((∀ call ∈ s.calls, call.ended = true) → ∀ t record, s.tasks[t]? = some record →
      Returned es t record ∨ Cancelled es t record) := by
  have controlled := controlled_run run
  have sourced := sourced_run run
  obtain ⟨exited, stopping, empty⟩ := controlled.empty (controlled.joined returned)
  have accepting : s.accepting = false := by
    have flags := controlled.flags
    rw [stopping] at flags
    simpa using flags.symm
  have accepted : ∀ (t : Nat) (record : Task ρ), s.tasks[t]? = some record →
      (List.range s.tasks.length).count t = 1 := fun t record known =>
    List.count_eq_one_of_mem List.nodup_range
      (List.mem_range.mpr (List.getElem?_eq_some_iff.mp known).1)
  refine ⟨empty, accepting, exited, (chosen_run run).after stopping, ?_, ?_, ?_⟩
  · intro t record known unasked unswept
    have one := accepted t record known
    obtain ⟨all, phases, popped, begun, invoked, -, -, -, skipped, -⟩ := balanced_run run t
    have lost : (trace Label.lost es).count t = 0 := List.count_eq_zero.mpr fun there =>
      (sourced.lost t there).elim unasked unswept
    have taken : (trace Label.taken es).count t = 0 := List.count_eq_zero.mpr fun there =>
      (sourced.taken t there).elim unasked unswept
    have held := idle_places Worker.held exited rfl t
    have invokes := idle_places Worker.invokes exited rfl t
    have fulfils := idle_places Worker.fulfils exited rfl t
    have queue : s.queue.count t = 0 := by rw [empty]; rfl
    refine (settled_cases run known (by omega)).resolve_right fun cancelled => ?_
    exact List.count_eq_zero.mp lost cancelled.2.1
  · exact fun t => swept_apart run
  · intro ended t record known
    have one := accepted t record known
    obtain ⟨all, phases, popped, begun, invoked, -, lost, -, skipped, held⟩ := balanced_run run t
    have held' := idle_places Worker.held exited rfl t
    have invokes := idle_places Worker.invokes exited rfl t
    have fulfils := idle_places Worker.fulfils exited rfl t
    have holds := ended_places Call.holds ended (fun _ _ => rfl) (fun _ => rfl) t
    have settles := ended_places Call.settles ended (fun _ _ => rfl) (fun _ => rfl) t
    have queue : s.queue.count t = 0 := by rw [empty]; rfl
    exact settled_cases run known (by omega)

theorem shutdown_complete_sample :
    samplePlay.2.queue = [] ∧ ∀ worker ∈ samplePlay.2.workers, worker = .exited :=
  have complete := shutdown_complete samplePlay_run (by decide)
  ⟨complete.1, complete.2.2.1⟩

end shutdown

end Baas.Executor
