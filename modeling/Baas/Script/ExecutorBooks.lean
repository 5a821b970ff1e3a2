import Mathlib.Data.List.Nodup
import Mathlib.Data.List.Range
import Baas.Lib.Tokens
import Baas.Script.ExecutorMove

/-! Where the tasks are: every task that was accepted is in one place, and goes through the places
of the executor once. -/
namespace Baas.Executor

open Transition (Event Run)

variable {ρ : Type}

section labels

variable {β : Type}

/-- What the events tell, oldest first. -/
def trace (f : Label ρ → List β) (es : List (Event (State ρ) (Label ρ))) : List β :=
  es.flatMap fun e => f e.label

theorem trace_concat (f : Label ρ → List β) (es : List (Event (State ρ) (Label ρ)))
    (e : Event (State ρ) (Label ρ)) : trace f (es ++ [e]) = trace f es ++ f e.label := by
  rw [trace, List.flatMap_append, List.flatMap_singleton, trace]

theorem mem_trace {f : Label ρ → List β} {es : List (Event (State ρ) (Label ρ))} {b : β} :
    b ∈ trace f es ↔ ∃ e ∈ es, b ∈ f e.label := List.mem_flatMap

theorem trace_imp {γ : Type} {f : Label ρ → List β} {g : Label ρ → List γ} {b : β} {c : γ}
    {es : List (Event (State ρ) (Label ρ))} (tells : ∀ l, b ∈ f l → c ∈ g l)
    (there : b ∈ trace f es) : c ∈ trace g es := by
  obtain ⟨e, member, inside⟩ := mem_trace.mp there
  exact mem_trace.mpr ⟨e, member, tells e.label inside⟩

@[simp] def Label.popped : Label ρ → List Nat
  | pop task => [task]
  | _ => []

@[simp] def Label.begun : Label ρ → List Nat
  | begin task => [task]
  | _ => []

@[simp] def Label.skipped : Label ρ → List Nat
  | skip task => [task]
  | _ => []

/-- The callables that came to their ends. -/
@[simp] def Label.invoked : Label ρ → List Nat
  | ended task _ => [task]
  | _ => []

@[simp] def Label.fulfilled : Label ρ → List Nat
  | promise task (.returned _) => [task]
  | _ => []

@[simp] def Label.excepted : Label ρ → List Nat
  | promise task .taskCancelled => [task]
  | _ => []

@[simp] def Label.finished : Label ρ → List Nat
  | finish task => [task]
  | _ => []

@[simp] def Label.lost : Label ρ → List Nat
  | cancelled task => [task]
  | _ => []

/-- The tasks that leave the queue without a worker. -/
@[simp] def Label.taken : Label ρ → List Nat
  | take task => [task]
  | beginShutdown _ pending => pending
  | _ => []

end labels

section places

@[simp] def Worker.held : Worker ρ → List Nat
  | popped task => [task]
  | _ => []

@[simp] def Worker.invokes : Worker ρ → List Nat
  | invoking task => [task]
  | _ => []

@[simp] def Worker.fulfils : Worker ρ → List Nat
  | fulfilling task _ => [task]
  | _ => []

@[simp] def Worker.finishes : Worker ρ → List Nat
  | finishing task => [task]
  | _ => []

/-- What a call has taken out of the queue and not yet tried to cancel. -/
@[simp] def Call.holds : Call → List Nat
  | cancelQueued task => [task]
  | pending tasks _ => tasks
  | pendingException _ tasks _ => tasks
  | _ => []

/-- What a call has cancelled without having set the promise. -/
@[simp] def Call.settles : Call → List Nat
  | setCancelledException task => [task]
  | pendingException task _ _ => [task]
  | _ => []

/-- One if the task is in the phase. -/
def phased (phase : TaskPhase) (tasks : List (Task ρ)) (t : Nat) : Nat :=
  match tasks[t]? with
  | some record => if record.phase = phase then 1 else 0
  | none => 0

variable {tasks : List (Task ρ)} {task : Nat} {record : Task ρ}

theorem count_other {u t : Nat} (other : u ≠ t) : [u].count t = 0 :=
  List.count_eq_zero.mpr fun there => other (List.mem_singleton.mp there).symm

theorem phased_to (known : tasks[task]? = some record) (phase q : TaskPhase) (t : Nat) :
    phased q (tasks.modify task (.to phase)) t + (if record.phase = q then [task].count t else 0) =
      phased q tasks t + if phase = q then [task].count t else 0 := by
  rw [phased, phased, List.getElem?_modify]
  by_cases equal : task = t
  · subst equal
    simp only [known, Option.map_eq_map, Option.map_some, Task.to, if_true,
      List.count_singleton_self]
    omega
  · simp only [count_other equal, if_neg equal, ite_self, Option.map_eq_map, Option.map_id_fun', id]

variable (tasks) in
theorem phased_keep (change : Task ρ → Task ρ)
    (kept : ∀ record, (change record).phase = record.phase) (task : Nat) (q : TaskPhase) (t : Nat) :
    phased q (tasks.modify task change) t = phased q tasks t := by
  rw [phased, phased, List.getElem?_modify]
  by_cases equal : task = t
  · simp only [if_pos equal, Option.map_eq_map]
    cases tasks[t]? with
    | none => rfl
    | some record => simp only [Option.map_some, kept]
  · simp only [if_neg equal, Option.map_eq_map, Option.map_id_fun', id]

theorem count_cons_one (task : Nat) (rest : List Nat) (t : Nat) :
    (task :: rest).count t = [task].count t + rest.count t := by
  rw [← List.count_append]
  rfl

variable (tasks) in
theorem phased_concat (q : TaskPhase) (t : Nat) :
    phased q (tasks ++ [({} : Task ρ)]) t =
      phased q tasks t + if .queued = q then [tasks.length].count t else 0 := by
  rw [phased, phased]
  obtain small | rfl | large := Nat.lt_trichotomy t tasks.length
  · rw [List.getElem?_append_left small, count_other (Nat.ne_of_gt small), ite_self]
    rfl
  · rw [List.getElem?_concat_length, List.count_singleton_self,
      List.getElem?_eq_none (Nat.le_refl _)]
    exact (Nat.zero_add _).symm
  · rw [List.getElem?_eq_none (by rw [List.length_append, List.length_singleton]; exact large),
      List.getElem?_eq_none (Nat.le_of_lt large), count_other (Nat.ne_of_lt large), ite_self]

theorem modify_apart {t : Nat} (apart : task ≠ t) (change : Task ρ → Task ρ) :
    (tasks.modify task change)[t]? = tasks[t]? := by
  rw [List.getElem?_modify]
  simp only [if_neg apart, Option.map_eq_map, Option.map_id_fun', id]

theorem phased_apart {t : Nat} (apart : task ≠ t) (change : Task ρ → Task ρ) (q : TaskPhase) :
    phased q (tasks.modify task change) t = phased q tasks t := by
  rw [phased, phased, modify_apart apart]

theorem exists_of_phased {phase : TaskPhase} (positive : 0 < phased phase tasks task) :
    ∃ record, tasks[task]? = some record ∧ record.phase = phase := by
  rw [phased] at positive
  cases known : tasks[task]? with
  | none => simp [known] at positive
  | some record =>
    refine ⟨record, rfl, ?_⟩
    by_contra other
    simp [known, other] at positive

theorem phased_other (known : tasks[task]? = some record) {phase : TaskPhase}
    (other : record.phase ≠ phase) : phased phase tasks task = 0 := by
  rw [phased, known]
  exact if_neg other

/-- The exchange of a phase that is still `queued`. -/
theorem phased_exchange (known : tasks[task]? = some record) (queued : record.phase = .queued)
    (phase : TaskPhase) (away : phase ≠ .queued) (t : Nat) :
    phased .queued (tasks.modify task (.to phase)) t + [task].count t = phased .queued tasks t := by
  have moved := phased_to known phase .queued t
  rwa [if_pos queued, if_neg away] at moved

end places

section books

variable {es : List (Event (State ρ) (Label ρ))} {s : State ρ}

/-- What the events tell of a task, and where it is. -/
structure Balanced (es : List (Event (State ρ) (Label ρ))) (s : State ρ) (t : Nat) : Prop where
  accepted : (List.range s.tasks.length).count t =
    (trace Label.popped es).count t + s.queue.count t + (trace Label.taken es).count t
  phases : (List.range s.tasks.length).count t = phased .queued s.tasks t +
    (trace Label.begun es).count t + (trace Label.lost es).count t
  popped : (trace Label.popped es).count t = (trace Label.begun es).count t +
    (trace Label.skipped es).count t + (s.workers.flatMap Worker.held).count t
  begun : (trace Label.begun es).count t =
    (trace Label.invoked es).count t + (s.workers.flatMap Worker.invokes).count t
  invoked : (trace Label.invoked es).count t =
    (trace Label.fulfilled es).count t + (s.workers.flatMap Worker.fulfils).count t
  fulfilled : (trace Label.fulfilled es).count t =
    (trace Label.finished es).count t + (s.workers.flatMap Worker.finishes).count t
  lost : (trace Label.lost es).count t =
    (trace Label.excepted es).count t + (s.calls.flatMap Call.settles).count t
  running : phased .running s.tasks t + (trace Label.finished es).count t =
    (trace Label.begun es).count t
  skipped : phased .queued s.tasks t = 0 ∨ (trace Label.skipped es).count t = 0
  held : phased .queued s.tasks t = 0 ∨
    (trace Label.taken es).count t ≤ (s.calls.flatMap Call.holds).count t

theorem workers_set {id : Nat} {old : Worker ρ} (there : s.workers[id]? = some old)
    (new : Worker ρ) (t : Nat) :
    (((s.workers.set id new).flatMap Worker.held).count t + old.held.count t =
      (s.workers.flatMap Worker.held).count t + new.held.count t) ∧
    (((s.workers.set id new).flatMap Worker.invokes).count t + old.invokes.count t =
      (s.workers.flatMap Worker.invokes).count t + new.invokes.count t) ∧
    (((s.workers.set id new).flatMap Worker.fulfils).count t + old.fulfils.count t =
      (s.workers.flatMap Worker.fulfils).count t + new.fulfils.count t) ∧
    (((s.workers.set id new).flatMap Worker.finishes).count t + old.finishes.count t =
      (s.workers.flatMap Worker.finishes).count t + new.finishes.count t) :=
  ⟨Tokens.count_set _ there new t, Tokens.count_set _ there new t, Tokens.count_set _ there new t,
    Tokens.count_set _ there new t⟩

theorem calls_set {id : Nat} {old : Call} (there : s.calls[id]? = some old) (new : Call) (t : Nat) :
    (((s.calls.set id new).flatMap Call.holds).count t + old.holds.count t =
      (s.calls.flatMap Call.holds).count t + new.holds.count t) ∧
    (((s.calls.set id new).flatMap Call.settles).count t + old.settles.count t =
      (s.calls.flatMap Call.settles).count t + new.settles.count t) :=
  ⟨Tokens.count_set _ there new t, Tokens.count_set _ there new t⟩

theorem range_modify (tasks : List (Task ρ)) (task : Nat) (change : Task ρ → Task ρ) (t : Nat) :
    (List.range (tasks.modify task change).length).count t = (List.range tasks.length).count t := by
  rw [List.length_modify]

/-- What a step does to the places: it moves tasks on and loses none. -/
structure Shift (s : State ρ) (l : Label ρ) (s' : State ρ) (t : Nat) : Prop where
  accepted : (List.range s'.tasks.length).count t + s.queue.count t =
    (List.range s.tasks.length).count t + l.popped.count t + s'.queue.count t + l.taken.count t
  phases : (List.range s'.tasks.length).count t + phased .queued s.tasks t =
    (List.range s.tasks.length).count t + phased .queued s'.tasks t + l.begun.count t +
      l.lost.count t
  popped : l.popped.count t + (s.workers.flatMap Worker.held).count t =
    l.begun.count t + l.skipped.count t + (s'.workers.flatMap Worker.held).count t
  begun : l.begun.count t + (s.workers.flatMap Worker.invokes).count t =
    l.invoked.count t + (s'.workers.flatMap Worker.invokes).count t
  invoked : l.invoked.count t + (s.workers.flatMap Worker.fulfils).count t =
    l.fulfilled.count t + (s'.workers.flatMap Worker.fulfils).count t
  fulfilled : l.fulfilled.count t + (s.workers.flatMap Worker.finishes).count t =
    l.finished.count t + (s'.workers.flatMap Worker.finishes).count t
  lost : l.lost.count t + (s.calls.flatMap Call.settles).count t =
    l.excepted.count t + (s'.calls.flatMap Call.settles).count t
  running : phased .running s'.tasks t + l.finished.count t =
    phased .running s.tasks t + l.begun.count t
  skipped : phased .queued s'.tasks t = 0 ∨ l.skipped.count t = 0
  held : phased .queued s'.tasks t = 0 ∨
    l.taken.count t + (s.calls.flatMap Call.holds).count t ≤ (s'.calls.flatMap Call.holds).count t

theorem Balanced.shift {t : Nat} (balanced : Balanced es s t) {l : Label ρ} {s' : State ρ}
    (shift : Shift s l s' t) : Balanced (es ++ [⟨s, l, s'⟩]) s' t := by
  obtain ⟨accepted, phases, popped, begun, invoked, fulfilled, lost, running, skipped, held⟩ :=
    balanced
  obtain ⟨accepted', phases', popped', begun', invoked', fulfilled', lost', running', skipped',
    held'⟩ := shift
  have once : (List.range s'.tasks.length).count t ≤ 1 :=
    List.nodup_iff_count_le_one.mp List.nodup_range t
  refine ⟨?_, ?_, ?_, ?_, ?_, ?_, ?_, ?_, ?_, ?_⟩ <;>
    simp only [trace_concat, List.count_append] <;> omega

theorem move_shift (t : Nat) {l : Label ρ} {s' : State ρ}
    (balanced : Balanced es s t) (move : Move s l s') : Shift s l s' t := by
  cases move with
  | refused _ => constructor <;> dsimp <;> omega
  | accepted accepting room =>
    have queued := phased_concat s.tasks .queued t
    have running := phased_concat s.tasks .running t
    rw [if_pos rfl] at queued
    rw [if_neg nofun] at running
    have length : (List.range (s.tasks ++ [({} : Task ρ)]).length).count t =
        (List.range s.tasks.length).count t + [s.tasks.length].count t := by
      rw [List.length_append, List.length_singleton, List.range_succ, List.count_append]
    have joined : (s.queue ++ [s.tasks.length]).count t =
        s.queue.count t + [s.tasks.length].count t := List.count_append
    constructor <;> dsimp at * <;> omega
  | @called call fresh =>
    have holds : ((s.calls ++ [call]).flatMap Call.holds).count t =
        (s.calls.flatMap Call.holds).count t := by
      rw [Tokens.count_concat]
      cases fresh <;> rfl
    have settles : ((s.calls ++ [call]).flatMap Call.settles).count t =
        (s.calls.flatMap Call.settles).count t := by
      rw [Tokens.count_concat]
      cases fresh <;> rfl
    constructor <;> dsimp at * <;> omega
  | @pop id task rest there queue =>
    have places := workers_set there (.popped task) t
    have front : s.queue.count t = [task].count t + rest.count t := by
      rw [queue, count_cons_one]
    constructor <;> dsimp [State.setWorker] at * <;> omega
  | leave there empty stopping =>
    have places := workers_set there .leaving t
    constructor <;> dsimp [State.setWorker] at * <;> omega
  | @begin id task record there known queued =>
    have places := workers_set there (.invoking task) t
    have length := range_modify s.tasks task (.to .running) t
    have queue := phased_exchange known queued .running nofun t
    have run := phased_to known .running .running t
    rw [queued, if_neg nofun, if_pos rfl] at run
    constructor <;> dsimp [State.setWorker, State.modify] at * <;> omega
  | @skip id task record there known other =>
    have places := workers_set there .waiting t
    have away : phased .queued s.tasks t = 0 ∨ [task].count t = 0 := by
      by_cases equal : task = t
      · exact .inl (equal ▸ phased_other known other)
      · exact .inr (count_other equal)
    constructor <;> dsimp [State.setWorker] at * <;> omega
  | @ended id task result there =>
    have places := workers_set there (.fulfilling task result) t
    constructor <;> dsimp [State.setWorker] at * <;> omega
  | @fulfil id task result there =>
    have places := workers_set there (.finishing task) t
    have length := range_modify s.tasks task (.set (.returned result)) t
    have phases := fun q => phased_keep s.tasks (.set (.returned result))
      (fun _ => rfl) task q t
    have queue := phases .queued
    have run := phases .running
    constructor <;> dsimp [State.setWorker, State.modify] at * <;> omega
  | @finish id task there =>
    have places := workers_set there .waiting t
    have length := range_modify s.tasks task (.to .finished) t
    have queue : phased .queued (s.tasks.modify task (.to .finished)) t =
        phased .queued s.tasks t ∧ phased .running (s.tasks.modify task (.to .finished)) t +
          [task].count t = phased .running s.tasks t := by
      by_cases equal : task = t
      · subst equal
        have member := Tokens.count_le Worker.finishes (List.mem_of_getElem? there) task
        have one : [task].count task = 1 := List.count_singleton_self
        -- A task that a worker finishes was begun and has not been finished.
        have positive : 0 < phased .running s.tasks task := by
          obtain ⟨-, -, -, begun, invoked, fulfilled, -, running, -, -⟩ := balanced
          dsimp at member
          omega
        obtain ⟨record, known, phase⟩ := exists_of_phased positive
        have first := phased_to known .finished .queued task
        have second := phased_to known .finished .running task
        rw [phase, if_neg nofun, if_neg nofun] at first
        rw [phase, if_pos rfl, if_neg nofun] at second
        exact ⟨first, second⟩
      · rw [phased_apart equal, phased_apart equal, count_other equal]
        exact ⟨rfl, rfl⟩
    constructor <;> dsimp [State.setWorker, State.modify] at * <;> omega
  | exit there =>
    have places := workers_set there .exited t
    constructor <;> dsimp [State.setWorker] at * <;> omega
  | @take id task there queued =>
    have places := calls_set there (.cancelQueued task) t
    have front : s.queue.count t = [task].count t + (s.queue.erase task).count t := by
      rw [← List.count_append]
      exact (List.perm_cons_erase queued).count_eq t
    constructor <;> dsimp [State.setCall] at * <;> omega
  | @missed id task there absent =>
    have places := calls_set there (.requestCancel task) t
    constructor <;> dsimp [State.setCall] at * <;> omega
  | @wins id task record call later there wins known queued =>
    have places := calls_set there later t
    have length := range_modify s.tasks task (.to .cancelled) t
    have queue := phased_exchange known queued .cancelled nofun t
    have run := phased_to known .cancelled .running t
    rw [queued, if_neg nofun, if_neg nofun] at run
    have settled : later.settles.count t = call.settles.count t + [task].count t := by
      cases wins <;> simp
    have held : call.holds.count t ≤ later.holds.count t + [task].count t := by
      cases wins with
      | pending => exact Nat.le_of_eq ((count_cons_one _ _ _).trans (Nat.add_comm _ _))
      | _ => simp
    have away : phased .queued (s.tasks.modify task (.to .cancelled)) t = 0 ∨
        [task].count t = 0 := by
      by_cases equal : task = t
      · subst equal
        refine .inl ?_
        rw [phased, List.getElem?_modify_eq, known]
        rfl
      · exact .inr (count_other equal)
    constructor <;> dsimp [State.setCall, State.modify] at * <;> omega
  | @late id task record call there known late =>
    have places := calls_set there (.cancelReturned task false) t
    have settled : call.settles = [] := by cases late <;> rfl
    have held : phased .queued s.tasks t = 0 ∨ call.holds.count t = 0 := by
      cases late with
      | cancelQueued other =>
        by_cases equal : task = t
        · exact .inl (equal ▸ phased_other known other)
        · exact .inr (count_other equal)
      | _ => exact .inr rfl
    rw [settled] at places
    constructor <;> dsimp [State.setCall] at * <;> omega
  | @running id task record there known running =>
    have places := calls_set there (.requestStop task) t
    constructor <;> dsimp [State.setCall] at * <;> omega
  | @stop id task record there known first =>
    have places := calls_set there (.cancelReturned task true) t
    have length := range_modify s.tasks task .stop t
    have phases := fun q => phased_keep s.tasks .stop (fun _ => rfl) task q t
    have queue := phases .queued
    have run := phases .running
    constructor <;> dsimp [State.setCall, State.modify] at * <;> omega
  | @settles id task call later there settles =>
    have places := calls_set there later t
    have length := range_modify s.tasks task (.set .taskCancelled) t
    have phases := fun q => phased_keep s.tasks (.set .taskCancelled)
      (fun _ => rfl) task q t
    have queue := phases .queued
    have run := phases .running
    have settled : call.settles = [task] ∧ later.settles = [] ∧ later.holds = call.holds := by
      cases settles <;> exact ⟨rfl, rfl, rfl⟩
    obtain ⟨before, after, same⟩ := settled
    rw [before, after, same] at places
    constructor <;> dsimp [State.setCall, State.modify] at * <;> omega
  | @shutdown id mode calledFromWorker there first =>
    have places := calls_set there (.pending (pendingOf s mode) calledFromWorker) t
    have split : s.queue.count t = (pendingOf s mode).count t + (remainingOf s mode).count t := by
      rw [pendingOf, remainingOf]
      split <;> simp
    constructor <;> dsimp [State.setCall] at * <;> omega
  | @passed id task rest calledFromWorker record there known other =>
    have places := calls_set there (.pending rest calledFromWorker) t
    have front := count_cons_one task rest t
    have away : phased .queued s.tasks t = 0 ∨ [task].count t = 0 := by
      by_cases equal : task = t
      · exact .inl (equal ▸ phased_other known other)
      · exact .inr (count_other equal)
    constructor <;> dsimp [State.setCall] at * <;> omega
  | @joins id call calledFromWorker there joins =>
    have places := calls_set there (.joinAll calledFromWorker) t
    have none : call.settles = [] ∧ call.holds = [] := by cases joins <;> exact ⟨rfl, rfl⟩
    rw [none.1, none.2] at places
    constructor <;> dsimp [State.setCall] at * <;> omega
  | @returned id calledFromWorker there joined =>
    have places := calls_set there (.shutdownReturned calledFromWorker) t
    constructor <;> dsimp [State.setCall] at * <;> omega

theorem balanced_run (run : Run (executorSystem ρ) es s) (t : Nat) : Balanced es s t := by
  refine run.history (fun es s => Balanced es s t) ?_ ?_
  · rintro s ⟨workerCount, queueCapacity, -, -, rfl⟩
    have idle : ∀ place : Worker ρ → List Nat, place .waiting = [] →
        ((List.replicate workerCount Worker.waiting).flatMap place).count t = 0 := by
      intro place none
      rw [List.flatMap_replicate, none]
      simp
    have held := idle Worker.held rfl
    have invokes := idle Worker.invokes rfl
    have fulfils := idle Worker.fulfils rfl
    have finishes := idle Worker.finishes rfl
    constructor <;> simp [trace, boundedExecutor, phased, held, invokes, fulfils, finishes]
  · intro es s l s' run balanced step
    exact balanced.shift (move_shift t balanced (step_move step))

end books

end Baas.Executor
