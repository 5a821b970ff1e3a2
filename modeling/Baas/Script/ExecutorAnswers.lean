import Baas.Script.ExecutorRun

/-! What futures and cancellations answer, and what they say about the tasks. -/
namespace Baas.Executor

open Transition (Event Run)

variable {ρ : Type} {es : List (Event (State ρ) (Label ρ))} {s : State ρ}

section futures

/-- The results of the callables. -/
def Label.results : Label ρ → List (Nat × ρ)
  | ended task result => [(task, result)]
  | _ => []

/-- The promises that are set. -/
def Label.promises : Label ρ → List (Nat × Outcome ρ)
  | promise task outcome => [(task, outcome)]
  | _ => []

theorem trace_mono {β : Type} {f : Label ρ → List β} {e : Event (State ρ) (Label ρ)} {b : β}
    (there : b ∈ trace f es) : b ∈ trace f (es ++ [e]) := by
  rw [trace_concat]
  exact List.mem_append_left _ there

theorem trace_last {β : Type} {f : Label ρ → List β} {e : Event (State ρ) (Label ρ)} {b : β}
    (there : b ∈ f e.label) : b ∈ trace f (es ++ [e]) := by
  rw [trace_concat]
  exact List.mem_append_right _ there

structure Futures (es : List (Event (State ρ) (Label ρ))) (s : State ρ) : Prop where
  fulfilling : ∀ t result, .fulfilling t result ∈ s.workers → (t, result) ∈ trace Label.results es
  returned : ∀ t result, (t, .returned result) ∈ trace Label.promises es →
    (t, result) ∈ trace Label.results es
  promised : ∀ t record, s.tasks[t]? = some record → ∀ outcome, record.promise = some outcome →
    (t, outcome) ∈ trace Label.promises es
  kept : ∀ t outcome, (t, outcome) ∈ trace Label.promises es →
    ∃ record, s.tasks[t]? = some record ∧ record.promise ≠ none

/-- A step that sets no promise. -/
theorem Futures.quiet (futures : Futures es s) {l : Label ρ} {s' : State ρ}
    (silent : l.promises = [])
    (workers : ∀ t result, .fulfilling t result ∈ s'.workers →
      .fulfilling t result ∈ s.workers ∨ (t, result) ∈ l.results)
    (tasks : ∀ (t : Nat) (record : Task ρ), s'.tasks[t]? = some record → record.promise = none ∨
      ∃ old : Task ρ, s.tasks[t]? = some old ∧ old.promise = record.promise)
    (tasks' : ∀ (t : Nat) (record : Task ρ), s.tasks[t]? = some record →
      ∃ new : Task ρ, s'.tasks[t]? = some new ∧ new.promise = record.promise) :
    Futures (es ++ [⟨s, l, s'⟩]) s' := by
  obtain ⟨fulfilling, returned, promised, kept⟩ := futures
  have same : trace Label.promises (es ++ [⟨s, l, s'⟩]) = trace Label.promises es := by
    rw [trace_concat, silent, List.append_nil]
  refine ⟨fun t result member => ?_, fun t result there => ?_, fun t record known outcome set => ?_,
    fun t outcome there => ?_⟩
  · obtain old | new := workers t result member
    · exact trace_mono (fulfilling t result old)
    · exact trace_last new
  · rw [same] at there
    exact trace_mono (returned t result there)
  · rw [same]
    obtain none | ⟨old, known', equal⟩ := tasks t record known
    · rw [none] at set
      cases set
    · exact promised t old known' outcome (equal.trans set)
  · rw [same] at there
    obtain ⟨record, known, some⟩ := kept t outcome there
    obtain ⟨new, known', equal⟩ := tasks' t record known
    exact ⟨new, known', equal ▸ some⟩

/-- A step that sets the promise of a task that was accepted. -/
theorem Futures.set (futures : Futures es s) {task : Nat} {outcome : Outcome ρ} {s' : State ρ}
    (small : task < s.tasks.length)
    (right : ∀ result, outcome = .returned result → (task, result) ∈ trace Label.results es)
    (workers : ∀ t result, .fulfilling t result ∈ s'.workers → .fulfilling t result ∈ s.workers)
    (tasks : s'.tasks = s.tasks.modify task (.set outcome)) :
    Futures (es ++ [⟨s, .promise task outcome, s'⟩]) s' := by
  obtain ⟨fulfilling, returned, promised, kept⟩ := futures
  refine ⟨fun t result member => trace_mono (fulfilling t result (workers t result member)),
    fun t result there => ?_, fun t record known outcome' set => ?_, fun t outcome' there => ?_⟩
  · rw [trace_concat] at there
    refine trace_mono ?_
    obtain before | now := List.mem_append.mp there
    · exact returned t result before
    · obtain ⟨rfl, same⟩ := Prod.mk.inj (List.mem_singleton.mp now)
      exact right result same.symm
  · rw [tasks] at known
    by_cases equal : task = t
    · subst equal
      rw [List.getElem?_modify_eq, Option.map_eq_map, Option.map_eq_some_iff] at known
      obtain ⟨old, known, rfl⟩ := known
      change (old.promise <|> some outcome) = some outcome' at set
      cases before : old.promise with
      | none =>
        rw [before] at set
        cases set
        exact trace_last List.mem_cons_self
      | some outcome'' =>
        rw [before] at set
        cases set
        exact trace_mono (promised task old known _ before)
    · rw [modify_apart equal] at known
      exact trace_mono (promised t record known outcome' set)
  · rw [trace_concat] at there
    have known : ∃ record, s.tasks[t]? = some record ∧ (t ≠ task → record.promise ≠ none) := by
      obtain before | now := List.mem_append.mp there
      · obtain ⟨record, known, some⟩ := kept t outcome' before
        exact ⟨record, known, fun _ => some⟩
      · obtain ⟨rfl, -⟩ := Prod.mk.inj (List.mem_singleton.mp now)
        exact ⟨_, List.getElem?_eq_getElem small, fun no => absurd rfl no⟩
    obtain ⟨record, known, some⟩ := known
    rw [tasks]
    by_cases equal : task = t
    · subst equal
      refine ⟨record.set outcome, by rw [List.getElem?_modify_eq, known]; rfl, ?_⟩
      change (record.promise <|> Option.some outcome) ≠ none
      cases record.promise <;> rintro ⟨⟩
    · exact ⟨record, by rw [modify_apart equal, known], some (Ne.symm equal)⟩

theorem modify_promise (change : Task ρ → Task ρ)
    (same : ∀ record, (change record).promise = record.promise) (tasks : List (Task ρ))
    (task t : Nat) :
    ((tasks.modify task change)[t]?).map Task.promise = (tasks[t]?).map Task.promise := by
  rw [List.getElem?_modify]
  cases tasks[t]? with
  | none => rfl
  | some record =>
    simp only [Option.map_eq_map, Option.map_some]
    split
    · exact congrArg some (same record)
    · rfl

/-- Tasks with the same promises. -/
theorem Futures.tasks (futures : Futures es s) {l : Label ρ} {s' : State ρ}
    (silent : l.promises = [])
    (workers : ∀ t result, .fulfilling t result ∈ s'.workers →
      .fulfilling t result ∈ s.workers ∨ (t, result) ∈ l.results)
    (tasks : ∀ t : Nat, (s'.tasks[t]?).map Task.promise = (s.tasks[t]?).map Task.promise) :
    Futures (es ++ [⟨s, l, s'⟩]) s' := by
  refine futures.quiet silent workers (fun t record known => .inr ?_) fun t record known => ?_
  · have same := tasks t
    rw [known, Option.map_some, eq_comm, Option.map_eq_some_iff] at same
    exact same
  · have same := tasks t
    rw [known, Option.map_some, Option.map_eq_some_iff] at same
    exact same

theorem fulfilling_set {id : Nat} {new : Worker ρ} {t : Nat} {result : ρ}
    (member : Worker.fulfilling t result ∈ s.workers.set id new) :
    .fulfilling t result ∈ s.workers ∨ .fulfilling t result = new :=
  List.mem_or_eq_of_mem_set member

/-- A step of a worker that holds no result afterwards. -/
theorem Futures.worker (futures : Futures es s) {l : Label ρ} {s' : State ρ} {id : Nat}
    {new : Worker ρ} (silent : l.promises = []) (workers : s'.workers = s.workers.set id new)
    (away : ∀ t result, .fulfilling t result ≠ new)
    (tasks : ∀ t : Nat, (s'.tasks[t]?).map Task.promise = (s.tasks[t]?).map Task.promise) :
    Futures (es ++ [⟨s, l, s'⟩]) s' := by
  refine futures.tasks silent (fun t result member => .inl ?_) tasks
  rw [workers] at member
  exact (fulfilling_set member).resolve_right (away t result)

theorem futures_step (run : Run (executorSystem ρ) es s) (futures : Futures es s) {l : Label ρ}
    {s' : State ρ} (move : Move s l s') : Futures (es ++ [⟨s, l, s'⟩]) s' := by
  have small : ∀ t, 0 < (trace Label.begun es).count t + (trace Label.lost es).count t →
      t < s.tasks.length := by
    intro t positive
    have phases := (balanced_run run t).phases
    exact List.mem_range.mp (List.count_pos_iff.mp (by omega))
  cases move with
  | accepted accepting room =>
    refine futures.quiet rfl (fun _ _ => .inl) (fun t record known => ?_) fun t record known => ?_
    · obtain before | new := Nat.lt_or_ge t s.tasks.length
      · rw [List.getElem?_append_left before] at known
        exact .inr ⟨record, known, rfl⟩
      · rw [List.getElem?_append_right new] at known
        have member := List.mem_of_getElem? known
        rw [List.mem_singleton.mp member]
        exact .inl rfl
    · exact ⟨record, List.getElem?_append_left (List.getElem?_eq_some_iff.mp known).1 ▸ known, rfl⟩
  | begin there known queued =>
    exact futures.worker rfl rfl (by rintro _ _ ⟨⟩)
      (modify_promise (.to .running) (fun _ => rfl) _ _)
  | @ended id task result there =>
    refine futures.tasks rfl (fun t result' member => ?_) fun _ => rfl
    refine (fulfilling_set member).imp_right fun same => ?_
    cases same
    exact List.mem_cons_self
  | @fulfil id task result there =>
    have member := List.mem_of_getElem? there
    refine futures.set ?_ (fun result' same => ?_) (fun t result' member => ?_) rfl
    · have counted := Tokens.count_le Worker.fulfils member task
      have begun := (balanced_run run task).begun
      have invoked := (balanced_run run task).invoked
      refine small task ?_
      have one : (Worker.fulfilling task result).fulfils.count task = 1 :=
        List.count_singleton_self
      omega
    · cases same
      exact futures.fulfilling task result member
    · exact (fulfilling_set member).resolve_right (by rintro ⟨⟩)
  | finish there =>
    exact futures.worker rfl rfl (by rintro _ _ ⟨⟩)
      (modify_promise (.to .finished) (fun _ => rfl) _ _)
  | wins there wins known queued =>
    exact futures.tasks rfl (fun _ _ => .inl) (modify_promise (.to .cancelled) (fun _ => rfl) _ _)
  | stop there known first =>
    exact futures.tasks rfl (fun _ _ => .inl) (modify_promise .stop (fun _ => rfl) _ _)
  | @settles id task call later there settles =>
    refine futures.set ?_ (by rintro _ ⟨⟩) (fun _ _ same => same) rfl
    have member := List.mem_of_getElem? there
    have counted := Tokens.count_le Call.settles member task
    have lost := (balanced_run run task).lost
    have one : call.settles.count task = 1 := by
      cases settles <;> exact List.count_singleton_self
    exact small task (by omega)
  | pop there queue => exact futures.worker rfl rfl (by rintro _ _ ⟨⟩) fun _ => rfl
  | leave there empty stopping => exact futures.worker rfl rfl (by rintro _ _ ⟨⟩) fun _ => rfl
  | skip there known other => exact futures.worker rfl rfl (by rintro _ _ ⟨⟩) fun _ => rfl
  | exit there => exact futures.worker rfl rfl (by rintro _ _ ⟨⟩) fun _ => rfl
  | _ => exact futures.tasks rfl (fun _ _ => .inl) fun _ => rfl

theorem futures_run (run : Run (executorSystem ρ) es s) : Futures es s := by
  refine run.history Futures ?_ fun es s l s' run futures step =>
    futures_step run futures (step_move step)
  rintro s ⟨workerCount, queueCapacity, -, -, rfl⟩
  refine ⟨fun t result member => ?_, fun _ _ no => (by cases no), fun t record known => ?_,
    fun _ _ no => (by cases no)⟩
  · cases List.eq_of_mem_replicate member
  · cases known

end futures

section cancellations

/-- The task whose handle a call belongs to. -/
@[simp] def Call.subject : Call → Option Nat
  | cancel task => some task
  | cancelQueued task => some task
  | requestCancel task => some task
  | requestStop task => some task
  | setCancelledException task => some task
  | cancelReturned task _ => some task
  | _ => none

/-- `Cancel` was called on the handle. -/
def Asked (s : State ρ) (t : Nat) : Prop := ∃ call ∈ s.calls, call.subject = some t

/-- The tasks that a shutdown cancels. -/
@[simp] def Label.swept : Label ρ → List Nat
  | beginShutdown _ pending => pending
  | _ => []

@[simp] def Label.stopped : Label ρ → List Nat
  | stop task => [task]
  | _ => []

structure Sourced (es : List (Event (State ρ) (Label ρ))) (s : State ρ) : Prop where
  running : ∀ t, .requestStop t ∈ s.calls → t ∈ trace Label.begun es
  answered : ∀ t, .cancelReturned t true ∈ s.calls → t ∈ trace Label.lost es ∨
    t ∈ trace Label.begun es ∧ t ∈ trace Label.stopped es
  held : ∀ call ∈ s.calls, ∀ t ∈ call.holds ++ call.settles,
    call.subject = some t ∨ t ∈ trace Label.swept es
  taken : ∀ t ∈ trace Label.taken es, Asked s t ∨ t ∈ trace Label.swept es
  lost : ∀ t ∈ trace Label.lost es, Asked s t ∨ t ∈ trace Label.swept es

theorem asked_set {id : Nat} {old new : Call} {s' : State ρ} (there : s.calls[id]? = some old)
    (calls : s'.calls = s.calls.set id new) (same : new.subject = old.subject) {t : Nat}
    (asked : Asked s t) : Asked s' t := by
  obtain ⟨call, member, subject⟩ := asked
  obtain ⟨i, small, rfl⟩ := List.getElem_of_mem member
  by_cases here : i = id
  · subst here
    obtain ⟨_, rfl⟩ := List.getElem?_eq_some_iff.mp there
    refine ⟨new, ?_, same.trans subject⟩
    rw [calls]
    exact List.mem_set small new
  · refine ⟨s.calls[i], ?_, subject⟩
    rw [calls]
    refine List.mem_of_getElem? (i := i) ?_
    rw [List.getElem?_set_ne (Ne.symm here)]
    exact List.getElem?_eq_getElem small

/-- A step that takes no task out and leaves the calls as they are. -/
theorem Sourced.keep (sourced : Sourced es s) {l : Label ρ} {s' : State ρ}
    (calls : s'.calls = s.calls) (taken : l.taken = []) (lost : l.lost = []) :
    Sourced (es ++ [⟨s, l, s'⟩]) s' := by
  obtain ⟨running, answered, held, taken', lost'⟩ := sourced
  have asked : ∀ t, Asked s t → Asked s' t := by
    rintro t ⟨call, member, subject⟩
    exact ⟨call, calls ▸ member, subject⟩
  refine ⟨fun t member => trace_mono (running t (calls ▸ member)), fun t member => ?_,
    fun call member t there => ?_, fun t there => ?_, fun t there => ?_⟩
  · exact (answered t (calls ▸ member)).imp trace_mono fun both =>
      ⟨trace_mono both.1, trace_mono both.2⟩
  · exact (held call (calls ▸ member) t there).imp_right trace_mono
  · rw [trace_concat, taken, List.append_nil] at there
    exact (taken' t there).imp (asked t) trace_mono
  · rw [trace_concat, lost, List.append_nil] at there
    exact (lost' t there).imp (asked t) trace_mono

/-- A step of a call. -/
theorem Sourced.call (sourced : Sourced es s) {id : Nat} {old new : Call} {l : Label ρ}
    {s' : State ρ} (there : s.calls[id]? = some old) (calls : s'.calls = s.calls.set id new)
    (same : new.subject = old.subject)
    (running : ∀ t, new = .requestStop t → t ∈ trace Label.begun es)
    (answered : ∀ t, new = .cancelReturned t true → t ∈ trace Label.lost es ∨
      t ∈ trace Label.begun es ∧ t ∈ l.stopped)
    (held : ∀ t ∈ new.holds ++ new.settles,
      new.subject = some t ∨ t ∈ trace Label.swept es ∨ t ∈ l.swept)
    (taken : ∀ t ∈ l.taken, new.subject = some t ∨ t ∈ l.swept)
    (lost : ∀ t ∈ l.lost, new.subject = some t ∨ t ∈ trace Label.swept es) :
    Sourced (es ++ [⟨s, l, s'⟩]) s' := by
  obtain ⟨running', answered', held', taken', lost'⟩ := sourced
  have asked : ∀ t, Asked s t → Asked s' t := fun t => asked_set there calls same
  have now : new ∈ s'.calls := by
    obtain ⟨small, -⟩ := List.getElem?_eq_some_iff.mp there
    rw [calls]
    exact List.mem_set small new
  have either : ∀ call ∈ s'.calls, call ∈ s.calls ∨ call = new := by
    intro call member
    rw [calls] at member
    exact List.mem_or_eq_of_mem_set member
  refine ⟨fun t member => ?_, fun t member => ?_, fun call member t inside => ?_,
    fun t inside => ?_, fun t inside => ?_⟩
  · obtain before | same := either _ member
    · exact trace_mono (running' t before)
    · exact trace_mono (running t same.symm)
  · obtain before | same := either _ member
    · exact (answered' t before).imp trace_mono fun both =>
        ⟨trace_mono both.1, trace_mono both.2⟩
    · exact (answered t same.symm).imp trace_mono fun both =>
        ⟨trace_mono both.1, trace_last both.2⟩
  · obtain before | rfl := either call member
    · exact (held' call before t inside).imp_right trace_mono
    · exact (held t inside).imp_right fun swept =>
        swept.elim (fun old => trace_mono old) fun now => trace_last now
  · rw [trace_concat] at inside
    obtain before | last := List.mem_append.mp inside
    · exact (taken' t before).imp (asked t) trace_mono
    · exact (taken t last).imp (fun subject => ⟨new, now, subject⟩) trace_last
  · rw [trace_concat] at inside
    obtain before | last := List.mem_append.mp inside
    · exact (lost' t before).imp (asked t) trace_mono
    · exact (lost t last).imp (fun subject => ⟨new, now, subject⟩) trace_mono

theorem sourced_step (run : Run (executorSystem ρ) es s) (sourced : Sourced es s) {l : Label ρ}
    {s' : State ρ} (move : Move s l s') : Sourced (es ++ [⟨s, l, s'⟩]) s' := by
  have none : ∀ {p : Nat → Prop}, ∀ t ∈ ([] : List Nat), p t := fun t no => (by cases no)
  have front : ∀ {l : List Nat} {t : Nat}, t ∈ l ++ [] → t ∈ l := fun member => by
    rwa [List.append_nil] at member
  -- What a shutdown still holds was swept.
  have held : ∀ {id task : Nat} {rest : List Nat} {calledFromWorker : Bool},
      s.calls[id]? = some (Call.pending (task :: rest) calledFromWorker) →
      ∀ t ∈ task :: rest, t ∈ trace Label.swept es := by
    intro id task rest calledFromWorker there t member
    refine (sourced.held _ (List.mem_of_getElem? there) t ?_).resolve_left (by rintro ⟨⟩)
    exact List.mem_append_left _ member
  cases move with
  | @called added fresh =>
    obtain ⟨running, answered, held, taken, lost⟩ := sourced
    have asked : ∀ t, Asked s t → Asked { s with calls := s.calls ++ [added] } t := by
      rintro t ⟨call, member, subject⟩
      exact ⟨call, List.mem_append_left _ member, subject⟩
    refine ⟨fun t member => ?_, fun t member => ?_, fun call member t inside => ?_,
      fun t inside => ?_, fun t inside => ?_⟩
    · obtain old | new := List.mem_append.mp member
      · exact trace_mono (running t old)
      · cases List.mem_singleton.mp new
        cases fresh
    · obtain old | new := List.mem_append.mp member
      · exact (answered t old).imp trace_mono fun both => ⟨trace_mono both.1, trace_mono both.2⟩
      · cases List.mem_singleton.mp new
        cases fresh
    · obtain old | new := List.mem_append.mp member
      · exact (held call old t inside).imp_right trace_mono
      · cases List.mem_singleton.mp new
        cases fresh <;> cases inside
    · rw [trace_concat] at inside
      exact (taken t (by simpa using inside)).imp (asked t) trace_mono
    · rw [trace_concat] at inside
      exact (lost t (by simpa using inside)).imp (asked t) trace_mono
  | @take id task there queued =>
    refine sourced.call there rfl rfl (by rintro _ ⟨⟩) (by rintro _ ⟨⟩) ?_ ?_ none
    · exact fun t member => .inl (congrArg some (List.mem_singleton.mp member).symm)
    · exact fun t member => .inl (congrArg some (List.mem_singleton.mp member).symm)
  | missed there absent =>
    exact sourced.call there rfl rfl (by rintro _ ⟨⟩) (by rintro _ ⟨⟩) none none none
  | @wins id task record call later there wins known queued =>
    have one : ∀ t ∈ [task], some task = some t := fun t member =>
      congrArg some (List.mem_singleton.mp member).symm
    cases wins with
    | cancelQueued =>
      exact sourced.call there rfl rfl (by rintro _ ⟨⟩) (by rintro _ ⟨⟩)
        (fun t member => .inl (one t member)) none fun t member => .inl (one t member)
    | requestCancel =>
      exact sourced.call there rfl rfl (by rintro _ ⟨⟩) (by rintro _ ⟨⟩)
        (fun t member => .inl (one t member)) none fun t member => .inl (one t member)
    | pending =>
      refine sourced.call there rfl rfl (by rintro _ ⟨⟩) (by rintro _ ⟨⟩)
        (fun t member => ?_) none fun t member => ?_
      · refine .inr (.inl (held there t ?_))
        obtain later | now := List.mem_append.mp member
        · exact List.mem_cons_of_mem _ later
        · exact List.mem_singleton.mp now ▸ List.mem_cons_self
      · exact .inr (held there t (List.mem_singleton.mp member ▸ List.mem_cons_self))
  | late there known late =>
    refine sourced.call there rfl ?_ (by rintro _ ⟨⟩) (by rintro _ ⟨⟩) none none none
    cases late <;> rfl
  | @running id task record there known phase =>
    refine sourced.call there rfl rfl (fun t same => ?_) (by rintro _ ⟨⟩) none none none
    cases same
    have counted := (balanced_run run task).running
    have one : phased .running s.tasks task = 1 := by
      rw [phased, known]
      exact if_pos phase
    exact List.count_pos_iff.mp (by omega)
  | @stop id task record there known first =>
    refine sourced.call there rfl rfl (by rintro _ ⟨⟩) (fun t same => ?_) none none none
    cases same
    exact .inr ⟨sourced.running task (List.mem_of_getElem? there), List.mem_cons_self⟩
  | @settles id task call later there settles =>
    cases settles with
    | cancel =>
      refine sourced.call there rfl rfl (by rintro _ ⟨⟩) (fun t same => ?_) none none none
      cases same
      have counted := Tokens.count_le Call.settles (List.mem_of_getElem? there) task
      have lost := (balanced_run run task).lost
      have one : (Call.setCancelledException task).settles.count task = 1 :=
        List.count_singleton_self
      exact .inl (List.count_pos_iff.mp (by omega))
    | pending =>
      refine sourced.call there rfl rfl (by rintro _ ⟨⟩) (by rintro _ ⟨⟩)
        (fun t member => .inr (.inl ?_)) none none
      refine (sourced.held _ (List.mem_of_getElem? there) t ?_).resolve_left (by rintro ⟨⟩)
      exact List.mem_append_left _ (front member)
  | shutdown there first =>
    refine sourced.call there rfl rfl (by rintro _ ⟨⟩) (by rintro _ ⟨⟩)
      (fun t member => .inr (.inr ?_)) (fun t member => .inr member) none
    exact front member
  | passed there known other =>
    refine sourced.call there rfl rfl (by rintro _ ⟨⟩) (by rintro _ ⟨⟩)
      (fun t member => .inr (.inl ?_)) none none
    exact held there t (List.mem_cons_of_mem _ (front member))
  | joins there joins =>
    refine sourced.call there rfl ?_ (by rintro _ ⟨⟩) (by rintro _ ⟨⟩) none none none
    cases joins <;> rfl
  | returned there joined =>
    exact sourced.call there rfl rfl (by rintro _ ⟨⟩) (by rintro _ ⟨⟩) none none none
  | fulfil there => exact sourced.keep rfl rfl rfl
  | _ => exact sourced.keep rfl rfl rfl

theorem sourced_run (run : Run (executorSystem ρ) es s) : Sourced es s := by
  refine run.history Sourced ?_ fun es s l s' run sourced step =>
    sourced_step run sourced (step_move step)
  rintro s ⟨workerCount, queueCapacity, -, -, rfl⟩
  exact ⟨fun _ no => (by cases no), fun _ no => (by cases no), fun _ no => (by cases no),
    fun _ no => (by cases no), fun _ no => (by cases no)⟩

end cancellations

end Baas.Executor
