import Baas.Script.Executor

/-! What a step of the executor can be. -/
namespace Baas.Executor

variable {ρ : Type}

/-- The calls of the executor as they are made. -/
inductive Fresh (s : State ρ) : Call → Prop
  | cancel {task : Nat} : task < s.tasks.length → Fresh s (.cancel task)
  | shutdown {mode : ShutdownMode} {calledFromWorker : Bool} :
      Fresh s (.shutdown mode calledFromWorker)

/-- A call of `Cancel` gives up: the task has its end already, or was asked to stop before. -/
inductive Late (record : Task ρ) (task : Nat) : Call → Prop
  | cancelQueued : record.phase ≠ .queued → Late record task (.cancelQueued task)
  | requestCancel : record.phase ≠ .queued → Late record task (.requestCancel task)
  | requestStop : record.stopRequested = true → Late record task (.requestStop task)

/-- A call that may win the task, and where it stands when it did. -/
inductive Wins (task : Nat) : Call → Call → Prop
  | cancelQueued : Wins task (.cancelQueued task) (.setCancelledException task)
  | requestCancel : Wins task (.requestCancel task) (.setCancelledException task)
  | pending {rest : List Nat} {calledFromWorker : Bool} :
      Wins task (.pending (task :: rest) calledFromWorker)
        (.pendingException task rest calledFromWorker)

/-- A call that has won the task, and where it stands when the promise is set. -/
inductive Settles (task : Nat) : Call → Call → Prop
  | cancel : Settles task (.setCancelledException task) (.cancelReturned task true)
  | pending {rest : List Nat} {calledFromWorker : Bool} :
      Settles task (.pendingException task rest calledFromWorker) (.pending rest calledFromWorker)

/-- What is left to be done before the workers are joined. -/
inductive Joins (s : State ρ) (calledFromWorker : Bool) : Call → Prop
  | again {mode : ShutdownMode} : s.stopping = true →
      Joins s calledFromWorker (.shutdown mode calledFromWorker)
  | done : Joins s calledFromWorker (.pending [] calledFromWorker)

def pendingOf (s : State ρ) (mode : ShutdownMode) : List Nat :=
  if mode = .cancelPending then s.queue else []

def remainingOf (s : State ρ) (mode : ShutdownMode) : List Nat :=
  if mode = .cancelPending then [] else s.queue

inductive Move (s : State ρ) : Label ρ → State ρ → Prop
  | refused {result : EnqueueResult} : result ≠ .accepted → Move s (.enqueue result) s
  | accepted : s.accepting = true → s.queue.length < s.capacity →
      Move s (.enqueue .accepted)
        { s with tasks := s.tasks ++ [{}], queue := s.queue ++ [s.tasks.length] }
  | called {call : Call} : Fresh s call → Move s .called { s with calls := s.calls ++ [call] }
  | pop {id task : Nat} {rest : List Nat} : s.workers[id]? = some .waiting →
      s.queue = task :: rest →
      Move s (.pop task) ({ s with queue := rest }.setWorker id (.popped task))
  | leave {id : Nat} : s.workers[id]? = some .waiting → s.queue = [] → s.stopping = true →
      Move s .leave (s.setWorker id .leaving)
  | begin {id task : Nat} {record : Task ρ} : s.workers[id]? = some (.popped task) →
      s.tasks[task]? = some record → record.phase = .queued →
      Move s (.begin task) ((s.modify task (.to .running)).setWorker id (.invoking task))
  | skip {id task : Nat} {record : Task ρ} : s.workers[id]? = some (.popped task) →
      s.tasks[task]? = some record → record.phase ≠ .queued →
      Move s (.skip task) (s.setWorker id .waiting)
  | ended {id task : Nat} (result : ρ) : s.workers[id]? = some (.invoking task) →
      Move s (.ended task result) (s.setWorker id (.fulfilling task result))
  | fulfil {id task : Nat} {result : ρ} : s.workers[id]? = some (.fulfilling task result) →
      Move s (.promise task (.returned result))
        ((s.modify task (.set (.returned result))).setWorker id (.finishing task))
  | finish {id task : Nat} : s.workers[id]? = some (.finishing task) →
      Move s (.finish task) ((s.modify task (.to .finished)).setWorker id .waiting)
  | exit {id : Nat} : s.workers[id]? = some .leaving →
      Move s .exit ({ s with workersRemaining := s.workersRemaining - 1 }.setWorker id .exited)
  | take {id task : Nat} : s.calls[id]? = some (.cancel task) → task ∈ s.queue →
      Move s (.take task) ({ s with queue := s.queue.erase task }.setCall id (.cancelQueued task))
  | missed {id task : Nat} : s.calls[id]? = some (.cancel task) → task ∉ s.queue →
      Move s (.missed task) (s.setCall id (.requestCancel task))
  | wins {id task : Nat} {record : Task ρ} {call later : Call} : s.calls[id]? = some call →
      Wins task call later → s.tasks[task]? = some record → record.phase = .queued →
      Move s (.cancelled task) ((s.modify task (.to .cancelled)).setCall id later)
  | late {id task : Nat} {record : Task ρ} {call : Call} : s.calls[id]? = some call →
      s.tasks[task]? = some record → Late record task call →
      Move s (.cancelReturned task false) (s.setCall id (.cancelReturned task false))
  | running {id task : Nat} {record : Task ρ} : s.calls[id]? = some (.requestCancel task) →
      s.tasks[task]? = some record → record.phase = .running →
      Move s (.running task) (s.setCall id (.requestStop task))
  | stop {id task : Nat} {record : Task ρ} : s.calls[id]? = some (.requestStop task) →
      s.tasks[task]? = some record → record.stopRequested = false →
      Move s (.stop task) ((s.modify task .stop).setCall id (.cancelReturned task true))
  | settles {id task : Nat} {call later : Call} : s.calls[id]? = some call →
      Settles task call later →
      Move s (.promise task .taskCancelled)
        ((s.modify task (.set .taskCancelled)).setCall id later)
  | shutdown {id : Nat} {mode : ShutdownMode} {calledFromWorker : Bool} :
      s.calls[id]? = some (.shutdown mode calledFromWorker) → s.stopping = false →
      Move s (.beginShutdown mode (pendingOf s mode))
        ({ s with accepting := false, stopping := true, queue := remainingOf s mode }.setCall id
          (.pending (pendingOf s mode) calledFromWorker))
  | passed {id task : Nat} {rest : List Nat} {calledFromWorker : Bool} {record : Task ρ} :
      s.calls[id]? = some (.pending (task :: rest) calledFromWorker) →
      s.tasks[task]? = some record → record.phase ≠ .queued →
      Move s (.passed task) (s.setCall id (.pending rest calledFromWorker))
  | joins {id : Nat} {call : Call} {calledFromWorker : Bool} : s.calls[id]? = some call →
      Joins s calledFromWorker call →
      Move s .joining (s.setCall id (.joinAll calledFromWorker))
  | returned {id : Nat} {calledFromWorker : Bool} :
      s.calls[id]? = some (.joinAll calledFromWorker) →
      calledFromWorker = true ∨ s.workersRemaining = 0 →
      Move s (.shutdownReturned calledFromWorker)
        (s.setCall id (.shutdownReturned calledFromWorker))

theorem enqueue_move (s : State ρ) (otherwise : EnqueueResult) (other : otherwise ≠ .accepted) :
    Move s (enqueue s otherwise).1 (enqueue s otherwise).2 := by
  rw [enqueue]
  split
  · exact .refused nofun
  · rename_i accepting
    split
    · exact .refused other
    · rename_i room
      exact .accepted (by simpa using accepting) (Nat.not_le.mp room)

theorem runWorker_move {s t : State ρ} {id : Nat} {worker : Worker ρ} {result : ρ} {l : Label ρ}
    (there : s.workers[id]? = some worker) (ran : runWorker s id result worker = some (l, t)) :
    Move s l t := by
  cases worker with
  | waiting =>
    rw [runWorker] at ran
    split at ran
    · rename_i queue
      cases ran
      exact .pop there queue
    · rename_i empty
      split at ran
      · rename_i stopping
        cases ran
        exact .leave there empty stopping
      · cases ran
  | popped task =>
    rw [runWorker, Option.map_eq_some_iff] at ran
    obtain ⟨record, known, same⟩ := ran
    split at same
    · rename_i queued
      cases same
      exact .begin there known queued
    · rename_i other
      cases same
      exact .skip there known other
  | invoking task =>
    cases ran
    exact .ended result there
  | fulfilling task result =>
    cases ran
    exact .fulfil there
  | finishing task =>
    cases ran
    exact .finish there
  | leaving =>
    cases ran
    exact .exit there
  | exited => cases ran

theorem runCall_move {s t : State ρ} {id : Nat} {call : Call} {l : Label ρ}
    (there : s.calls[id]? = some call) (ran : runCall s id call = some (l, t)) : Move s l t := by
  cases call with
  | cancel task =>
    rw [runCall] at ran
    split at ran
    · rename_i queued
      cases ran
      exact .take there queued
    · rename_i absent
      cases ran
      exact .missed there absent
  | cancelQueued task =>
    rw [runCall, Option.map_eq_some_iff] at ran
    obtain ⟨record, known, same⟩ := ran
    split at same
    · rename_i queued
      cases same
      exact .wins there .cancelQueued known queued
    · rename_i other
      cases same
      exact .late there known (.cancelQueued other)
  | requestCancel task =>
    rw [runCall, Option.map_eq_some_iff] at ran
    obtain ⟨record, known, same⟩ := ran
    split at same
    · rename_i queued
      cases same
      exact .wins there .requestCancel known queued
    · rename_i running
      cases same
      exact .running there known running
    · rename_i other _
      cases same
      exact .late there known (.requestCancel other)
  | requestStop task =>
    rw [runCall, Option.map_eq_some_iff] at ran
    obtain ⟨record, known, same⟩ := ran
    split at same
    · rename_i before
      cases same
      exact .late there known (.requestStop before)
    · rename_i first
      cases same
      exact .stop there known (eq_false_of_ne_true first)
  | setCancelledException task =>
    cases ran
    exact .settles there .cancel
  | cancelReturned task result => cases ran
  | shutdown mode calledFromWorker =>
    rw [runCall] at ran
    split at ran
    · rename_i stopping
      cases ran
      exact .joins there (.again stopping)
    · rename_i first
      have moved := Move.shutdown there (eq_false_of_ne_true first)
      rw [pendingOf, remainingOf] at moved
      split at ran
      · rename_i cancelPending
        rw [if_pos cancelPending, if_pos cancelPending] at moved
        cases ran
        exact moved
      · rename_i drain
        rw [if_neg drain, if_neg drain] at moved
        cases ran
        exact moved
  | pending tasks calledFromWorker =>
    cases tasks with
    | nil =>
      cases ran
      exact .joins there .done
    | cons task rest =>
      rw [runCall, Option.map_eq_some_iff] at ran
      obtain ⟨record, known, same⟩ := ran
      split at same
      · rename_i queued
        cases same
        exact .wins there .pending known queued
      · rename_i other
        cases same
        exact .passed there known other
  | pendingException task rest calledFromWorker =>
    cases ran
    exact .settles there .pending
  | joinAll calledFromWorker =>
    rw [runCall] at ran
    split at ran
    · rename_i joined
      cases ran
      exact .returned there joined
    · cases ran
  | shutdownReturned calledFromWorker => cases ran

theorem step_move {s t : State ρ} {l : Label ρ} (step : (executorSystem ρ).step s l t) :
    Move s l t := by
  obtain ⟨choice, advanced⟩ := step
  cases choice with
  | tryEnqueue =>
    rw [advance, Option.some.injEq] at advanced
    have moved := enqueue_move s .full nofun
    rwa [advanced] at moved
  | enqueueUntil =>
    rw [advance, Option.some.injEq] at advanced
    have moved := enqueue_move s .timeout nofun
    rwa [advanced] at moved
  | cancel task =>
    rw [advance] at advanced
    split at advanced
    · rename_i accepted
      cases advanced
      exact .called (.cancel accepted)
    · cases advanced
  | shutdown mode calledFromWorker =>
    cases advanced
    exact .called .shutdown
  | worker id result =>
    rw [advance, Option.bind_eq_some_iff] at advanced
    obtain ⟨worker, there, ran⟩ := advanced
    exact runWorker_move there ran
  | call id =>
    rw [advance, Option.bind_eq_some_iff] at advanced
    obtain ⟨call, there, ran⟩ := advanced
    exact runCall_move there ran

end Baas.Executor
