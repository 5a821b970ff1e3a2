import Baas.Lib.Transition

/-! `BoundedExecutor`: workers that take tasks from one bounded queue. Every section under the
mutex, every operation on a phase and every promise that is set is a step of its own. -/
namespace Baas.Executor

open Transition (System)

inductive ShutdownMode
  | drain | cancelPending
deriving DecidableEq

inductive TaskPhase
  | queued | running | finished | cancelled
deriving DecidableEq

/-- What a future gives: what the callable returned or threw, or `TaskCancelled`. -/
inductive Outcome (ρ : Type)
  | returned (result : ρ)
  | taskCancelled
deriving DecidableEq

inductive EnqueueResult
  | accepted | full | timeout | shutdown
deriving DecidableEq

structure Task (ρ : Type) where
  phase : TaskPhase := .queued
  stopRequested : Bool := false
  promise : Option (Outcome ρ) := none

/-- Where a worker stands in `RunWorker` and in the `Execute` of its task. -/
inductive Worker (ρ : Type)
  | waiting
  | popped (task : Nat)
  | invoking (task : Nat)
  | fulfilling (task : Nat) (result : ρ)
  | finishing (task : Nat)
  | leaving
  | exited
deriving DecidableEq

/-- Where a call stands: `Cancel` of a task handle, with `CancelQueued` for a task that it took out
of the queue and `RequestCancel` for any other, or `Shutdown`, from a worker or from outside. -/
inductive Call
  | cancel (task : Nat)
  | cancelQueued (task : Nat)
  | requestCancel (task : Nat)
  | requestStop (task : Nat)
  | setCancelledException (task : Nat)
  | cancelReturned (task : Nat) (result : Bool)
  | shutdown (mode : ShutdownMode) (calledFromWorker : Bool)
  | pending (tasks : List Nat) (calledFromWorker : Bool)
  | pendingException (task : Nat) (tasks : List Nat) (calledFromWorker : Bool)
  | joinAll (calledFromWorker : Bool)
  | shutdownReturned (calledFromWorker : Bool)
deriving DecidableEq

structure State (ρ : Type) where
  capacity : Nat
  tasks : List (Task ρ) := []
  queue : List Nat := []
  accepting : Bool := true
  stopping : Bool := false
  workersRemaining : Nat
  workers : List (Worker ρ)
  calls : List Call := []

inductive Label (ρ : Type)
  | enqueue (result : EnqueueResult)
  | pop (task : Nat)
  | begin (task : Nat)
  | skip (task : Nat)
  | ended (task : Nat) (result : ρ)
  | promise (task : Nat) (outcome : Outcome ρ)
  | finish (task : Nat)
  | leave
  | exit
  | called
  | take (task : Nat)
  | missed (task : Nat)
  | cancelled (task : Nat)
  | running (task : Nat)
  | stop (task : Nat)
  | cancelReturned (task : Nat) (result : Bool)
  | beginShutdown (mode : ShutdownMode) (pending : List Nat)
  | passed (task : Nat)
  | joining
  | shutdownReturned (calledFromWorker : Bool)

/-- Who goes on, and what a callable comes to. -/
inductive Choice (ρ : Type)
  | tryEnqueue
  | enqueueUntil
  | cancel (task : Nat)
  | shutdown (mode : ShutdownMode) (calledFromWorker : Bool)
  | worker (id : Nat) (result : ρ)
  | call (id : Nat)

section steps

variable {ρ : Type}

def State.modify (s : State ρ) (task : Nat) (change : Task ρ → Task ρ) : State ρ :=
  { s with tasks := s.tasks.modify task change }

def State.setWorker (s : State ρ) (id : Nat) (worker : Worker ρ) : State ρ :=
  { s with workers := s.workers.set id worker }

def State.setCall (s : State ρ) (id : Nat) (call : Call) : State ρ :=
  { s with calls := s.calls.set id call }

def Task.to (phase : TaskPhase) (task : Task ρ) : Task ρ := { task with phase := phase }

/-- A promise that is set already stays as it is. -/
def Task.set (outcome : Outcome ρ) (task : Task ρ) : Task ρ :=
  { task with promise := task.promise <|> some outcome }

def Task.stop (task : Task ρ) : Task ρ := { task with stopRequested := true }

/-- The section of `TryEnqueue`, and that of `EnqueueUntil` once its waiting has ended. -/
def enqueue (s : State ρ) (otherwise : EnqueueResult) : Label ρ × State ρ :=
  if s.accepting = false then (.enqueue .shutdown, s)
  else if s.queue.length ≥ s.capacity then (.enqueue otherwise, s)
  else (.enqueue .accepted,
    { s with tasks := s.tasks ++ [{}], queue := s.queue ++ [s.tasks.length] })

def runWorker (s : State ρ) (id : Nat) (result : ρ) : Worker ρ → Option (Label ρ × State ρ)
  | .waiting =>
    match s.queue with
    | task :: rest => some (.pop task, { s with queue := rest }.setWorker id (.popped task))
    | [] => if s.stopping then some (.leave, s.setWorker id .leaving) else none
  | .popped task =>
    -- `BeginExecution` exchanges the phase only if the task is still queued.
    (s.tasks[task]?).map fun record =>
      if record.phase = .queued then
        (.begin task, (s.modify task (.to .running)).setWorker id (.invoking task))
      else (.skip task, s.setWorker id .waiting)
  | .invoking task => some (.ended task result, s.setWorker id (.fulfilling task result))
  | .fulfilling task result =>
    some (.promise task (.returned result),
      (s.modify task (.set (.returned result))).setWorker id (.finishing task))
  | .finishing task => some (.finish task, (s.modify task (.to .finished)).setWorker id .waiting)
  | .leaving =>
    some (.exit, { s with workersRemaining := s.workersRemaining - 1 }.setWorker id .exited)
  | .exited => none

def runCall (s : State ρ) (id : Nat) : Call → Option (Label ρ × State ρ)
  | .cancel task =>
    if task ∈ s.queue then
      some (.take task, { s with queue := s.queue.erase task }.setCall id (.cancelQueued task))
    else some (.missed task, s.setCall id (.requestCancel task))
  | .cancelQueued task =>
    (s.tasks[task]?).map fun record =>
      if record.phase = .queued then
        (.cancelled task,
          (s.modify task (.to .cancelled)).setCall id (.setCancelledException task))
      else (.cancelReturned task false, s.setCall id (.cancelReturned task false))
  | .requestCancel task =>
    (s.tasks[task]?).map fun record =>
      match record.phase with
      | .queued =>
        (.cancelled task,
          (s.modify task (.to .cancelled)).setCall id (.setCancelledException task))
      | .running => (.running task, s.setCall id (.requestStop task))
      | _ => (.cancelReturned task false, s.setCall id (.cancelReturned task false))
  | .requestStop task =>
    (s.tasks[task]?).map fun record =>
      if record.stopRequested then
        (.cancelReturned task false, s.setCall id (.cancelReturned task false))
      else (.stop task, (s.modify task .stop).setCall id (.cancelReturned task true))
  | .setCancelledException task =>
    some (.promise task .taskCancelled,
      (s.modify task (.set .taskCancelled)).setCall id (.cancelReturned task true))
  | .shutdown mode calledFromWorker =>
    if s.stopping then some (.joining, s.setCall id (.joinAll calledFromWorker))
    else if mode = .cancelPending then
      some (.beginShutdown mode s.queue,
        { s with accepting := false, stopping := true, queue := [] }.setCall id
          (.pending s.queue calledFromWorker))
    else
      some (.beginShutdown mode [],
        { s with accepting := false, stopping := true }.setCall id (.pending [] calledFromWorker))
  | .pending [] calledFromWorker => some (.joining, s.setCall id (.joinAll calledFromWorker))
  | .pending (task :: rest) calledFromWorker =>
    (s.tasks[task]?).map fun record =>
      if record.phase = .queued then
        (.cancelled task, (s.modify task (.to .cancelled)).setCall id
          (.pendingException task rest calledFromWorker))
      else (.passed task, s.setCall id (.pending rest calledFromWorker))
  | .pendingException task rest calledFromWorker =>
    some (.promise task .taskCancelled,
      (s.modify task (.set .taskCancelled)).setCall id (.pending rest calledFromWorker))
  | .joinAll calledFromWorker =>
    -- A worker that shuts down does not wait for itself.
    if calledFromWorker ∨ s.workersRemaining = 0 then
      some (.shutdownReturned calledFromWorker, s.setCall id (.shutdownReturned calledFromWorker))
    else none
  | .cancelReturned _ _ => none
  | .shutdownReturned _ => none

/-- Handles are handed out for accepted tasks. -/
def advance (s : State ρ) : Choice ρ → Option (Label ρ × State ρ)
  | .tryEnqueue => some (enqueue s .full)
  | .enqueueUntil => some (enqueue s .timeout)
  | .cancel task =>
    if task < s.tasks.length then some (.called, { s with calls := s.calls ++ [.cancel task] })
    else none
  | .shutdown mode calledFromWorker =>
    some (.called, { s with calls := s.calls ++ [.shutdown mode calledFromWorker] })
  | .worker id result => s.workers[id]?.bind (runWorker s id result)
  | .call id => s.calls[id]?.bind (runCall s id)

def boundedExecutor (workerCount queueCapacity : Nat) : State ρ :=
  { capacity := queueCapacity, workersRemaining := workerCount,
    workers := List.replicate workerCount .waiting }

variable (ρ) in
def executorSystem : System (State ρ) (Label ρ) where
  start s := ∃ workerCount queueCapacity, 0 < workerCount ∧ 0 < queueCapacity ∧
    s = boundedExecutor workerCount queueCapacity
  step s l t := ∃ choice, advance s choice = some (l, t)

end steps

end Baas.Executor
