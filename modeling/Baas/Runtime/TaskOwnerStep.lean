import Baas.Lib.Transition
import Baas.Runtime.TaskOwner

/-! The task owner as a transition system: callers, workers and stop callbacks take the
sections in any order, each when the call it belongs to has come to it. -/
namespace Baas.RuntimeTaskOwner

open Transition

inductive Op
  | prepareStart (request : RuntimeTaskRequest) (publishThreadFailure : Bool) (elapsed : Int)
      (thread : ThreadStart)
  | finishPreparation (g : Generation)
  | commitReservation (g : Generation) (elapsed : Int)
  | deliverBeforeRelease (g : Generation)
  | releaseGate (g : Generation)
  | cancelReservation (g : Generation)
  | cancelGate (g : Generation)
  | finishCancel (g : Generation)
  | prepareStop (configId : ConfigId) (elapsed : Int)
  | commitStop (r : StopReservation) (elapsed : Int)
  | abortStop (r : StopReservation) (elapsed : Int)
  | requestStopAfterShutdown (configId : ConfigId) (elapsed : Int)
  | prepareStopAll (clock : Generation → Int)
  | commitStopAll (items : List StopAllItem) (clock : Generation → Int)
  | abortStopAll (items : List StopAllItem) (clock : Generation → Int)
  | deliver (g : Generation) (rest : List Generation) (sweeping : Bool)
  | finishPreparing (g : Generation) (prepared : Bool)
  | enterBackend (g : Generation)
  | leaveGate (g : Generation)
  | report (g : Generation) (progress : RuntimeTaskProgress) (elapsed : Int)
  | complete (g : Generation) (terminal : RuntimeTaskTerminal) (elapsed : Int)
  | closeAdmission
  | sweep (configId : ConfigId) (elapsed : Int)
  | endSweep

/-- `blocked` is a section that no call has come to; the state stays as it is. -/
inductive Outcome
  | blocked
  | done
  | preparing
  | startPrepared (result : PrepareStartResult)
  | stopPrepared (result : PrepareStopResult)
  | stopAllPrepared (result : PrepareStopAllResult)
  | stopRequested (result : RequestStopResult)
  | reported (accepted : Bool)

/-- The section acts on the start reservation of `g` at a given point. -/
def onStart (s : State) (g : Generation) (point : StartPoint) (section' : Job → State) :
    State × Outcome :=
  match s.arena.find? g with
  | some job => if s.starts.find? g = some point then (section' job, .done) else (s, .blocked)
  | none => (s, .blocked)

def onCommit (s : State) (g : Generation) (point : CommitPoint) (section' : Job → State) :
    State × Outcome :=
  match s.arena.find? g with
  | some job => if s.commits.find? g = some point then (section' job, .done) else (s, .blocked)
  | none => (s, .blocked)

/-- The section is one of the worker's, possible when the job allows it. -/
def onWorker (s : State) (g : Generation) (ready : Job → Bool) (change : Job → Job) :
    State × Outcome :=
  match s.arena.find? g with
  | some job =>
    if ready job then ({ s with arena := s.arena.insert g (change job) }, .done)
    else (s, .blocked)
  | none => (s, .blocked)

def canFinishPreparing (prepared : Bool) (job : Job) : Bool :=
  match job.worker with
  | .preparing preparedBackend => preparedBackend || prepared
  | _ => false

def applyFinishPreparation (s : State) (g : Generation) : State × Outcome :=
  match s.starts.find? g, s.arena.find? g with
  | some (.preparing reply), some job =>
    if job.preparationComplete then
      ((finishPreparation s g job reply).1, .startPrepared (finishPreparation s g job reply).2)
    else (s, .blocked)
  | _, _ => (s, .blocked)

def applyFinishCancel (s : State) (g : Generation) : State × Outcome :=
  match s.arena.find? g with
  | some job =>
    if s.starts.find? g = some .joining && job.worker = .exited then
      (finishCancel s g job, .done)
    else (s, .blocked)
  | none => (s, .blocked)

/-- One `request_stop` of a delivery, outside the mutex. -/
def applyDeliver (s : State) (g : Generation) (rest : List Generation) (sweeping : Bool) :
    State × Outcome :=
  match s.arena.find? g with
  | some job =>
    if .deliver (g :: rest) sweeping ∈ s.calls then
      let calls := s.calls.erase (.deliver (g :: rest) sweeping)
      ({ s with
          arena := s.arena.insert g { job with stopRequested := true }
          calls :=
            if rest.isEmpty then if sweeping then .sweep :: calls else calls
            else .deliver rest sweeping :: calls }, .done)
    else (s, .blocked)
  | none => (s, .blocked)

def applySweep (s : State) (configId : ConfigId) (elapsed : Int) : State × Outcome :=
  match (s.jobs.find? configId).bind (sweepSlot s · elapsed) with
  | some (t, g) =>
    if .sweep ∈ s.calls then
      ({ t with calls := .deliver [g] true :: s.calls.erase .sweep }, .done)
    else (s, .blocked)
  | none => (s, .blocked)

def sweepFinished (s : State) : Bool :=
  s.jobs.toList.all (fun entry => (sweepSlot s entry.2 0).isNone)

def applyReport (s : State) (g : Generation) (progress : RuntimeTaskProgress) (elapsed : Int) :
    State × Outcome :=
  match s.arena.find? g with
  | some job =>
    ((report s g job progress elapsed).1, .reported (report s g job progress elapsed).2)
  | none => (s, .reported false)

/-- No answer yet while the backend prepares. -/
def startOutcome : Option PrepareStartResult → Outcome
  | some result => .startPrepared result
  | none => .preparing

def applyLive (s : State) : Op → State × Outcome
  | .prepareStart request publishThreadFailure elapsed thread =>
    (prepareStart s request publishThreadFailure elapsed thread).map id startOutcome
  | .finishPreparation g => applyFinishPreparation s g
  | .commitReservation g elapsed => onStart s g .held (commitReservation s g · elapsed)
  | .deliverBeforeRelease g => onCommit s g .delivering (fun _ => deliverBeforeRelease s g)
  | .releaseGate g => onCommit s g .releasing (releaseGate s g)
  | .cancelReservation g => onStart s g .held (cancelReservation s g)
  | .cancelGate g => onStart s g .cancelling (cancelGate s g)
  | .finishCancel g => applyFinishCancel s g
  | .prepareStop configId elapsed => (prepareStop s configId elapsed).map id .stopPrepared
  | .commitStop r elapsed =>
    if r ∈ s.stops then (commitStop s r elapsed, .done) else (s, .blocked)
  | .abortStop r elapsed =>
    if r ∈ s.stops then (abortStop s r elapsed, .done) else (s, .blocked)
  | .requestStopAfterShutdown configId elapsed =>
    if s.accepting then (s, .blocked)
    else (requestStopAfterShutdown s configId elapsed).map id .stopRequested
  | .prepareStopAll clock => (prepareStopAll s clock).map id .stopAllPrepared
  | .commitStopAll items clock =>
    if items ∈ s.stopAlls then (commitStopAll s items clock, .done) else (s, .blocked)
  | .abortStopAll items clock =>
    if items ∈ s.stopAlls then (abortStopAll s items clock, .done) else (s, .blocked)
  | .deliver g rest sweeping => applyDeliver s g rest sweeping
  | .finishPreparing g prepared =>
    onWorker s g (canFinishPreparing prepared) (·.finishPreparing prepared)
  | .enterBackend g =>
    onWorker s g (fun job => job.worker = .waiting && job.gate = .committed)
      ({ · with worker := .executing })
  | .leaveGate g =>
    onWorker s g (fun job => job.worker = .waiting && job.gate = .cancelled)
      ({ · with worker := .exited })
  | .report g progress elapsed => applyReport s g progress elapsed
  | .complete g terminal elapsed =>
    onWorker s g (fun job => job.worker = .executing) (·.complete terminal elapsed)
  | .closeAdmission => ({ s with accepting := false, calls := .sweep :: s.calls }, .done)
  | .sweep configId elapsed => applySweep s configId elapsed
  | .endSweep =>
    if .sweep ∈ s.calls ∧ sweepFinished s then
      ({ s with calls := s.calls.erase .sweep }, .done)
    else (s, .blocked)

def apply (s : State) (op : Op) : State × Outcome :=
  if s.terminated then (s, .blocked) else applyLive s op

structure Section where
  op : Op
  outcome : Outcome

def perform (s : State) (op : Op) : Section × State := (⟨op, (apply s op).2⟩, (apply s op).1)

def ownerSystem : System State Section where
  start s := ∃ limits, validLimits limits = true ∧ s = { limits }
  step s l t := apply s l.op = (t, l.outcome)

theorem perform_step (s : State) (op : Op) : ownerSystem.step s (perform s op).1 (perform s op).2 :=
  rfl

end Baas.RuntimeTaskOwner
