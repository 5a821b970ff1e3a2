import Baas.Lib.ByteOrder
import Baas.Lib.OrderedMap

/-! `RuntimeTaskOwner`: the registry of long-running jobs, one slot for each config.
A job is addressed by the generation it was created with, which is also what the
shared pointers of the code compare. Every function here is what the code does under
one hold of `mutex_` (or of a job's `gate_mutex`); a call that drops the mutex is cut
there and keeps its place in `starts`, `commits` or `calls`. Each reading of the system
clock is an argument. Allocation is taken to succeed, and a join is only the wait for a
worker that has exited. -/
namespace Baas.RuntimeTaskOwner

abbrev Text := List UInt8

abbrev ConfigId := Text

abbrev Generation := Nat

abbrev Timestamp := Nat

inductive JobPhase
  | completed | running | stopping
deriving DecidableEq

inductive StartGate
  | pending | committed | cancelled
deriving DecidableEq

def jsonSafeIntegerMax : Timestamp := 9007199254740991

/-- 2^64, the range of the generation counter. -/
def wordRange : Nat := 18446744073709551616

def boundedText (value : Text) (maximum : Nat) (allowEmpty : Bool) : Bool :=
  (allowEmpty || !value.isEmpty) && value.length ≤ maximum && !value.contains 0

/-- `elapsed` is what the system clock shows, in milliseconds since the epoch. -/
def unixTimestampMs (elapsed : Int) : Timestamp :=
  if elapsed ≤ 0 then 0 else min elapsed.toNat jsonSafeIntegerMax

def nextTimestamp (elapsed : Int) (previous : Timestamp) : Timestamp :=
  if unixTimestampMs elapsed > previous then unixTimestampMs elapsed
  else if previous < jsonSafeIntegerMax then previous + 1
  else jsonSafeIntegerMax

structure RuntimeTaskLimits where
  maxConfigs : Nat := 256
  maxConfigIdBytes : Nat := 256
  maxRunModeBytes : Nat := 64
  maxTaskNameBytes : Nat := 512
  maxButtonBytes : Nat := 64 * 1024
  maxWaitingTasks : Nat := 256
  maxWaitingTaskBytes : Nat := 512

/-- `preparedBackend` says whether the request brings its own backend. -/
structure RuntimeTaskRequest where
  configId : ConfigId
  runMode : Text
  currentTask : Option Text
  waitingTasks : List Text
  preparedBackend : Bool

structure RuntimeTaskProgress where
  isFlagRun : Bool
  button : Option Text
  currentTask : Option Text
  waitingTasks : List Text
deriving DecidableEq

structure RuntimeTaskTerminal where
  isFlagRun : Bool
  exitCode : Option Int

structure RuntimeTaskSnapshot where
  configId : ConfigId
  running : Bool
  stopping : Bool
  isFlagRun : Bool
  button : Option Text
  currentTask : Option Text
  waitingTasks : List Text
  exitCode : Option Int
  runMode : Option Text
  timestamp : Timestamp
deriving DecidableEq

/-- Where the thread of a job is. `absent` is a thread that was never created;
`preparing` knows whether the request has a prepared backend to call. -/
inductive Worker
  | absent
  | preparing (preparedBackend : Bool)
  | waiting
  | executing
  | exited
deriving DecidableEq

structure Job where
  snapshot : RuntimeTaskSnapshot
  pendingProgress : Option RuntimeTaskProgress := none
  generation : Generation
  phase : JobPhase := .completed
  stopRequested : Bool := false
  gate : StartGate := .pending
  preparationComplete : Bool := false
  preparationSucceeded : Bool := false
  worker : Worker := .absent

structure ConfigSlot where
  current : Option Generation := none
  reserved : Option Generation := none
  stopReserved : Bool := false
deriving DecidableEq

/-- The state a stop reservation captured, without the stop source, which is that of
the captured job. -/
structure StopReservation where
  configId : ConfigId
  job : Option Generation
  generation : Generation
  commitTimestamp : Timestamp
  transitionRunning : Bool
deriving DecidableEq

structure StopAllItem where
  job : Generation
  generation : Generation
  commitTimestamp : Timestamp
  transitionRunning : Bool
deriving DecidableEq

/-- How far the owner of a start reservation has got: `prepare_start` waiting for the
backend's preparation with its reply built, the reservation handed out, and the two
points where `cancel_reservation` holds no mutex. -/
inductive StartPoint
  | preparing (reply : RuntimeTaskSnapshot)
  | held
  | cancelling
  | joining
deriving DecidableEq

/-- `commit_reservation` after it has installed the job and dropped the mutex. -/
inductive CommitPoint
  | delivering
  | releasing
deriving DecidableEq

/-- A call that still has stops to request, or an `initiate_shutdown` between two
iterations of its loop. A delivery may be the one of such an iteration. -/
inductive Call
  | deliver (targets : List Generation) (sweeping : Bool)
  | sweep
deriving DecidableEq

structure State where
  limits : RuntimeTaskLimits
  jobs : OrderedMap ConfigId ConfigSlot := .empty
  accepting : Bool := true
  stopAllReserved : Bool := false
  activeReservations : Nat := 0
  nextJobGeneration : Generation := 1
  /-- Every job created so far. -/
  arena : OrderedMap Generation Job := .empty
  /-- The start reservations that are not resolved, by their job. -/
  starts : OrderedMap Generation StartPoint := .empty
  commits : OrderedMap Generation CommitPoint := .empty
  /-- The stop reservations handed out and not resolved. -/
  stops : List StopReservation := []
  stopAlls : List (List StopAllItem) := []
  calls : List Call := []
  terminated : Bool := false

inductive StartDecision
  | started | alreadyRunning | stopping | ownerStopped | capacityExceeded | invalidRequest
  | threadStartFailed | reservationConflict | preparationFailed
deriving DecidableEq

structure PrepareStartResult where
  decision : StartDecision
  snapshot : Option RuntimeTaskSnapshot
  reservation : Option Generation
deriving DecidableEq

inductive StopDecision
  | stopRequested | alreadyStopping | alreadyStopped | unknownConfig | ownerStopped
  | capacityExceeded | reservationConflict
deriving DecidableEq

structure PrepareStopResult where
  decision : StopDecision
  snapshot : Option RuntimeTaskSnapshot
  reservation : Option StopReservation
deriving DecidableEq

structure RequestStopResult where
  decision : StopDecision
  snapshot : Option RuntimeTaskSnapshot
deriving DecidableEq

inductive StopAllDecision
  | stopRequested | nothingToStop | ownerStopped | reservationConflict
deriving DecidableEq

structure PrepareStopAllResult where
  decision : StopAllDecision
  snapshots : List RuntimeTaskSnapshot
  reservation : Option (List StopAllItem)
deriving DecidableEq

def validLimits (limits : RuntimeTaskLimits) : Bool :=
  limits.maxConfigs ≠ 0 ∧ limits.maxConfigIdBytes ≠ 0 ∧ limits.maxRunModeBytes ≠ 0 ∧
    limits.maxTaskNameBytes ≠ 0 ∧ limits.maxButtonBytes ≠ 0 ∧ limits.maxWaitingTaskBytes ≠ 0

def validTasks (limits : RuntimeTaskLimits) (currentTask : Option Text)
    (waitingTasks : List Text) : Bool :=
  waitingTasks.length ≤ limits.maxWaitingTasks &&
    currentTask.all (boundedText · limits.maxTaskNameBytes false) &&
    waitingTasks.all (boundedText · limits.maxWaitingTaskBytes false)

def validRequest (limits : RuntimeTaskLimits) (request : RuntimeTaskRequest) : Bool :=
  boundedText request.configId limits.maxConfigIdBytes false &&
    boundedText request.runMode limits.maxRunModeBytes false &&
    validTasks limits request.currentTask request.waitingTasks

def validProgress (limits : RuntimeTaskLimits) (progress : RuntimeTaskProgress) : Bool :=
  validTasks limits progress.currentTask progress.waitingTasks &&
    progress.button.all (boundedText · limits.maxButtonBytes true)

def Job.discardPendingProgress (job : Job) : Job := { job with pendingProgress := none }

/-- What an accepted report does to the public snapshot. -/
def Job.applyProgress (job : Job) (progress : RuntimeTaskProgress) (elapsed : Int) : Job :=
  { job with
    snapshot := { job.snapshot with
      isFlagRun := if job.phase = .stopping then false else progress.isFlagRun
      button := progress.button
      currentTask := progress.currentTask
      waitingTasks := progress.waitingTasks
      timestamp := nextTimestamp elapsed job.snapshot.timestamp } }

def Job.publishPendingProgress (job : Job) (elapsed : Int) : Job :=
  match job.pendingProgress with
  | none => job
  | some progress => (job.applyProgress progress elapsed).discardPendingProgress

/-- The transition to `stopping`, with the timestamp it publishes. -/
def Job.markStopping (job : Job) (timestamp : Timestamp) : Job :=
  { job with
    phase := .stopping
    snapshot := { job.snapshot with stopping := true, isFlagRun := false, timestamp } }

def failedSnapshot (snapshot : RuntimeTaskSnapshot) (timestamp : Timestamp) :
    RuntimeTaskSnapshot :=
  { snapshot with
    running := false
    stopping := false
    isFlagRun := false
    currentTask := none
    waitingTasks := []
    exitCode := some 1
    timestamp }

def Job.setThreadStartFailure (job : Job) (elapsed : Int) : Job :=
  { job with
    phase := .completed
    snapshot := failedSnapshot job.snapshot (nextTimestamp elapsed job.snapshot.timestamp) }

/-- The last section of `run`. -/
def Job.complete (job : Job) (terminal : RuntimeTaskTerminal) (elapsed : Int) : Job :=
  { job.discardPendingProgress with
    phase := .completed
    worker := .exited
    snapshot := { job.snapshot with
      running := false
      stopping := false
      isFlagRun := terminal.isFlagRun
      currentTask := none
      waitingTasks := []
      exitCode := terminal.exitCode
      timestamp := nextTimestamp elapsed job.snapshot.timestamp } }

def State.terminate (s : State) : State := { s with terminated := true }

def State.updateJob (s : State) (g : Generation) (change : Job → Job) : State :=
  match s.arena.find? g with
  | none => s
  | some job => { s with arena := s.arena.insert g (change job) }

def State.current? (s : State) (slot : ConfigSlot) : Option (Generation × Job) :=
  slot.current.bind (fun g => (s.arena.find? g).map (g, ·))

/-- Clears `reserved`, and erases the slot when no job ever ran in it. -/
def State.releaseReserved (s : State) (configId : ConfigId) (slot : ConfigSlot) : State :=
  { s with
    jobs :=
      if slot.current.isNone then s.jobs.erase configId
      else s.jobs.insert configId { slot with reserved := none }
    activeReservations := s.activeReservations - 1 }

def refuseStart (decision : StartDecision) (snapshot : Option RuntimeTaskSnapshot) :
    Option PrepareStartResult :=
  some ⟨decision, snapshot, none⟩

def startSnapshot (request : RuntimeTaskRequest) (previous : Option Job) (elapsed : Int) :
    RuntimeTaskSnapshot where
  configId := request.configId
  running := true
  stopping := false
  isFlagRun := true
  button := previous.bind (·.snapshot.button)
  currentTask := request.currentTask
  waitingTasks := request.waitingTasks
  exitCode := none
  runMode := some request.runMode
  timestamp := nextTimestamp elapsed ((previous.map (·.snapshot.timestamp)).getD 0)

/-- The outcome of creating the worker thread, which reads the clock only when it
fails. -/
inductive ThreadStart
  | created
  | failed (elapsed : Int)

def bump (generation : Generation) : Generation := (generation + 1) % wordRange

/-- `prepare_start` from the snapshot on, with the slot it found or is about to add. -/
def reserveStart (s : State) (request : RuntimeTaskRequest) (publishThreadFailure : Bool)
    (slot : ConfigSlot) (previous : Option Job) (elapsed : Int) (thread : ThreadStart) :
    State × Option PrepareStartResult :=
  let next := startSnapshot request previous elapsed
  let g := s.nextJobGeneration
  if g = 0 then (s, refuseStart .capacityExceeded none)
  else
    match thread with
    | .created =>
      let job : Job :=
        { snapshot := next, generation := g, worker := .preparing request.preparedBackend }
      let admitted : State :=
        { s with
          nextJobGeneration := bump g
          arena := s.arena.insert g job
          jobs := s.jobs.insert request.configId { slot with reserved := some g }
          activeReservations := s.activeReservations + 1 }
      if request.preparedBackend then
        ({ admitted with starts := s.starts.insert g (.preparing next) }, none)
      else
        ({ admitted with starts := s.starts.insert g .held },
          some ⟨.started, some next, some g⟩)
    | .failed failElapsed =>
      -- the reservation is taken and given back within the same hold of the mutex
      let job := Job.setThreadStartFailure { snapshot := next, generation := g } failElapsed
      let failed : State :=
        { s with
          nextJobGeneration := bump g
          arena := s.arena.insert g job
          jobs :=
            if publishThreadFailure then
              s.jobs.insert request.configId { slot with current := some g, reserved := none }
            else if slot.current.isNone then s.jobs.erase request.configId
            else s.jobs.insert request.configId { slot with reserved := none } }
      (failed, refuseStart .threadStartFailed
        (some (failedSnapshot next job.snapshot.timestamp)))

def prepareStart (s : State) (request : RuntimeTaskRequest) (publishThreadFailure : Bool)
    (elapsed : Int) (thread : ThreadStart) : State × Option PrepareStartResult :=
  if !validRequest s.limits request then (s, refuseStart .invalidRequest none)
  else if !s.accepting then (s, refuseStart .ownerStopped none)
  else if s.stopAllReserved then (s, refuseStart .reservationConflict none)
  else
    match s.jobs.find? request.configId with
    | some slot =>
      if slot.reserved.isSome || slot.stopReserved then
        (s, refuseStart .reservationConflict none)
      else
        match s.current? slot with
        | none => reserveStart s request publishThreadFailure slot none elapsed thread
        | some (_, previous) =>
          match previous.phase with
          | .running => (s, refuseStart .alreadyRunning (some previous.snapshot))
          | .stopping => (s, refuseStart .stopping (some previous.snapshot))
          | .completed =>
            -- its worker has exited, so the join does not block
            reserveStart s request publishThreadFailure slot (some previous) elapsed thread
    | none =>
      if s.jobs.size ≥ s.limits.maxConfigs then (s, refuseStart .capacityExceeded none)
      else reserveStart s request publishThreadFailure {} none elapsed thread

/-- The rest of `prepare_start` once the worker has reported the preparation. -/
def finishPreparation (s : State) (g : Generation) (job : Job) (reply : RuntimeTaskSnapshot) :
    State × PrepareStartResult :=
  if job.preparationSucceeded then
    ({ s with starts := s.starts.insert g .held }, ⟨.started, some reply, some g⟩)
  else
    let released :=
      match s.jobs.find? job.snapshot.configId with
      | some slot =>
        if slot.reserved = some g then s.releaseReserved job.snapshot.configId slot else s
      | none => s
    ({ released with starts := s.starts.erase g }, ⟨.preparationFailed, none, none⟩)

def commitReservation (s : State) (g : Generation) (job : Job) (elapsed : Int) : State :=
  match s.jobs.find? job.snapshot.configId with
  | none => s.terminate
  | some slot =>
    if slot.reserved ≠ some g ∨ s.activeReservations = 0 then s.terminate
    else
      let installed :=
        if s.accepting then { job with phase := .running }
        else job.markStopping (nextTimestamp elapsed job.snapshot.timestamp)
      { s with
        jobs := s.jobs.insert job.snapshot.configId
          { slot with current := some g, reserved := none }
        activeReservations := s.activeReservations - 1
        arena := s.arena.insert g installed
        starts := s.starts.erase g
        commits := s.commits.insert g (if s.accepting then .releasing else .delivering) }

/-- The stop a commit requests while the gate is still closed. -/
def deliverBeforeRelease (s : State) (g : Generation) : State :=
  { s with commits := s.commits.insert g .releasing }.updateJob g
    ({ · with stopRequested := true })

def releaseGate (s : State) (g : Generation) (job : Job) : State :=
  if job.gate ≠ .pending then s.terminate
  else { s with commits := s.commits.erase g }.updateJob g ({ · with gate := .committed })

/-- `cancel_reservation` up to its first unlock. -/
def cancelReservation (s : State) (g : Generation) (job : Job) : State :=
  match s.jobs.find? job.snapshot.configId with
  | none => s.terminate
  | some slot =>
    if slot.reserved ≠ some g then s.terminate
    else { s with starts := s.starts.insert g .cancelling }

def cancelGate (s : State) (g : Generation) (job : Job) : State :=
  if job.gate ≠ .pending then s.terminate
  else
    { s with starts := s.starts.insert g .joining }.updateJob g
      ({ · with gate := .cancelled })

/-- The last section of `cancel_reservation`, after the join of the worker. -/
def finishCancel (s : State) (g : Generation) (job : Job) : State :=
  match s.jobs.find? job.snapshot.configId with
  | none => s.terminate
  | some slot =>
    if slot.reserved ≠ some g ∨ s.activeReservations = 0 then s.terminate
    else
      { s.releaseReserved job.snapshot.configId slot with starts := s.starts.erase g }

def refuseStop (decision : StopDecision) : PrepareStopResult := ⟨decision, none, none⟩

/-- The decision, the reply and the reservation of a stop that is let through. -/
def captureStop (configId : ConfigId) (elapsed : Int) : Option (Generation × Job) →
    StopDecision × Option RuntimeTaskSnapshot × StopReservation
  | none => (.unknownConfig, none, ⟨configId, none, 0, 0, false⟩)
  | some (g, job) =>
    match job.phase with
    | .running =>
      let timestamp := nextTimestamp elapsed job.snapshot.timestamp
      (.stopRequested,
        some { job.snapshot with stopping := true, isFlagRun := false, timestamp },
        ⟨configId, some g, job.generation, timestamp, true⟩)
    | .stopping =>
      (.alreadyStopping, some job.snapshot, ⟨configId, some g, job.generation, 0, false⟩)
    | .completed =>
      (.alreadyStopped, some job.snapshot, ⟨configId, some g, job.generation, 0, false⟩)

def prepareStop (s : State) (configId : ConfigId) (elapsed : Int) : State × PrepareStopResult :=
  if !boundedText configId s.limits.maxConfigIdBytes false then (s, refuseStop .unknownConfig)
  else if !s.accepting then (s, refuseStop .ownerStopped)
  else if s.stopAllReserved then (s, refuseStop .reservationConflict)
  else
    let reserve (slot : ConfigSlot) : State × PrepareStopResult :=
      let (decision, snapshot, reservation) := captureStop configId elapsed (s.current? slot)
      ({ s with
          jobs := s.jobs.insert configId { slot with stopReserved := true }
          activeReservations := s.activeReservations + 1
          stops := reservation :: s.stops },
        ⟨decision, snapshot, some reservation⟩)
    match s.jobs.find? configId with
    | some slot =>
      if slot.reserved.isSome || slot.stopReserved then (s, refuseStop .reservationConflict)
      else reserve slot
    | none =>
      if s.jobs.size ≥ s.limits.maxConfigs then (s, refuseStop .capacityExceeded)
      else reserve {}

/-- `resolve_stop_gate_locked`. -/
def resolveStopGate (s : State) (configId : ConfigId) : State :=
  match s.jobs.find? configId with
  | none => s.terminate
  | some slot =>
    if slot.stopReserved = false ∨ s.activeReservations = 0 then s.terminate
    else
      { s with
        jobs :=
          if slot.current.isNone && slot.reserved.isNone then s.jobs.erase configId
          else s.jobs.insert configId { slot with stopReserved := false }
        activeReservations := s.activeReservations - 1 }

/-- The captured job is still the current one of its config. -/
def sameGeneration (s : State) (configId : ConfigId) (g generation : Generation) (job : Job) :
    Bool :=
  ((s.jobs.find? configId).bind (·.current)) = some g && job.generation = generation

/-- The stop a commit has to deliver, none when the captured job is not running. -/
def stopsAtCommit (same : Bool) (transitionRunning : Bool) (job : Job) : Bool :=
  same && transitionRunning && job.phase = .running

def settleCommit (same transitionRunning : Bool) (timestamp : Timestamp) (elapsed : Int)
    (job : Job) : Job :=
  if stopsAtCommit same transitionRunning job then
    (job.markStopping timestamp).discardPendingProgress
  else if same && !transitionRunning && job.phase = .stopping then
    job.publishPendingProgress elapsed
  else job.discardPendingProgress

def settleAbort (same : Bool) (elapsed : Int) (job : Job) : Job :=
  if same && job.phase ≠ .completed then job.publishPendingProgress elapsed
  else job.discardPendingProgress

/-- Calls `request_stop` once the mutex is free; nothing to do for no target. -/
def State.pushDelivery (s : State) (targets : List Generation) (sweeping : Bool) : State :=
  if targets.isEmpty then s else { s with calls := .deliver targets sweeping :: s.calls }

def commitStop (s : State) (r : StopReservation) (elapsed : Int) : State :=
  match s.jobs.find? r.configId with
  | none => s.terminate
  | some slot =>
    if slot.stopReserved = false then s.terminate
    else
      let s := { s with stops := s.stops.erase r }
      match r.job.bind (fun g => (s.arena.find? g).map (g, ·)) with
      | none => resolveStopGate s r.configId
      | some (g, job) =>
        let same := sameGeneration s r.configId g r.generation job
        (resolveStopGate
          (s.updateJob g (settleCommit same r.transitionRunning r.commitTimestamp elapsed))
          r.configId).pushDelivery
            (if stopsAtCommit same r.transitionRunning job then [g] else []) false

def abortStop (s : State) (r : StopReservation) (elapsed : Int) : State :=
  let s := { s with stops := s.stops.erase r }
  match r.job.bind (fun g => (s.arena.find? g).map (g, ·)) with
  | none => resolveStopGate s r.configId
  | some (g, job) =>
    resolveStopGate
      (s.updateJob g (settleAbort (sameGeneration s r.configId g r.generation job) elapsed))
      r.configId

/-- The fallback of `request_stop` when `prepare_stop` answered `owner_stopped`. -/
def requestStopAfterShutdown (s : State) (configId : ConfigId) (elapsed : Int) :
    State × RequestStopResult :=
  if s.stopAllReserved then (s, ⟨.reservationConflict, none⟩)
  else
    match s.jobs.find? configId with
    | none => (s, ⟨.unknownConfig, none⟩)
    | some slot =>
      match s.current? slot with
      | none => (s, ⟨.unknownConfig, none⟩)
      | some (g, job) =>
        if slot.stopReserved then (s, ⟨.reservationConflict, none⟩)
        else
          match job.phase with
          | .running =>
            let stopped := job.markStopping (nextTimestamp elapsed job.snapshot.timestamp)
            ({ s with arena := s.arena.insert g stopped }.pushDelivery [g] false,
              ⟨.stopRequested, some stopped.snapshot⟩)
          | .stopping => (s, ⟨.alreadyStopping, some job.snapshot⟩)
          | .completed => (s, ⟨.alreadyStopped, some job.snapshot⟩)

/-- The item and the reply for one captured job; `clock` is read for running ones. -/
def captureItem (clock : Generation → Int) (g : Generation) (job : Job) :
    StopAllItem × RuntimeTaskSnapshot :=
  if job.phase = .running then
    let timestamp := nextTimestamp (clock g) job.snapshot.timestamp
    (⟨g, job.generation, timestamp, true⟩,
      { job.snapshot with stopping := true, isFlagRun := false, timestamp })
  else (⟨g, job.generation, 0, false⟩, job.snapshot)

/-- Every current job, in the order of its config id: the sort of the code is
already done by the map. -/
def State.currents (s : State) : List (Generation × Job) :=
  s.jobs.toList.filterMap (fun entry => s.current? entry.2)

def prepareStopAll (s : State) (clock : Generation → Int) : State × PrepareStopAllResult :=
  if !s.accepting then (s, ⟨.ownerStopped, [], none⟩)
  else if s.stopAllReserved || s.activeReservations ≠ 0 then
    (s, ⟨.reservationConflict, [], none⟩)
  else
    let captured := s.currents.map (fun entry => captureItem clock entry.1 entry.2)
    let items := captured.map Prod.fst
    ({ s with
        stopAllReserved := true
        activeReservations := s.activeReservations + 1
        stopAlls := items :: s.stopAlls },
      ⟨if items.any (·.transitionRunning) then .stopRequested else .nothingToStop,
        captured.map Prod.snd, some items⟩)

def itemIsCurrent (s : State) (item : StopAllItem) (job : Job) : Bool :=
  sameGeneration s job.snapshot.configId item.job item.generation job

/-- Settles the items in turn and collects the jobs that have to be stopped. -/
def commitItems (clock : Generation → Int) (s : State) :
    List StopAllItem → State × List Generation
  | [] => (s, [])
  | item :: rest =>
    match s.arena.find? item.job with
    | none => commitItems clock s rest
    | some job =>
      let same := itemIsCurrent s item job
      let (t, delivered) :=
        commitItems clock
          { s with
            arena := s.arena.insert item.job
              (settleCommit same item.transitionRunning item.commitTimestamp
                (clock item.job) job) } rest
      (t, if stopsAtCommit same item.transitionRunning job then item.job :: delivered
        else delivered)

def abortItem (clock : Generation → Int) (s : State) (item : StopAllItem) : State :=
  match s.arena.find? item.job with
  | none => s
  | some job =>
    { s with
      arena := s.arena.insert item.job
        (settleAbort (itemIsCurrent s item job) (clock item.job) job) }

def releaseStopAll (s : State) (items : List StopAllItem) : State :=
  { s with
    stopAllReserved := false
    activeReservations := s.activeReservations - 1
    stopAlls := s.stopAlls.erase items }

def commitStopAll (s : State) (items : List StopAllItem) (clock : Generation → Int) : State :=
  if s.stopAllReserved = false ∨ s.activeReservations = 0 then s.terminate
  else
    let (settled, delivered) := commitItems clock s items
    (releaseStopAll settled items).pushDelivery delivered false

def abortStopAll (s : State) (items : List StopAllItem) (clock : Generation → Int) : State :=
  if s.stopAllReserved = false ∨ s.activeReservations = 0 then s.terminate
  else releaseStopAll (items.foldl (abortItem clock) s) items

/-- A stop or stop-all of the job is prepared, so its reports are held back. -/
def stagesProgress (s : State) (g : Generation) (job : Job) : Bool :=
  match s.jobs.find? job.snapshot.configId with
  | some slot => slot.current = some g && (slot.stopReserved || s.stopAllReserved)
  | none => false

/-- `report`, on a job that is still referenced. -/
def report (s : State) (g : Generation) (job : Job) (progress : RuntimeTaskProgress)
    (elapsed : Int) : State × Bool :=
  if !validProgress s.limits progress then (s, false)
  else if job.phase = .completed then (s, false)
  else if stagesProgress s g job then
    ({ s with arena := s.arena.insert g { job with pendingProgress := some progress } }, true)
  else ({ s with arena := s.arena.insert g (job.applyProgress progress elapsed) }, true)

/-- The gate section of `await_commit_and_run` after the preparation. -/
def Job.finishPreparing (job : Job) (prepared : Bool) : Job :=
  { job with
    preparationSucceeded := prepared
    preparationComplete := true
    worker := if prepared then .waiting else .exited }

/-- What `initiate_shutdown` does with the slot it comes to, none to go on with the
next one. -/
def sweepSlot (s : State) (slot : ConfigSlot) (elapsed : Int) : Option (State × Generation) :=
  let reserved : Option (State × Generation) :=
    slot.reserved.bind (fun r =>
      (s.arena.find? r).bind (fun job => if job.stopRequested then none else some (s, r)))
  match s.current? slot with
  | none => reserved
  | some (g, job) =>
    match job.phase with
    | .running =>
      let stopped := job.discardPendingProgress.markStopping
        (nextTimestamp elapsed job.snapshot.timestamp)
      some ({ s with arena := s.arena.insert g stopped }, g)
    | .stopping =>
      if job.stopRequested then reserved
      else some ({ s with arena := s.arena.insert g job.discardPendingProgress }, g)
    | .completed => reserved

end Baas.RuntimeTaskOwner
