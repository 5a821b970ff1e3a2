import Mathlib.Logic.Relation
import Baas.Runtime.TaskOwnerStep

/-! The invariants of the task owner, and once for every section what it can do from a
state that satisfies them. -/
namespace Baas.RuntimeTaskOwner

open Transition

/-- The worker has not passed the gate. -/
def Gated (worker : Worker) : Prop := worker = .preparing false ∨ worker = .waiting

/-- The three states of a worker whose preparation `prepare_start` waits for. -/
inductive Prepares : Job → Prop
  | busy {job : Job} : job.worker = .preparing true → job.preparationComplete = false →
      Prepares job
  | succeeded {job : Job} : job.worker = .waiting → job.preparationComplete = true →
      job.preparationSucceeded = true → Prepares job
  | failed {job : Job} : job.worker = .exited → job.preparationComplete = true →
      job.preparationSucceeded = false → Prepares job

/-- The life of a job: what its reservation, its commit, its phase, its gate and its
worker can be together. -/
inductive Stage : Option StartPoint → Option CommitPoint → Job → Prop
  | preparing {job : Job} (reply : RuntimeTaskSnapshot) : job.phase = .completed →
      job.gate = .pending → Prepares job → Stage (some (.preparing reply)) none job
  | held {job : Job} : job.phase = .completed → job.gate = .pending → Gated job.worker →
      Stage (some .held) none job
  | cancelling {job : Job} : job.phase = .completed → job.gate = .pending →
      Gated job.worker → Stage (some .cancelling) none job
  | joining {job : Job} : job.phase = .completed → job.gate = .cancelled →
      Gated job.worker ∨ job.worker = .exited → Stage (some .joining) none job
  | committing {job : Job} (point : CommitPoint) : job.phase ≠ .completed →
      job.gate = .pending → Gated job.worker → Stage none (some point) job
  | released {job : Job} : job.phase ≠ .completed → job.gate = .committed →
      Gated job.worker ∨ job.worker = .executing → Stage none none job
  | finished {job : Job} : job.phase = .completed → job.gate = .committed →
      job.worker = .exited → Stage none none job
  | dropped {job : Job} : job.phase = .completed → job.gate ≠ .committed →
      job.worker = .absent ∨ job.worker = .exited → Stage none none job

theorem Stage.of_commit {start : Option StartPoint} {point : CommitPoint} {job : Job}
    (stage : Stage start (some point) job) :
    start = none ∧ job.phase ≠ .completed ∧ job.gate = .pending ∧ Gated job.worker := by
  cases stage with
  | committing _ live gate gated => exact ⟨rfl, live, gate, gated⟩

/-- A job whose reservation is still out has never been public. -/
theorem Stage.of_start {point : StartPoint} {commit : Option CommitPoint} {job : Job}
    (stage : Stage (some point) commit job) : commit = none ∧ job.phase = .completed ∧
      (job.gate = .pending ∨ job.gate = .cancelled ∧ point = .joining) := by
  cases stage with
  | preparing _ phase gate _ => exact ⟨rfl, phase, .inl gate⟩
  | held phase gate _ => exact ⟨rfl, phase, .inl gate⟩
  | cancelling phase gate _ => exact ⟨rfl, phase, .inl gate⟩
  | joining phase gate _ => exact ⟨rfl, phase, .inr ⟨gate, rfl⟩⟩

/-- `g` is the current job of the config. -/
def State.IsCurrent (s : State) (configId : ConfigId) (g : Generation) : Prop :=
  ∃ slot, s.jobs.find? configId = some slot ∧ slot.current = some g

/-- The registry agrees with the reservations that are out. -/
structure Registry (s : State) : Prop where
  alive : s.terminated = false
  active : s.activeReservations = s.starts.size + s.stops.length + s.stopAlls.length
  capacity : s.jobs.size ≤ s.limits.maxConfigs
  occupied : ∀ configId slot, s.jobs.find? configId = some slot →
    slot.current.isSome ∨ slot.reserved.isSome ∨ slot.stopReserved = true
  oneGate : ∀ configId slot, s.jobs.find? configId = some slot →
    slot.reserved.isSome → slot.stopReserved = false
  startHeld : ∀ g point, s.starts.find? g = some point → ∃ job slot,
    s.arena.find? g = some job ∧ s.jobs.find? job.snapshot.configId = some slot ∧
      slot.reserved = some g
  reservedHeld : ∀ configId slot g, s.jobs.find? configId = some slot →
    slot.reserved = some g → ∃ point, s.starts.find? g = some point
  reservedKnown : ∀ configId slot g, s.jobs.find? configId = some slot →
    slot.reserved = some g → ∃ job, s.arena.find? g = some job ∧ job.snapshot.configId = configId
  stopHeld : ∀ r ∈ s.stops, ∃ slot, s.jobs.find? r.configId = some slot ∧
    slot.stopReserved = true
  gateHeld : ∀ configId slot, s.jobs.find? configId = some slot →
    slot.stopReserved = true → ∃ r ∈ s.stops, r.configId = configId
  stopsDistinct : (s.stops.map (·.configId)).Nodup
  stopAllHeld : s.stopAllReserved = true ↔ s.stopAlls ≠ []
  stopAllAlone : s.stopAlls ≠ [] →
    s.starts.size = 0 ∧ s.stops = [] ∧ s.stopAlls.length = 1
  currentKnown : ∀ configId slot g, s.jobs.find? configId = some slot →
    slot.current = some g → ∃ job, s.arena.find? g = some job ∧ job.snapshot.configId = configId
  liveCurrent : ∀ g job, s.arena.find? g = some job → job.phase ≠ .completed →
    s.IsCurrent job.snapshot.configId g
  reservedIdle : ∀ configId slot p job, s.jobs.find? configId = some slot →
    slot.reserved.isSome → slot.current = some p → s.arena.find? p = some job →
    job.phase = .completed
  fresh : ∀ g job, s.arena.find? g = some job →
    s.nextJobGeneration = 0 ∨ g < s.nextJobGeneration
  nextBounded : s.nextJobGeneration < wordRange

structure Invariant (s : State) : Prop where
  registry : Registry s
  staged : ∀ g job, s.arena.find? g = some job →
    Stage (s.starts.find? g) (s.commits.find? g) job
  commitKnown : ∀ g point, s.commits.find? g = some point → (s.arena.find? g).isSome

/-- What settling a stop can do to a job. `promised` are the timestamps of the stops
being committed for it. -/
inductive Settle (promised : Timestamp → Prop) : Job → Job → Prop
  | discard (job : Job) : Settle promised job job.discardPendingProgress
  | publish (job : Job) (elapsed : Int) : job.phase ≠ .completed →
      (job.phase = .stopping ∨ ∀ timestamp, ¬ promised timestamp) →
      Settle promised job (job.publishPendingProgress elapsed)
  | stop (job : Job) (timestamp : Timestamp) : job.phase = .running → promised timestamp →
      Settle promised job (job.markStopping timestamp).discardPendingProgress

/-- A job before and after any number of settlements. -/
inductive Settled (promised : Generation → Timestamp → Prop) (g : Generation) :
    Option Job → Option Job → Prop
  | none : Settled promised g none none
  | some {job job' : Job} : Relation.ReflTransGen (Settle (promised g)) job job' →
      Settled promised g (some job) (some job')

def noPromise (_ : Generation) (_ : Timestamp) : Prop := False

def StopReservation.promises (r : StopReservation) (g : Generation) (timestamp : Timestamp) :
    Prop :=
  r.job = some g ∧ r.transitionRunning = true ∧ r.commitTimestamp = timestamp

def promisesAll (items : List StopAllItem) (g : Generation) (timestamp : Timestamp) : Prop :=
  ∃ item ∈ items, item.job = g ∧ item.transitionRunning = true ∧
    item.commitTimestamp = timestamp

/-- The job was running and current when its stop was committed. -/
def StopsNow (s : State) (g : Generation) : Prop :=
  ∃ job, s.arena.find? g = some job ∧ job.phase = .running ∧
    s.IsCurrent job.snapshot.configId g

/-- What one section does to one job, with the calls it leaves behind. -/
inductive Touch (s : State) (g : Generation) (job : Job) :
    Op → Outcome → Job → List Call → Prop
  | finishPreparing (prepared : Bool) : canFinishPreparing prepared job = true →
      Touch s g job (.finishPreparing g prepared) .done (job.finishPreparing prepared) s.calls
  | enterBackend : job.worker = .waiting → job.gate = .committed →
      Touch s g job (.enterBackend g) .done { job with worker := .executing } s.calls
  | leaveGate : job.worker = .waiting → job.gate = .cancelled →
      Touch s g job (.leaveGate g) .done { job with worker := .exited } s.calls
  | complete (terminal : RuntimeTaskTerminal) (elapsed : Int) : job.worker = .executing →
      Touch s g job (.complete g terminal elapsed) .done (job.complete terminal elapsed) s.calls
  | publish (progress : RuntimeTaskProgress) (elapsed : Int) : job.phase ≠ .completed →
      stagesProgress s g job = false → Touch s g job (.report g progress elapsed)
        (.reported true) (job.applyProgress progress elapsed) s.calls
  | stage (progress : RuntimeTaskProgress) (elapsed : Int) : job.phase ≠ .completed →
      stagesProgress s g job = true → Touch s g job (.report g progress elapsed)
        (.reported true) { job with pendingProgress := some progress } s.calls
  | stopAfterShutdown (configId : ConfigId) (slot : ConfigSlot) (elapsed : Int) :
      s.accepting = false → s.stopAllReserved = false → s.jobs.find? configId = some slot →
      slot.current = some g → slot.stopReserved = false → job.phase = .running →
      Touch s g job (.requestStopAfterShutdown configId elapsed)
        (.stopRequested ⟨.stopRequested,
          some (job.markStopping (nextTimestamp elapsed job.snapshot.timestamp)).snapshot⟩)
        (job.markStopping (nextTimestamp elapsed job.snapshot.timestamp))
        (.deliver [g] false :: s.calls)
  | sweepRunning (configId : ConfigId) (elapsed : Int) : .sweep ∈ s.calls →
      s.IsCurrent configId g → job.phase = .running →
      Touch s g job (.sweep configId elapsed) .done
        (job.discardPendingProgress.markStopping (nextTimestamp elapsed job.snapshot.timestamp))
        (.deliver [g] true :: s.calls.erase .sweep)
  | sweepStopping (configId : ConfigId) (elapsed : Int) : .sweep ∈ s.calls →
      s.IsCurrent configId g → job.phase = .stopping →
      Touch s g job (.sweep configId elapsed) .done job.discardPendingProgress
        (.deliver [g] true :: s.calls.erase .sweep)
  | deliver (rest : List Generation) (sweeping : Bool) (calls : List Call) :
      .deliver (g :: rest) sweeping ∈ s.calls →
      (∀ targets more, .deliver targets more ∈ calls →
        (targets, more) = (rest, sweeping) ∨ .deliver targets more ∈ s.calls) →
      (.sweep ∈ calls → .sweep ∈ s.calls ∨ sweeping = true) →
      Touch s g job (.deliver g rest sweeping) .done { job with stopRequested := true } calls

/-- The start was given up after its job had been created. -/
def StartDecision.late (decision : StartDecision) : Bool :=
  decision = .threadStartFailed || decision = .preparationFailed

/-- Nothing was reserved, changed or handed over. -/
def Outcome.idle : Outcome → Bool
  | .blocked => true
  | .done | .preparing => false
  | .startPrepared result => result.reservation.isNone && !result.decision.late
  | .stopPrepared result => result.reservation.isNone
  | .stopAllPrepared result => result.reservation.isNone
  | .stopRequested result => result.decision ≠ .stopRequested
  | .reported accepted => !accepted

/-- The slot a new reservation takes: one that is there, or room for another. -/
inductive FreeSlot (s : State) (configId : ConfigId) : ConfigSlot → Prop
  | present {slot : ConfigSlot} : s.jobs.find? configId = some slot →
      slot.reserved = none → slot.stopReserved = false → FreeSlot s configId slot
  | added : s.jobs.find? configId = none → s.jobs.size < s.limits.maxConfigs →
      FreeSlot s configId {}

/-- The finished job a start replaces. -/
def Replaces (s : State) (slot : ConfigSlot) : Option Job → Prop
  | none => slot.current = none
  | some previous => ∃ p, slot.current = some p ∧ s.arena.find? p = some previous ∧
      previous.phase = .completed

/-- The job a start has just reserved. -/
def reservedJob (s : State) (request : RuntimeTaskRequest) (previous : Option Job)
    (elapsed : Int) : Job :=
  { snapshot := startSnapshot request previous elapsed
    generation := s.nextJobGeneration
    worker := .preparing request.preparedBackend }

def failedJob (s : State) (request : RuntimeTaskRequest) (previous : Option Job)
    (elapsed failElapsed : Int) : Job :=
  Job.setThreadStartFailure
    { snapshot := startSnapshot request previous elapsed, generation := s.nextJobGeneration }
    failElapsed

/-- Where a start that has created its worker goes on, and what it answers. -/
def startPoint (g : Generation) (request : RuntimeTaskRequest) (next : RuntimeTaskSnapshot) :
    StartPoint × Outcome :=
  if request.preparedBackend then (.preparing next, .preparing)
  else (.held, .startPrepared ⟨.started, some next, some g⟩)

def installedJob (s : State) (job : Job) (elapsed : Int) : Job :=
  if s.accepting then { job with phase := .running }
  else job.markStopping (nextTimestamp elapsed job.snapshot.timestamp)

/-- The jobs of a settled stop, and the calls it leaves. The captured jobs have nothing
staged any more, the others are left alone. -/
structure Resolution (s : State) (captured : Generation → Prop)
    (promised : Generation → Timestamp → Prop) (arena : OrderedMap Generation Job)
    (calls : List Call) : Prop where
  settled : ∀ g, Settled promised g (s.arena.find? g) (arena.find? g)
  cleared : ∀ g, captured g → ∀ job, arena.find? g = some job → job.pendingProgress = none
  others : ∀ g, ¬ captured g → arena.find? g = s.arena.find? g
  delivered : calls = s.calls ∨ ∃ targets, calls = .deliver targets false :: s.calls ∧
    ∀ g ∈ targets, StopsNow s g ∧ ∃ timestamp, promised g timestamp

def capturedItems (s : State) (clock : Generation → Int) : List StopAllItem :=
  s.currents.map (fun entry => (captureItem clock entry.1 entry.2).1)

/-- Everything a section can do. -/
inductive Effect (s : State) : Op → Outcome → State → Prop
  | idle (op : Op) (outcome : Outcome) : outcome.idle = true → Effect s op outcome s
  | touch (op : Op) (outcome : Outcome) (g : Generation) (job job' : Job)
      (calls : List Call) : s.arena.find? g = some job →
      Touch s g job op outcome job' calls →
      Effect s op outcome { s with arena := s.arena.insert g job', calls }
  | sweepReserved (configId : ConfigId) (elapsed : Int) (slot : ConfigSlot)
      (g : Generation) : .sweep ∈ s.calls → s.jobs.find? configId = some slot →
      slot.reserved = some g → Effect s (.sweep configId elapsed) .done
        { s with calls := .deliver [g] true :: s.calls.erase .sweep }
  | endSweep : Effect s .endSweep .done { s with calls := s.calls.erase .sweep }
  | close : Effect s .closeAdmission .done
      { s with accepting := false, calls := .sweep :: s.calls }
  | reserve (request : RuntimeTaskRequest) (publishThreadFailure : Bool) (elapsed : Int)
      (slot : ConfigSlot) (previous : Option Job) : s.accepting = true →
      s.stopAllReserved = false → FreeSlot s request.configId slot →
      Replaces s slot previous → s.nextJobGeneration ≠ 0 →
      Effect s (.prepareStart request publishThreadFailure elapsed .created)
        (startPoint s.nextJobGeneration request (startSnapshot request previous elapsed)).2
        { s with
          nextJobGeneration := bump s.nextJobGeneration
          arena := s.arena.insert s.nextJobGeneration
            (reservedJob s request previous elapsed)
          jobs := s.jobs.insert request.configId
            { slot with reserved := some s.nextJobGeneration }
          activeReservations := s.activeReservations + 1
          starts := s.starts.insert s.nextJobGeneration
            (startPoint s.nextJobGeneration request
              (startSnapshot request previous elapsed)).1 }
  | threadFailed (request : RuntimeTaskRequest) (publishThreadFailure : Bool)
      (elapsed failElapsed : Int) (slot : ConfigSlot) (previous : Option Job)
      (jobs : OrderedMap ConfigId ConfigSlot) (snapshot : RuntimeTaskSnapshot) :
      s.accepting = true → s.stopAllReserved = false → FreeSlot s request.configId slot →
      Replaces s slot previous → s.nextJobGeneration ≠ 0 →
      (publishThreadFailure = true ∧ jobs = s.jobs.insert request.configId
          { slot with current := some s.nextJobGeneration, reserved := none } ∨
        publishThreadFailure = false ∧ slot.current = none ∧
          jobs = s.jobs.erase request.configId ∨
        publishThreadFailure = false ∧ slot.current ≠ none ∧
          jobs = s.jobs.insert request.configId { slot with reserved := none }) →
      Effect s (.prepareStart request publishThreadFailure elapsed (.failed failElapsed))
        (.startPrepared ⟨.threadStartFailed, some snapshot, none⟩)
        { s with
          nextJobGeneration := bump s.nextJobGeneration
          arena := s.arena.insert s.nextJobGeneration
            (failedJob s request previous elapsed failElapsed)
          jobs }
  | prepared (g : Generation) (job : Job) (reply : RuntimeTaskSnapshot) :
      s.arena.find? g = some job → s.starts.find? g = some (.preparing reply) →
      job.preparationComplete = true → job.preparationSucceeded = true →
      Effect s (.finishPreparation g) (.startPrepared ⟨.started, some reply, some g⟩)
        { s with starts := s.starts.insert g .held }
  | dropped (op : Op) (outcome : Outcome) (g : Generation) (job : Job) (slot : ConfigSlot)
      (point : StartPoint) : s.arena.find? g = some job → s.starts.find? g = some point →
      s.jobs.find? job.snapshot.configId = some slot → slot.reserved = some g →
      (op = .finishPreparation g ∧ outcome = .startPrepared ⟨.preparationFailed, none, none⟩ ∧
          (∃ reply, point = .preparing reply) ∧ job.preparationComplete = true ∧
          job.preparationSucceeded = false ∨
        op = .finishCancel g ∧ outcome = .done ∧ point = .joining ∧ job.worker = .exited) →
      Effect s op outcome
        { s.releaseReserved job.snapshot.configId slot with starts := s.starts.erase g }
  | commit (g : Generation) (job : Job) (slot : ConfigSlot) (elapsed : Int) :
      s.arena.find? g = some job → s.starts.find? g = some .held →
      s.jobs.find? job.snapshot.configId = some slot → slot.reserved = some g →
      Effect s (.commitReservation g elapsed) .done
        { s with
          jobs := s.jobs.insert job.snapshot.configId
            { slot with current := some g, reserved := none }
          activeReservations := s.activeReservations - 1
          arena := s.arena.insert g (installedJob s job elapsed)
          starts := s.starts.erase g
          commits := s.commits.insert g (if s.accepting then .releasing else .delivering) }
  | deliverBeforeRelease (g : Generation) (job : Job) : s.arena.find? g = some job →
      s.commits.find? g = some .delivering →
      Effect s (.deliverBeforeRelease g) .done
        { s with
          commits := s.commits.insert g .releasing
          arena := s.arena.insert g { job with stopRequested := true } }
  | release (g : Generation) (job : Job) : s.arena.find? g = some job →
      s.commits.find? g = some .releasing → job.gate = .pending →
      Effect s (.releaseGate g) .done
        { s with
          commits := s.commits.erase g
          arena := s.arena.insert g { job with gate := .committed } }
  | cancel (g : Generation) (job : Job) : s.arena.find? g = some job →
      s.starts.find? g = some .held → Effect s (.cancelReservation g) .done
        { s with starts := s.starts.insert g .cancelling }
  | cancelGate (g : Generation) (job : Job) : s.arena.find? g = some job →
      s.starts.find? g = some .cancelling → job.gate = .pending →
      Effect s (.cancelGate g) .done
        { s with
          starts := s.starts.insert g .joining
          arena := s.arena.insert g { job with gate := .cancelled } }
  | reserveStop (configId : ConfigId) (elapsed : Int) (slot : ConfigSlot) :
      s.accepting = true → s.stopAllReserved = false → FreeSlot s configId slot →
      Effect s (.prepareStop configId elapsed)
        (.stopPrepared ⟨(captureStop configId elapsed (s.current? slot)).1,
          (captureStop configId elapsed (s.current? slot)).2.1,
          some (captureStop configId elapsed (s.current? slot)).2.2⟩)
        { s with
          jobs := s.jobs.insert configId { slot with stopReserved := true }
          activeReservations := s.activeReservations + 1
          stops := (captureStop configId elapsed (s.current? slot)).2.2 :: s.stops }
  | resolveStop (op : Op) (r : StopReservation) (elapsed : Int) (slot : ConfigSlot)
      (promised : Generation → Timestamp → Prop) (arena : OrderedMap Generation Job)
      (calls : List Call) : r ∈ s.stops → s.jobs.find? r.configId = some slot →
      slot.stopReserved = true →
      (op = .commitStop r elapsed ∧ promised = r.promises ∨
        op = .abortStop r elapsed ∧ promised = noPromise) →
      Resolution s (r.job = some ·) promised arena calls →
      Effect s op .done
        { s with
          jobs :=
            if slot.current.isNone && slot.reserved.isNone then s.jobs.erase r.configId
            else s.jobs.insert r.configId { slot with stopReserved := false }
          activeReservations := s.activeReservations - 1
          stops := s.stops.erase r
          arena
          calls }
  | reserveStopAll (clock : Generation → Int) : s.accepting = true →
      s.stopAllReserved = false → s.activeReservations = 0 →
      Effect s (.prepareStopAll clock) (.stopAllPrepared (prepareStopAll s clock).2)
        { s with
          stopAllReserved := true
          activeReservations := s.activeReservations + 1
          stopAlls := capturedItems s clock :: s.stopAlls }
  | resolveStopAll (op : Op) (items : List StopAllItem) (clock : Generation → Int)
      (promised : Generation → Timestamp → Prop) (arena : OrderedMap Generation Job)
      (calls : List Call) : items ∈ s.stopAlls →
      (op = .commitStopAll items clock ∧ promised = promisesAll items ∨
        op = .abortStopAll items clock ∧ promised = noPromise) →
      Resolution s (fun g => ∃ item ∈ items, item.job = g) promised arena calls →
      Effect s op .done
        { s with
          stopAllReserved := false
          activeReservations := s.activeReservations - 1
          stopAlls := s.stopAlls.erase items
          arena
          calls }

end Baas.RuntimeTaskOwner
