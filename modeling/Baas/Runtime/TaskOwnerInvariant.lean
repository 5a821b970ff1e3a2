import Baas.Runtime.TaskOwnerRegistry

/-! Every reachable task owner satisfies its invariants: the registry agrees with the
reservations that are out, and every job is at a point of its life. -/
namespace Baas.RuntimeTaskOwner

open Transition

theorem Stage.quiet {start : Option StartPoint} {commit : Option CommitPoint} {job job' : Job}
    (stage : Stage start commit job) (quiet : Quiet job job') : Stage start commit job' := by
  obtain ⟨_, _, worker, gate, complete, succeeded, final, _⟩ := quiet
  cases stage with
  | preparing reply phase pending prepares =>
    refine .preparing reply (final.mpr phase) (gate.trans pending) ?_
    cases prepares with
    | busy working unfinished => exact .busy (worker.trans working) (complete.trans unfinished)
    | succeeded waits finished well =>
      exact .succeeded (worker.trans waits) (complete.trans finished) (succeeded.trans well)
    | failed left finished badly =>
      exact .failed (worker.trans left) (complete.trans finished) (succeeded.trans badly)
  | held phase pending gated => exact .held (final.mpr phase) (gate.trans pending) (worker ▸ gated)
  | cancelling phase pending gated =>
    exact .cancelling (final.mpr phase) (gate.trans pending) (worker ▸ gated)
  | joining phase cancelled left =>
    exact .joining (final.mpr phase) (gate.trans cancelled) (worker ▸ left)
  | committing point live pending gated =>
    exact .committing point (mt final.mp live) (gate.trans pending) (worker ▸ gated)
  | released live committed runs =>
    exact .released (mt final.mp live) (gate.trans committed) (worker ▸ runs)
  | finished phase committed left =>
    exact .finished (final.mpr phase) (gate.trans committed) (worker.trans left)
  | dropped phase uncommitted left =>
    exact .dropped (final.mpr phase) (gate ▸ uncommitted) (worker ▸ left)

theorem Stage.finishPreparing {start : Option StartPoint} {commit : Option CommitPoint}
    {job : Job} {prepared : Bool} (stage : Stage start commit job)
    (ready : canFinishPreparing prepared job = true) :
    Stage start commit (job.finishPreparing prepared) := by
  unfold canFinishPreparing at ready
  have gated (gated : Gated job.worker) : Gated (job.finishPreparing prepared).worker := by
    rcases gated with same | same
    · rw [same] at ready
      exact .inr (if_pos (by simpa using ready))
    · rw [same] at ready; cases ready
  cases stage with
  | preparing reply phase pending prepares =>
    refine .preparing reply phase pending ?_
    cases prepares with
    | busy =>
      cases prepared with
      | true => exact .succeeded rfl rfl rfl
      | false => exact .failed rfl rfl rfl
    | succeeded waits _ _ => rw [waits] at ready; cases ready
    | failed left _ _ => rw [left] at ready; cases ready
  | held phase pending waits => exact .held phase pending (gated waits)
  | cancelling phase pending waits => exact .cancelling phase pending (gated waits)
  | joining phase cancelled left =>
    rcases left with waits | left
    · exact .joining phase cancelled (.inl (gated waits))
    · rw [left] at ready; cases ready
  | committing point live pending waits => exact .committing point live pending (gated waits)
  | released live committed runs =>
    rcases runs with waits | runs
    · exact .released live committed (.inl (gated waits))
    · rw [runs] at ready; cases ready
  | finished _ _ left => rw [left] at ready; cases ready
  | dropped _ _ left =>
    rcases left with left | left <;> rw [left] at ready <;> cases ready

/-- Only the worker of a committed job passes the open gate. -/
theorem Stage.enter {start : Option StartPoint} {commit : Option CommitPoint} {job : Job}
    (stage : Stage start commit job) (waits : job.worker = .waiting)
    (gate : job.gate = .committed) :
    start = none ∧ commit = none ∧ job.phase ≠ .completed := by
  cases stage with
  | released live _ _ => exact ⟨rfl, rfl, live⟩
  | finished _ _ left => cases waits.symm.trans left
  | preparing _ _ pending _ => cases gate.symm.trans pending
  | held _ pending _ => cases gate.symm.trans pending
  | cancelling _ pending _ => cases gate.symm.trans pending
  | joining _ cancelled _ => cases gate.symm.trans cancelled
  | committing _ _ pending _ => cases gate.symm.trans pending
  | dropped _ uncommitted _ => exact absurd gate uncommitted

theorem Stage.execute {start : Option StartPoint} {commit : Option CommitPoint} {job : Job}
    (stage : Stage start commit job) (executes : job.worker = .executing) :
    start = none ∧ commit = none ∧ job.phase ≠ .completed ∧ job.gate = .committed := by
  have noGate (gated : Gated job.worker) : False := by
    rcases gated with same | same <;> cases executes.symm.trans same
  cases stage with
  | released live gate _ => exact ⟨rfl, rfl, live, gate⟩
  | finished _ _ left => cases executes.symm.trans left
  | preparing _ _ _ prepares =>
    cases prepares with
    | busy same _ => cases executes.symm.trans same
    | succeeded same _ _ => cases executes.symm.trans same
    | failed same _ _ => cases executes.symm.trans same
  | held _ _ gated => exact (noGate gated).elim
  | cancelling _ _ gated => exact (noGate gated).elim
  | joining _ _ left =>
    rcases left with gated | left
    · exact (noGate gated).elim
    · cases executes.symm.trans left
  | committing _ _ _ gated => exact (noGate gated).elim
  | dropped _ _ left => rcases left with same | same <;> cases executes.symm.trans same

theorem Stage.leave {start : Option StartPoint} {commit : Option CommitPoint} {job : Job}
    (stage : Stage start commit job) (waits : job.worker = .waiting)
    (gate : job.gate = .cancelled) : Stage start commit { job with worker := .exited } := by
  cases stage with
  | joining phase cancelled _ => exact .joining phase cancelled (.inr rfl)
  | dropped _ _ left => rcases left with same | same <;> cases waits.symm.trans same
  | preparing _ _ pending _ => cases gate.symm.trans pending
  | held _ pending _ => cases gate.symm.trans pending
  | cancelling _ pending _ => cases gate.symm.trans pending
  | committing _ _ pending _ => cases gate.symm.trans pending
  | released _ committed _ => cases gate.symm.trans committed
  | finished _ committed _ => cases gate.symm.trans committed

theorem Stage.touch {s : State} {g : Generation} {job job' : Job} {op : Op}
    {outcome : Outcome} {calls : List Call} {start : Option StartPoint}
    {commit : Option CommitPoint} (stage : Stage start commit job)
    (touch : Touch s g job op outcome job' calls) : Stage start commit job' := by
  cases touch with
  | finishPreparing prepared ready => exact stage.finishPreparing ready
  | enterBackend waits gate =>
    obtain ⟨rfl, rfl, live⟩ := stage.enter waits gate
    exact .released live gate (.inr rfl)
  | leaveGate waits gate => exact stage.leave waits gate
  | complete terminal elapsed executes =>
    obtain ⟨rfl, rfl, _, gate⟩ := stage.execute executes
    exact .finished rfl gate rfl
  | publish progress elapsed _ _ => exact stage.quiet (quiet_apply job progress elapsed)
  | stage => exact stage.quiet ⟨rfl, rfl, rfl, rfl, rfl, rfl, .rfl, id⟩
  | stopAfterShutdown _ _ _ _ _ _ _ _ phase =>
    exact stage.quiet (quiet_stop (by rw [phase]; decide) _)
  | sweepRunning _ elapsed _ _ phase =>
    have live : job.discardPendingProgress.phase ≠ .completed := by
      show job.phase ≠ .completed
      rw [phase]
      decide
    exact stage.quiet ((quiet_discard job).trans (quiet_stop live _))
  | sweepStopping => exact stage.quiet (quiet_discard job)
  | deliver => exact stage.quiet ⟨rfl, rfl, rfl, rfl, rfl, rfl, .rfl, id⟩

/-- The lives of the jobs, and the commits that have yet to open a gate. -/
def Staged (s : State) : Prop :=
  (∀ g job, s.arena.find? g = some job → Stage (s.starts.find? g) (s.commits.find? g) job) ∧
    ∀ g point, s.commits.find? g = some point → (s.arena.find? g).isSome

theorem Invariant.split {s : State} : Invariant s ↔ Registry s ∧ Staged s :=
  ⟨fun inv => ⟨inv.registry, inv.staged, inv.commitKnown⟩, fun h => ⟨h.1, h.2.1, h.2.2⟩⟩

/-- One job, its reservation and its commit change; the others stay as they are. -/
theorem staged_insert {s : State} (staged : Staged s) (g : Generation) {job : Job}
    {starts : OrderedMap Generation StartPoint} {commits : OrderedMap Generation CommitPoint}
    (startsElse : ∀ g', g ≠ g' → starts.find? g' = s.starts.find? g')
    (commitsElse : ∀ g', g ≠ g' → commits.find? g' = s.commits.find? g')
    (stage : Stage (starts.find? g) (commits.find? g) job) :
    (∀ g' job', (s.arena.insert g job).find? g' = some job' →
      Stage (starts.find? g') (commits.find? g') job') ∧
      ∀ g' point, commits.find? g' = some point → ((s.arena.insert g job).find? g').isSome := by
  constructor
  · intro g' job' found
    rw [OrderedMap.find?_insert] at found
    split at found
    · rename_i same
      cases found
      exact same ▸ stage
    · rename_i other
      rw [startsElse g' other, commitsElse g' other]
      exact staged.1 g' job' found
  · intro g' point committed
    rw [OrderedMap.find?_insert]
    split
    · rfl
    · rename_i other
      exact staged.2 g' point (commitsElse g' other ▸ committed)

/-- As `staged_insert`, when the job itself stays as it is. -/
theorem staged_move {s : State} (staged : Staged s) {g : Generation} {job : Job}
    (found : s.arena.find? g = some job) {starts : OrderedMap Generation StartPoint}
    (startsElse : ∀ g', g ≠ g' → starts.find? g' = s.starts.find? g')
    (stage : Stage (starts.find? g) (s.commits.find? g) job) :
    Staged { s with starts } := by
  refine ⟨fun g' job' found' => ?_, staged.2⟩
  by_cases same : g = g'
  · subst same
    cases found.symm.trans found'
    exact stage
  · show Stage (starts.find? g') (s.commits.find? g') job'
    rw [startsElse g' same]
    exact staged.1 g' job' found'

theorem staged_of_settled {s : State} (staged : Staged s)
    {promised : Generation → Timestamp → Prop} {arena : OrderedMap Generation Job}
    (settled : ∀ g, Settled promised g (s.arena.find? g) (arena.find? g)) :
    (∀ g job, arena.find? g = some job → Stage (s.starts.find? g) (s.commits.find? g) job) ∧
      ∀ g point, s.commits.find? g = some point → (arena.find? g).isSome := by
  constructor
  · intro g job' found'
    have settled := settled g
    rw [found'] at settled
    generalize found : s.arena.find? g = before at settled
    cases settled with
    | some steps => exact (staged.1 g _ found).quiet (quiet_of_settles steps)
  · intro g point committed
    have known := staged.2 g point committed
    have settled := settled g
    generalize s.arena.find? g = before at settled known
    generalize arena.find? g = after at settled
    cases settled with
    | none => cases known
    | some _ => rfl

theorem new_commit {s : State} (inv : Invariant s) (unspent : s.nextJobGeneration ≠ 0) :
    s.starts.find? s.nextJobGeneration = none ∧ s.commits.find? s.nextJobGeneration = none := by
  have new := inv.registry.unallocated unspent
  constructor
  · cases held : s.starts.find? s.nextJobGeneration with
    | none => rfl
    | some point =>
      obtain ⟨job, _, found, _⟩ := inv.registry.startHeld _ _ held
      cases new.symm.trans found
  · cases held : s.commits.find? s.nextJobGeneration with
    | none => rfl
    | some point =>
      have known := inv.commitKnown _ _ held
      rw [new] at known
      cases known

theorem stage_reserved (s : State) (request : RuntimeTaskRequest) (previous : Option Job)
    (elapsed : Int) (next : RuntimeTaskSnapshot) :
    Stage (some (startPoint s.nextJobGeneration request next).1) none
      (reservedJob s request previous elapsed) := by
  unfold startPoint
  cases prepared : request.preparedBackend with
  | true =>
    exact .preparing next rfl rfl (.busy (by simp [reservedJob, prepared]) rfl)
  | false => exact .held rfl rfl (.inl (by simp [reservedJob, prepared]))

theorem stage_dropped {start : Option StartPoint} {point : StartPoint} {commit : Option CommitPoint}
    {job : Job} (stage : Stage start commit job) (held : start = some point)
    (done : (∃ reply, point = .preparing reply) ∧ job.preparationComplete = true ∧
        job.preparationSucceeded = false ∨ point = .joining ∧ job.worker = .exited) :
    commit = none ∧ Stage none none job := by
  subst held
  cases stage with
  | preparing reply phase pending prepares =>
    refine ⟨rfl, .dropped phase (by rw [pending]; decide) (.inr ?_)⟩
    rcases done with ⟨_, finished, badly⟩ | ⟨other, _⟩
    · cases prepares with
      | busy _ unfinished => cases finished.symm.trans unfinished
      | succeeded _ _ well => cases badly.symm.trans well
      | failed left _ _ => exact left
    · cases other
  | joining phase cancelled _ =>
    rcases done with ⟨⟨_, other⟩, _⟩ | ⟨_, left⟩
    · cases other
    · exact ⟨rfl, .dropped phase (by rw [cancelled]; decide) (.inr left)⟩
  | held => rcases done with ⟨⟨_, other⟩, _⟩ | ⟨other, _⟩ <;> cases other
  | cancelling => rcases done with ⟨⟨_, other⟩, _⟩ | ⟨other, _⟩ <;> cases other

theorem stage_prepared {start : Option StartPoint} {reply : RuntimeTaskSnapshot}
    {commit : Option CommitPoint} {job : Job} (stage : Stage start commit job)
    (held : start = some (.preparing reply)) (finished : job.preparationComplete = true)
    (well : job.preparationSucceeded = true) : Stage (some .held) commit job := by
  subst held
  cases stage with
  | preparing _ phase pending prepares =>
    refine .held phase pending (.inr ?_)
    cases prepares with
    | busy _ unfinished => cases finished.symm.trans unfinished
    | succeeded waits _ _ => exact waits
    | failed _ _ badly => cases well.symm.trans badly

theorem stage_committed {start : Option StartPoint} {commit : Option CommitPoint} {job : Job}
    (s : State) (elapsed : Int) (point : CommitPoint) (stage : Stage start commit job)
    (held : start = some .held) : Stage none (some point) (installedJob s job elapsed) := by
  subst held
  cases stage with
  | held _ pending gated =>
    unfold installedJob
    split
    · exact .committing point (by simp) pending gated
    · exact .committing point (by simp [Job.markStopping]) pending gated

theorem stage_cancelling {start : Option StartPoint} {commit : Option CommitPoint} {job : Job}
    (stage : Stage start commit job) (held : start = some .held) :
    Stage (some .cancelling) commit job := by
  subst held
  cases stage with
  | held phase pending gated => exact .cancelling phase pending gated

theorem stage_joining {start : Option StartPoint} {commit : Option CommitPoint} {job : Job}
    (stage : Stage start commit job) (held : start = some .cancelling) :
    Stage (some .joining) commit { job with gate := .cancelled } := by
  subst held
  cases stage with
  | cancelling phase _ gated => exact .joining phase rfl (.inl gated)

theorem stage_delivered {start : Option StartPoint} {commit : Option CommitPoint} {job : Job}
    {point : CommitPoint} (next : CommitPoint) (stage : Stage start commit job)
    (held : commit = some point) : Stage start (some next) { job with stopRequested := true } := by
  subst held
  cases stage with
  | committing _ live pending gated => exact .committing next live pending gated

theorem stage_released {start : Option StartPoint} {commit : Option CommitPoint} {job : Job}
    {point : CommitPoint} (stage : Stage start commit job) (held : commit = some point) :
    Stage start none { job with gate := .committed } := by
  subst held
  cases stage with
  | committing _ live _ gated => exact .released live rfl (.inl gated)

theorem staged_of_effect {s t : State} (inv : Invariant s) {op : Op} {outcome : Outcome}
    (effect : Effect s op outcome t) : Staged t := by
  obtain ⟨_, staged⟩ := Invariant.split.mp inv
  have keepStarts (g : Generation) : ∀ g', g ≠ g' → s.starts.find? g' = s.starts.find? g' :=
    fun _ _ => rfl
  have keepCommits (g : Generation) : ∀ g', g ≠ g' → s.commits.find? g' = s.commits.find? g' :=
    fun _ _ => rfl
  have putStart (g : Generation) (point : StartPoint) (g' : Generation) (other : g ≠ g') :
      (s.starts.insert g point).find? g' = s.starts.find? g' :=
    OrderedMap.find?_insert_ne _ _ other
  have putCommit (g : Generation) (point : CommitPoint) (g' : Generation) (other : g ≠ g') :
      (s.commits.insert g point).find? g' = s.commits.find? g' :=
    OrderedMap.find?_insert_ne _ _ other
  have dropStart (g g' : Generation) (other : g ≠ g') :
      (s.starts.erase g).find? g' = s.starts.find? g' := OrderedMap.find?_erase_ne _ other
  have dropCommit (g g' : Generation) (other : g ≠ g') :
      (s.commits.erase g).find? g' = s.commits.find? g' := OrderedMap.find?_erase_ne _ other
  cases effect with
  | idle => exact staged
  | touch op outcome g job job' calls found touch =>
    exact staged_insert staged g (keepStarts g) (keepCommits g)
      ((staged.1 g job found).touch touch)
  | sweepReserved => exact staged
  | endSweep => exact staged
  | close => exact staged
  | reserve request _ elapsed slot previous _ _ _ _ unspent =>
    refine staged_insert staged _ (putStart _ _) (keepCommits _) ?_
    rw [OrderedMap.find?_insert_self, (new_commit inv unspent).2]
    exact stage_reserved s request previous elapsed _
  | threadFailed request _ elapsed failElapsed slot previous jobs _ _ _ _ _ unspent _ =>
    refine staged_insert staged _ (keepStarts _) (keepCommits _) ?_
    rw [(new_commit inv unspent).1, (new_commit inv unspent).2]
    exact .dropped rfl (by simp [failedJob, Job.setThreadStartFailure]) (.inl rfl)
  | prepared g job reply found held finished well =>
    refine staged_move staged found (putStart g _) ?_
    rw [OrderedMap.find?_insert_self]
    exact stage_prepared (staged.1 g job found) held finished well
  | dropped op outcome g job slot point found held _ _ done =>
    have done : (∃ reply, point = .preparing reply) ∧ job.preparationComplete = true ∧
        job.preparationSucceeded = false ∨ point = .joining ∧ job.worker = .exited := by
      rcases done with ⟨_, _, done⟩ | ⟨_, _, done⟩
      · exact .inl done
      · exact .inr done
    obtain ⟨uncommitted, stage⟩ := stage_dropped (staged.1 g job found) held done
    refine staged_move staged found (dropStart g) ?_
    rw [OrderedMap.find?_erase_self, uncommitted]
    exact stage
  | commit g job slot elapsed found held _ _ =>
    refine staged_insert staged g (dropStart g) (putCommit g _) ?_
    rw [OrderedMap.find?_erase_self, OrderedMap.find?_insert_self]
    exact stage_committed s elapsed _ (staged.1 g job found) held
  | deliverBeforeRelease g job found held =>
    refine staged_insert staged g (keepStarts g) (putCommit g _) ?_
    rw [OrderedMap.find?_insert_self]
    exact stage_delivered .releasing (staged.1 g job found) held
  | release g job found held _ =>
    refine staged_insert staged g (keepStarts g) (dropCommit g) ?_
    rw [OrderedMap.find?_erase_self]
    exact stage_released (staged.1 g job found) held
  | cancel g job found held =>
    refine staged_move staged found (putStart g _) ?_
    rw [OrderedMap.find?_insert_self]
    exact stage_cancelling (staged.1 g job found) held
  | cancelGate g job found held _ =>
    refine staged_insert staged g (putStart g _) (keepCommits g) ?_
    rw [OrderedMap.find?_insert_self]
    exact stage_joining (staged.1 g job found) held
  | reserveStop => exact staged
  | resolveStop op r elapsed slot promised arena calls _ _ _ _ resolution =>
    exact staged_of_settled staged resolution.settled
  | reserveStopAll => exact staged
  | resolveStopAll op items clock promised arena calls _ _ resolution =>
    exact staged_of_settled staged resolution.settled

theorem invariant_of_effect {s t : State} (inv : Invariant s) {op : Op} {outcome : Outcome}
    (effect : Effect s op outcome t) : Invariant t :=
  Invariant.split.mpr ⟨registry_of_effect inv effect, staged_of_effect inv effect⟩

theorem invariant_initial (limits : RuntimeTaskLimits) : Invariant { limits } where
  registry := by
    refine ⟨rfl, rfl, Nat.zero_le _, ?_, ?_, ?_, ?_, ?_, ?_, ?_, ?_, ?_, ?_, ?_, ?_, ?_, ?_, ?_⟩ <;>
      simp [wordRange]
  staged g job found := by cases found
  commitKnown g point found := by cases found

theorem invariant_of_run {es : List (Event State Section)} {s : State}
    (run : Run ownerSystem es s) : Invariant s := by
  refine run.invariant Invariant ?_ ?_
  · rintro s ⟨limits, _, rfl⟩
    exact invariant_initial limits
  · intro s l t inv step
    exact invariant_of_effect inv (effect_of_step inv step)

/-- The reservations handed out, or being prepared or cancelled, and not resolved yet. -/
def unresolved (s : State) : Nat := s.starts.size + s.stops.length + s.stopAlls.length

/-- A start reservation is out for the config. -/
def StartReserved (s : State) (configId : ConfigId) (g : Generation) : Prop :=
  ∃ point job, s.starts.find? g = some point ∧ s.arena.find? g = some job ∧
    job.snapshot.configId = configId

/-- The generation is running or stopping for the config. -/
def Live (s : State) (configId : ConfigId) (g : Generation) : Prop :=
  ∃ job, s.arena.find? g = some job ∧ job.snapshot.configId = configId ∧
    job.phase ≠ .completed

structure RegistrySound (s : State) : Prop where
  active_eq_unresolved : s.activeReservations = unresolved s
  start_or_stop : ∀ configId g, StartReserved s configId g →
    ∀ r ∈ s.stops, r.configId ≠ configId
  one_start : ∀ configId g g', StartReserved s configId g → StartReserved s configId g' → g = g'
  one_stop : (s.stops.map (·.configId)).Nodup
  stop_all_alone : s.stopAllReserved = true → s.starts.size = 0 ∧ s.stops = [] ∧
    s.stopAlls.length = 1
  stop_all_held : s.stopAllReserved = false → s.stopAlls = []
  one_live : ∀ configId g g', Live s configId g → Live s configId g' → g = g'
  bounded : s.jobs.size ≤ s.limits.maxConfigs
  slot_used : ∀ configId slot, s.jobs.find? configId = some slot →
    slot.current ≠ none ∨ (∃ g, slot.reserved = some g ∧ StartReserved s configId g) ∨
      ∃ r ∈ s.stops, r.configId = configId
  never_terminated : s.terminated = false

theorem sound_of_invariant {s : State} (inv : Invariant s) : RegistrySound s := by
  have reg := inv.registry
  have reservedIn (configId : ConfigId) (g : Generation) (reserved : StartReserved s configId g) :
      ∃ slot, s.jobs.find? configId = some slot ∧ slot.reserved = some g := by
    obtain ⟨point, job, held, found, rfl⟩ := reserved
    exact reg.of_start found held
  have liveIn (configId : ConfigId) (g : Generation) (live : Live s configId g) :
      s.IsCurrent configId g := by
    obtain ⟨job, found, rfl, phase⟩ := live
    exact reg.liveCurrent g job found phase
  refine
    { active_eq_unresolved := reg.active
      start_or_stop := ?_
      one_start := ?_
      one_stop := reg.stopsDistinct
      stop_all_alone := fun held => reg.stopAllAlone (reg.stopAllHeld.mp held)
      stop_all_held := ?_
      one_live := ?_
      bounded := reg.capacity
      slot_used := ?_
      never_terminated := reg.alive }
  · intro configId g reserved r out same
    obtain ⟨slot, present, taken⟩ := reservedIn configId g reserved
    obtain ⟨slot', present', held⟩ := reg.stopHeld r out
    rw [same] at present'
    cases present.symm.trans present'
    cases (reg.oneGate configId slot present (by simp [taken])).symm.trans held
  · intro configId g g' reserved reserved'
    obtain ⟨slot, present, taken⟩ := reservedIn configId g reserved
    obtain ⟨slot', present', taken'⟩ := reservedIn configId g' reserved'
    cases present.symm.trans present'
    exact Option.some.inj (taken.symm.trans taken')
  · intro free
    by_contra out
    exact absurd (reg.stopAllHeld.mpr out) (by simp [free])
  · intro configId g g' live live'
    obtain ⟨slot, present, current⟩ := liveIn configId g live
    obtain ⟨slot', present', current'⟩ := liveIn configId g' live'
    cases present.symm.trans present'
    exact Option.some.inj (current.symm.trans current')
  · intro configId slot present
    rcases reg.occupied configId slot present with current | reserved | held
    · exact .inl (Option.isSome_iff_ne_none.mp current)
    · obtain ⟨g, taken⟩ := Option.isSome_iff_exists.mp reserved
      obtain ⟨point, held⟩ := reg.reservedHeld configId slot g present taken
      obtain ⟨job, found, config⟩ := reg.reservedKnown configId slot g present taken
      exact .inr (.inl ⟨g, taken, point, job, held, found, config⟩)
    · exact .inr (.inr (reg.gateHeld configId slot present held))

/-- Whatever order the callers, the workers and the stop callbacks run in. -/
theorem registry_sound {es : List (Event State Section)} {s : State}
    (run : Run ownerSystem es s) : RegistrySound s :=
  sound_of_invariant (invariant_of_run run)

def sampleRequest (configId : ConfigId) (preparedBackend : Bool) : RuntimeTaskRequest where
  configId
  runMode := [109]
  currentTask := none
  waitingTasks := []
  preparedBackend

/-- A config runs and has a stop prepared while a start of another prepares. -/
def sampleOps : List Op :=
  [.prepareStart (sampleRequest [97] false) false 5 .created, .commitReservation 1 6,
    .releaseGate 1, .finishPreparing 1 true, .enterBackend 1,
    .prepareStart (sampleRequest [98] true) false 7 .created, .prepareStop [97] 8,
    .closeAdmission]

theorem registry_sound_played :
    (play perform { limits := {} } sampleOps).2.activeReservations = 2 ∧
      RegistrySound (play perform { limits := {} } sampleOps).2 := by
  refine ⟨by decide, ?_⟩
  exact registry_sound (run_play perform_step sampleOps ⟨{}, by decide, rfl⟩)

end Baas.RuntimeTaskOwner
