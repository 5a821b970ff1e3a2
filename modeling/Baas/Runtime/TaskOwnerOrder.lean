import Baas.Runtime.TaskOwnerLifetime

/-! The order of the timestamps of one config. The public snapshot always moves to a later
one. A prepared stop hands out a timestamp ahead of it, which the terminal snapshot only
passes when the clock, or the public snapshot, already has. -/
namespace Baas.RuntimeTaskOwner

open Transition

theorem nextTimestamp_gt (elapsed : Int) {previous : Nat} (room : previous < jsonSafeIntegerMax) :
    previous < nextTimestamp elapsed previous := by
  unfold nextTimestamp
  split
  · assumption
  · exact Nat.lt_succ_self previous

theorem nextTimestamp_past (elapsed : Int) {previous : Nat} (room : previous < jsonSafeIntegerMax)
    (projected : Nat) : projected < nextTimestamp elapsed previous ↔
      projected ≤ previous ∨ projected < unixTimestampMs elapsed := by
  unfold nextTimestamp
  generalize unixTimestampMs elapsed = now
  change Nat at now
  split
  · rename_i ahead
    change previous < now at ahead
    omega
  · rename_i behind
    change ¬ previous < now at behind
    omega

theorem nextTimestamp_ge (elapsed : Int) {previous : Nat} (bounded : previous ≤ jsonSafeIntegerMax) :
    previous ≤ nextTimestamp elapsed previous := by
  rcases Nat.lt_or_eq_of_le bounded with room | rfl
  · exact Nat.le_of_lt (nextTimestamp_gt elapsed room)
  · unfold nextTimestamp
    split
    · exact Nat.le_of_lt (by assumption)
    · simp

theorem nextTimestamp_le (elapsed : Int) {previous : Nat} (room : previous < jsonSafeIntegerMax) :
    nextTimestamp elapsed previous ≤ jsonSafeIntegerMax := by
  unfold nextTimestamp
  split
  · unfold unixTimestampMs
    split
    · exact Nat.zero_le _
    · exact Nat.min_le_right _ _
  · exact room

/-- No timestamp has reached the largest number the clients can read. -/
def BelowCap (s : State) : Prop :=
  ∀ g job, s.arena.find? g = some job → job.snapshot.timestamp < jsonSafeIntegerMax

def Later (before after : RuntimeTaskSnapshot) : Prop :=
  after = before ∨ before.timestamp < after.timestamp

theorem Later.trans {a b c : RuntimeTaskSnapshot} (first : Later a b) (second : Later b c) :
    Later a c := by
  rcases first with rfl | first
  · exact second
  · rcases second with rfl | second
    · exact .inr first
    · exact .inr (Nat.lt_trans first second)

theorem Later.le {a b : RuntimeTaskSnapshot} (later : Later a b) : a.timestamp ≤ b.timestamp := by
  rcases later with rfl | later
  · exact Nat.le_refl _
  · exact Nat.le_of_lt later

/-- The timestamps a state promises, and those its reservations hold, are ahead of the
public ones. -/
structure Timed (s : State) : Prop where
  ahead : ∀ g timestamp, Promised s g timestamp → ∀ job, s.arena.find? g = some job →
    job.phase = .running → job.snapshot.timestamp < timestamp
  reserved : ∀ configId slot g p, s.jobs.find? configId = some slot →
    slot.reserved = some g → slot.current = some p → ∀ job previous,
    s.arena.find? g = some job → s.arena.find? p = some previous →
    previous.snapshot.timestamp < job.snapshot.timestamp
  replies : ∀ g reply, s.starts.find? g = some (.preparing reply) → ∀ job,
    s.arena.find? g = some job → job.snapshot = reply

/-- A prepared stop holds back the reports of the job it made a promise for. -/
theorem promised_stages {s : State} (reg : Registry s) (cap : Captured s) {g : Generation}
    {timestamp : Timestamp} (promised : Promised s g timestamp) {job : Job}
    (found : s.arena.find? g = some job) : stagesProgress s g job = true := by
  rw [stagesProgress_iff]
  rcases promised with ⟨r, out, names, _⟩ | ⟨items, out, item, member, rfl, _⟩
  · obtain ⟨slot, present, held⟩ := reg.stopHeld r out
    have current := (cap.stopCaptures r out slot present).trans names
    rw [reg.current_config ⟨slot, present, current⟩ found]
    exact ⟨slot, present, current, .inl held⟩
  · obtain ⟨_, configId, slot, present, current⟩ := cap.allCurrent items out item member
    rw [reg.current_config ⟨slot, present, current⟩ found]
    exact ⟨slot, present, current, .inr (reg.stopAllHeld.mpr (List.ne_nil_of_mem out))⟩

theorem promised_unreserved {s : State} (reg : Registry s) (cap : Captured s) {g : Generation}
    {timestamp : Timestamp} (promised : Promised s g timestamp) : s.starts.find? g = none := by
  cases held : s.starts.find? g with
  | none => rfl
  | some point =>
    obtain ⟨job, slot, found, present, reserved⟩ := reg.startHeld g point held
    obtain ⟨slot', present', _, gated⟩ :=
      stagesProgress_iff.mp (promised_stages reg cap promised found)
    cases present.symm.trans present'
    rw [reg.oneGate _ _ present (by simp [reserved]), calm_of_start reg held] at gated
    simp at gated

/-- A settlement leaves the snapshot, or moves it to a later one and has nothing more to
publish or to stop. -/
theorem settles_later {promised : Timestamp → Prop} {job job' : Job}
    (settles : Relation.ReflTransGen (Settle promised) job job')
    (room : job.snapshot.timestamp < jsonSafeIntegerMax)
    (ahead : job.phase = .running → ∀ timestamp, promised timestamp →
      job.snapshot.timestamp < timestamp) :
    job'.snapshot = job.snapshot ∨ job.snapshot.timestamp < job'.snapshot.timestamp ∧
      job'.pendingProgress = none ∧ (job'.phase ≠ .running ∨ ∀ timestamp, ¬ promised timestamp) := by
  induction settles with
  | refl => exact .inl rfl
  | @tail mid next steps settle ih =>
    have ran := (quiet_of_settles steps).ran
    cases settle with
    | discard =>
      rcases ih with same | ⟨later, _, rest⟩
      · exact .inl same
      · exact .inr ⟨later, rfl, rest⟩
    | publish elapsed live free =>
      have free' : mid.phase ≠ .running ∨ ∀ timestamp, ¬ promised timestamp :=
        free.imp_left (fun phase => by rw [phase]; decide)
      rcases ih with same | ⟨later, clear, rest⟩
      · cases pending : mid.pendingProgress with
        | none => rw [publish_of_clear pending]; exact .inl same
        | some progress =>
          refine .inr ⟨?_, publish_pending mid elapsed, ?_⟩
          · rw [← same]
            rw [← same] at room
            unfold Job.publishPendingProgress
            rw [pending]
            exact nextTimestamp_gt elapsed room
          · rw [(publish_frame mid elapsed).2.1]
            exact free'
      · rw [publish_of_clear clear]
        exact .inr ⟨later, clear, rest⟩
    | stop timestamp phase promise =>
      rcases ih with same | ⟨later, _, rest⟩
      · have stopped : (mid.markStopping timestamp).discardPendingProgress.phase ≠ .running := by
          simp [Job.markStopping, Job.discardPendingProgress]
        exact .inr ⟨ahead (ran phase) timestamp promise, rfl, .inl stopped⟩
      · rcases rest with stopped | free
        · exact absurd phase stopped
        · exact absurd promise (free timestamp)

theorem Touch.later {s : State} {g : Generation} {job job' : Job} {op : Op}
    {outcome : Outcome} {calls : List Call} (touch : Touch s g job op outcome job' calls)
    (room : job.snapshot.timestamp < jsonSafeIntegerMax) : Later job.snapshot job'.snapshot := by
  cases touch with
  | complete terminal elapsed _ => exact .inr (nextTimestamp_gt elapsed room)
  | publish progress elapsed _ _ => exact .inr (nextTimestamp_gt elapsed room)
  | stopAfterShutdown _ _ elapsed => exact .inr (nextTimestamp_gt elapsed room)
  | sweepRunning _ elapsed => exact .inr (nextTimestamp_gt elapsed room)
  | _ => exact .inl rfl

theorem installed_later (s : State) {job : Job} (elapsed : Int)
    (room : job.snapshot.timestamp < jsonSafeIntegerMax) :
    Later job.snapshot (installedJob s job elapsed).snapshot := by
  unfold installedJob
  split
  · exact .inl rfl
  · exact .inr (nextTimestamp_gt elapsed room)

/-- Whatever a section does to a job, its snapshot stays or moves to a later one. -/
theorem later_of_effect {s t : State} (inv : Invariant s) (timed : Timed s) (below : BelowCap s)
    {op : Op} {outcome : Outcome} (effect : Effect s op outcome t) {g : Generation} {job : Job}
    (found : s.arena.find? g = some job) :
    ∃ job', t.arena.find? g = some job' ∧ Later job.snapshot job'.snapshot := by
  obtain ⟨job', found', change⟩ := change_of_effect inv effect found
  refine ⟨job', found', ?_⟩
  have room := below g job found
  cases change with
  | same => exact .inl rfl
  | touched calls touch => exact touch.later room
  | settled promised sub _ _ _ steps =>
    have ahead (phase : job.phase = .running) (timestamp : Timestamp)
        (promise : promised timestamp) : job.snapshot.timestamp < timestamp :=
      timed.ahead g timestamp (sub timestamp promise) job found phase
    exact (settles_later steps room ahead).imp_right (·.1)
  | installed elapsed => exact installed_later s elapsed room
  | delivered => exact .inl rfl
  | released => exact .inl rfl
  | cancelled => exact .inl rfl

theorem captureStop_promises {configId : ConfigId} {elapsed : Int}
    {current : Option (Generation × Job)} {g : Generation} {timestamp : Timestamp}
    (promises : (captureStop configId elapsed current).2.2.promises g timestamp) :
    ∃ job, current = some (g, job) ∧ job.phase = .running ∧
      timestamp = nextTimestamp elapsed job.snapshot.timestamp := by
  obtain ⟨names, transition, same⟩ := promises
  obtain ⟨job, rfl, _⟩ := captureStop_generation names
  unfold captureStop at transition same
  cases phase : job.phase with
  | running =>
    simp only [phase] at same
    exact ⟨job, rfl, phase, same.symm⟩
  | stopping => simp [phase] at transition
  | completed => simp [phase] at transition

theorem captureItem_promises {clock : Generation → Int} {g : Generation} {job : Job}
    (transition : (captureItem clock g job).1.transitionRunning = true) :
    job.phase = .running ∧ (captureItem clock g job).1.commitTimestamp =
      nextTimestamp (clock g) job.snapshot.timestamp := by
  unfold captureItem at transition ⊢
  split at transition
  · rename_i phase
    simp only [phase, if_true, and_self]
  · cases transition

/-- Where a promise that is out after a section comes from. -/
theorem promised_of_effect {s t : State} (reg : Registry s) (cap : Captured s) {op : Op}
    {outcome : Outcome} (effect : Effect s op outcome t) {g : Generation}
    {timestamp : Timestamp} (promised : Promised t g timestamp) :
    (Promised s g timestamp ∧ ¬ (Resolves g op ∧ outcome = .done)) ∨
      ∃ elapsed job, s.arena.find? g = some job ∧ t.arena = s.arena ∧ job.phase = .running ∧
        timestamp = nextTimestamp elapsed job.snapshot.timestamp := by
  have plain (same : Promised s g timestamp) (keeps : ¬ (Resolves g op ∧ outcome = .done)) :
      (Promised s g timestamp ∧ ¬ (Resolves g op ∧ outcome = .done)) ∨
        ∃ elapsed job, s.arena.find? g = some job ∧ t.arena = s.arena ∧ job.phase = .running ∧
          timestamp = nextTimestamp elapsed job.snapshot.timestamp := .inl ⟨same, keeps⟩
  cases effect with
  | idle _ _ idle =>
    refine plain promised ?_
    rintro ⟨_, rfl⟩
    cases idle
  | touch _ _ g' job job' calls found touch =>
    refine plain promised ?_
    rintro ⟨resolves, _⟩
    cases touch <;> cases resolves
  | dropped _ _ _ _ _ _ _ _ _ _ done =>
    refine plain promised ?_
    rintro ⟨resolves, _⟩
    rcases done with ⟨rfl, _⟩ | ⟨rfl, _⟩ <;> cases resolves
  | reserveStop configId elapsed slot _ _ free =>
    rcases promised with ⟨r, out, promises⟩ | promised
    · rcases List.mem_cons.mp out with rfl | out
      · obtain ⟨job, current, phase, same⟩ := captureStop_promises promises
        exact .inr ⟨elapsed, job, (current?_eq_some.mp current).2, rfl, phase, same⟩
      · exact plain (.inl ⟨r, out, promises⟩) (fun h => nomatch h.1)
    · exact plain (.inr promised) (fun h => nomatch h.1)
  | reserveStopAll clock =>
    rcases promised with promised | ⟨items, out, item, member, names, transition, same⟩
    · exact plain (.inl promised) (fun h => nomatch h.1)
    · rcases List.mem_cons.mp out with rfl | out
      · obtain ⟨g', job, listed, rfl⟩ := mem_capturedItems.mp member
        rw [(captureItem_fst clock g' job).1] at names
        subst names
        obtain ⟨phase, timestamp⟩ := captureItem_promises transition
        exact .inr ⟨clock g', job, (mem_currents.mp listed).2, rfl, phase,
          same.symm.trans timestamp⟩
      · exact plain (.inr ⟨items, out, item, member, names, transition, same⟩)
          (fun h => nomatch h.1)
  | resolveStop op r elapsed slot _ arena calls out present held kind _ =>
    have idle : s.stopAlls = [] := (calm_iff reg).mp (calm_of_stop reg out)
    rcases promised with ⟨r', out', promises⟩ | ⟨items, out', _⟩
    · obtain ⟨out', other⟩ := (reg.other_stop out).mp out'
      refine plain (.inl ⟨r', out', promises⟩) ?_
      rintro ⟨resolves, _⟩
      -- two stops of the same job would be stops of the same config
      have names : r.job = some g := by
        rcases kind with ⟨rfl, _⟩ | ⟨rfl, _⟩ <;> cases resolves <;> assumption
      obtain ⟨slot', present', _⟩ := reg.stopHeld r' out'
      have current := (cap.stopCaptures r out slot present).trans names
      have current' := (cap.stopCaptures r' out' slot' present').trans promises.1
      obtain ⟨job, found, config⟩ := reg.currentKnown _ slot g present current
      have config' := reg.current_config ⟨slot', present', current'⟩ found
      exact other (config.symm.trans config')
    · have out' : items ∈ s.stopAlls := out'
      rw [idle] at out'
      cases out'
  | resolveStopAll op items clock _ arena calls out kind _ =>
    obtain ⟨_, noStop, one⟩ := reg.stopAllAlone (List.ne_nil_of_mem out)
    have empty : s.stopAlls.erase items = [] :=
      List.eq_nil_of_length_eq_zero (by rw [List.length_erase_of_mem out, one])
    rcases promised with ⟨r', out', _⟩ | ⟨items', out', _⟩
    · have out' : r' ∈ s.stops := out'
      rw [noStop] at out'
      cases out'
    · have out' : items' ∈ s.stopAlls.erase items := out'
      rw [empty] at out'
      cases out'
  | _ => exact plain promised (fun h => nomatch h.1)

/-- A promise stays ahead of the job while the job is running. -/
theorem ahead_of_effect {s t : State} (inv : Invariant s) (cap : Captured s) (timed : Timed s)
    (below : BelowCap s) {op : Op} {outcome : Outcome} (effect : Effect s op outcome t)
    (g : Generation) (timestamp : Timestamp) (promised : Promised t g timestamp) (job' : Job)
    (found' : t.arena.find? g = some job') (phase : job'.phase = .running) :
    job'.snapshot.timestamp < timestamp := by
  rcases promised_of_effect inv.registry cap effect promised with
    ⟨before, keeps⟩ | ⟨elapsed, job, found, same, _, rfl⟩
  · obtain ⟨job, found⟩ : ∃ job, s.arena.find? g = some job := by
      rcases before with ⟨r, out, names, _⟩ | ⟨items, out, item, member, rfl, _⟩
      · obtain ⟨slot, present, _⟩ := inv.registry.stopHeld r out
        have current := (cap.stopCaptures r out slot present).trans names
        obtain ⟨job, found, _⟩ := inv.registry.currentKnown _ slot g present current
        exact ⟨job, found⟩
      · obtain ⟨_, configId, slot, present, current⟩ := cap.allCurrent items out item member
        obtain ⟨job, found, _⟩ := inv.registry.currentKnown configId slot _ present current
        exact ⟨job, found⟩
    have stages := promised_stages inv.registry cap before found
    have free := promised_unreserved inv.registry cap before
    have kept := timed.ahead g timestamp before job found
    obtain ⟨next, found'', change⟩ := change_of_effect inv effect found
    cases found'.symm.trans found''
    cases change with
    | same => exact kept phase
    | touched calls touch =>
      cases touch with
      | publish _ _ _ direct => cases stages.symm.trans direct
      | complete => cases phase
      | stopAfterShutdown => cases phase
      | sweepRunning => cases phase
      | _ => exact kept phase
    | settled _ _ resolves done => exact absurd ⟨resolves, done⟩ keeps
    | installed _ _ _ held => cases held.symm.trans free
    | delivered => exact kept phase
    | released => exact kept phase
    | cancelled => exact kept phase
  · rw [same, found] at found'
    cases found'
    exact nextTimestamp_gt elapsed (below g job' found)

/-- The reserved and the current job of a slot after a section. -/
theorem reserved_of_effect {s t : State} {op : Op} {outcome : Outcome}
    (effect : Effect s op outcome t) {configId : ConfigId} {slot' : ConfigSlot}
    {g p : Generation} (present' : t.jobs.find? configId = some slot')
    (reserved : slot'.reserved = some g) (current : slot'.current = some p) :
    (∃ slot, s.jobs.find? configId = some slot ∧ slot.reserved = some g ∧
      slot.current = some p) ∨
      (s.nextJobGeneration ≠ 0 ∧ ∃ request previous elapsed, g = s.nextJobGeneration ∧
        s.arena.find? p = some previous ∧ t.arena = s.arena.insert g
          (reservedJob s request (some previous) elapsed)) := by
  have put {key : ConfigId} {new : ConfigSlot}
      (present' : (s.jobs.insert key new).find? configId = some slot')
      (same : configId = key → slot' = new → ∃ slot, s.jobs.find? key = some slot ∧
        slot.reserved = some g ∧ slot.current = some p) :
      ∃ slot, s.jobs.find? configId = some slot ∧ slot.reserved = some g ∧
        slot.current = some p := by
    rw [OrderedMap.find?_insert] at present'
    split at present'
    · rename_i here
      cases present'
      exact here ▸ same here.symm rfl
    · exact ⟨slot', present', reserved, current⟩
  have erased {key : ConfigId} (present' : (s.jobs.erase key).find? configId = some slot') :
      ∃ slot, s.jobs.find? configId = some slot ∧ slot.reserved = some g ∧
        slot.current = some p := by
    rw [OrderedMap.find?_erase] at present'
    split at present'
    · cases present'
    · exact ⟨slot', present', reserved, current⟩
  cases effect with
  | reserve request _ elapsed slot previous _ _ free replaces unspent =>
    have present' : (s.jobs.insert request.configId
        { slot with reserved := some s.nextJobGeneration }).find? configId = some slot' := present'
    rw [OrderedMap.find?_insert] at present'
    split at present'
    · cases present'
      have same : s.nextJobGeneration = g := Option.some.inj reserved
      have current : slot.current = some p := current
      cases previous with
      | none =>
        have absent : slot.current = none := replaces
        cases absent.symm.trans current
      | some previous =>
        obtain ⟨p', current', found, _⟩ := replaces
        cases current.symm.trans current'
        exact .inr ⟨unspent, request, previous, elapsed, same.symm, found, same ▸ rfl⟩
    · exact .inl ⟨slot', present', reserved, current⟩
  | threadFailed request _ elapsed failElapsed slot previous jobs _ _ _ free _ _ table =>
    have present' : jobs.find? configId = some slot' := present'
    rcases table with ⟨_, rfl⟩ | ⟨_, _, rfl⟩ | ⟨_, _, rfl⟩
    · exact .inl (put present' (fun _ same => by rw [same] at reserved; cases reserved))
    · exact .inl (erased present')
    · exact .inl (put present' (fun _ same => by rw [same] at reserved; cases reserved))
  | dropped op outcome g' job slot point _ _ _ _ _ =>
    have present' : (s.releaseReserved job.snapshot.configId slot).jobs.find? configId =
      some slot' := present'
    unfold State.releaseReserved at present'
    simp only at present'
    split at present'
    · exact .inl (erased present')
    · exact .inl (put present' (fun _ same => by rw [same] at reserved; cases reserved))
  | commit g' job slot elapsed _ _ _ _ =>
    exact .inl (put present' (fun _ same => by rw [same] at reserved; cases reserved))
  | reserveStop key elapsed slot _ _ free =>
    refine .inl (put present' (fun _ same => ?_))
    rw [same] at reserved current
    exact ⟨slot, free.current current, reserved, current⟩
  | resolveStop op r elapsed slot _ arena calls _ present _ _ _ =>
    rcases (find?_putBack s.jobs r.configId configId { slot with stopReserved := false } slot'
      _).mp present' with ⟨rfl, _, rfl⟩ | ⟨_, present'⟩
    · exact .inl ⟨slot, present, reserved, current⟩
    · exact .inl ⟨slot', present', reserved, current⟩
  | _ => exact .inl ⟨slot', present', reserved, current⟩

/-- A completed job keeps its snapshot unless its reservation is committed. -/
theorem snapshot_of_completed {s t : State} (inv : Invariant s) {op : Op} {outcome : Outcome}
    {g : Generation} {job job' : Job} (found : s.arena.find? g = some job)
    (phase : job.phase = .completed) (change : Change s t op outcome g job job') :
    job'.snapshot = job.snapshot ∨ s.starts.find? g = some .held ∧ job'.phase ≠ .completed := by
  cases change with
  | same => exact .inl rfl
  | touched calls touch => exact .inl (touch.final (inv.staged g job found) phase).2
  | settled _ _ _ _ _ steps => exact .inl (settle_over steps phase).2
  | installed elapsed _ _ held =>
    refine .inr ⟨held, ?_⟩
    unfold installedJob
    split <;> simp [Job.markStopping]
  | delivered => exact .inl rfl
  | released => exact .inl rfl
  | cancelled => exact .inl rfl

theorem reservedTimed_of_effect {s t : State} (inv : Invariant s) (timed : Timed s)
    (below : BelowCap s) {op : Op} {outcome : Outcome} (effect : Effect s op outcome t)
    (configId : ConfigId) (slot' : ConfigSlot) (g p : Generation)
    (present' : t.jobs.find? configId = some slot') (reserved : slot'.reserved = some g)
    (current : slot'.current = some p) (job' previous' : Job)
    (found' : t.arena.find? g = some job') (foundPrevious' : t.arena.find? p = some previous') :
    previous'.snapshot.timestamp < job'.snapshot.timestamp := by
  have inv' := invariant_of_effect inv effect
  rcases reserved_of_effect effect present' reserved current with
    ⟨slot, present, taken, here⟩ | ⟨unspent, request, previous, elapsed, rfl, found, arena⟩
  · obtain ⟨point, held⟩ := inv.registry.reservedHeld configId slot g present taken
    obtain ⟨job, _, found, _⟩ := inv.registry.startHeld g point held
    obtain ⟨previous, foundPrevious, config⟩ :=
      inv.registry.currentKnown configId slot p present here
    have order := timed.reserved configId slot g p present taken here job previous found
      foundPrevious
    have apart : p ≠ g := by
      rintro rfl
      cases found.symm.trans foundPrevious
      exact Nat.lt_irrefl _ order
    obtain ⟨next, found'', change⟩ := change_of_effect inv effect found
    cases found'.symm.trans found''
    obtain ⟨nextPrevious, foundPrevious'', changePrevious⟩ :=
      change_of_effect inv effect foundPrevious
    cases foundPrevious'.symm.trans foundPrevious''
    have stage := inv.staged g job found
    rw [held] at stage
    have idle := inv.registry.reservedIdle configId slot p previous present (by simp [taken])
      here foundPrevious
    have sameJob : job'.snapshot = job.snapshot := by
      rcases snapshot_of_completed inv found stage.of_start.2.1 change with same | ⟨_, live⟩
      · exact same
      · obtain ⟨point', held'⟩ := inv'.registry.reservedHeld configId slot' g present' reserved
        have stage' := inv'.staged g job' found'
        rw [held'] at stage'
        exact absurd stage'.of_start.2.1 live
    have samePrevious : previous'.snapshot = previous.snapshot := by
      rcases snapshot_of_completed inv foundPrevious idle changePrevious with same | ⟨held, _⟩
      · exact same
      · obtain ⟨job'', slot'', found'', present'', reserved''⟩ :=
          inv.registry.startHeld p _ held
        cases foundPrevious.symm.trans found''
        rw [config, present] at present''
        cases present''
        exact absurd (Option.some.inj (reserved''.symm.trans taken)) apart
    rw [sameJob, samePrevious]
    exact order
  · have old : t.arena.find? p = some previous := by
      rw [arena]
      exact inv.registry.known unspent found _
    cases foundPrevious'.symm.trans old
    rw [arena, OrderedMap.find?_insert_self] at found'
    cases found'
    exact nextTimestamp_gt elapsed (below p previous' found)

theorem preparing_of_effect {s t : State} {op : Op} {outcome : Outcome}
    (effect : Effect s op outcome t) {g : Generation} {reply : RuntimeTaskSnapshot}
    (held : t.starts.find? g = some (.preparing reply)) :
    s.starts.find? g = some (.preparing reply) ∨
      ∃ job, t.arena.find? g = some job ∧ job.snapshot = reply := by
  have put {g' : Generation} {point : StartPoint}
      (held : (s.starts.insert g' point).find? g = some (.preparing reply))
      (other : point ≠ .preparing reply) : s.starts.find? g = some (.preparing reply) := by
    rw [OrderedMap.find?_insert] at held
    split at held
    · exact absurd (Option.some.inj held) other
    · exact held
  have erased {g' : Generation} (held : (s.starts.erase g').find? g = some (.preparing reply)) :
      s.starts.find? g = some (.preparing reply) := ((find?_starts_erase s g' g _).mp held).2
  cases effect with
  | reserve request _ elapsed slot previous _ _ _ _ _ =>
    have held : (s.starts.insert s.nextJobGeneration (startPoint s.nextJobGeneration request
      (startSnapshot request previous elapsed)).1).find? g = some (.preparing reply) := held
    rw [OrderedMap.find?_insert] at held
    split at held
    · rename_i here
      refine .inr ⟨_, by rw [← here]; exact OrderedMap.find?_insert_self _ _ _, ?_⟩
      unfold startPoint at held
      split at held
      · cases held
        rfl
      · cases held
    · exact .inl held
  | prepared => exact .inl (put held (by simp))
  | dropped => exact .inl (erased held)
  | commit => exact .inl (erased held)
  | cancel => exact .inl (put held (by simp))
  | cancelGate => exact .inl (put held (by simp))
  | _ => exact .inl held

theorem replies_of_effect {s t : State} (inv : Invariant s) (timed : Timed s) {op : Op}
    {outcome : Outcome} (effect : Effect s op outcome t) (g : Generation)
    (reply : RuntimeTaskSnapshot) (held' : t.starts.find? g = some (.preparing reply))
    (job' : Job) (found' : t.arena.find? g = some job') : job'.snapshot = reply := by
  rcases preparing_of_effect effect held' with held | ⟨job, found, same⟩
  · obtain ⟨job, _, found, _⟩ := inv.registry.startHeld g _ held
    have stage := inv.staged g job found
    rw [held] at stage
    obtain ⟨next, found'', change⟩ := change_of_effect inv effect found
    cases found'.symm.trans found''
    rcases snapshot_of_completed inv found stage.of_start.2.1 change with same | ⟨ready, _⟩
    · exact same.trans (timed.replies g reply held job found)
    · cases held.symm.trans ready
  · cases found.symm.trans found'
    exact same

theorem timed_of_effect {s t : State} (inv : Invariant s) (cap : Captured s) (timed : Timed s)
    (below : BelowCap s) {op : Op} {outcome : Outcome} (effect : Effect s op outcome t) :
    Timed t where
  ahead := ahead_of_effect inv cap timed below effect
  reserved := reservedTimed_of_effect inv timed below effect
  replies := replies_of_effect inv timed effect

theorem timed_initial (limits : RuntimeTaskLimits) : Timed { limits } where
  ahead _ _ _ _ found := by cases found
  reserved _ _ _ _ present := by cases present
  replies _ _ held := by cases held

theorem timed_of_run {es : History} {s : State} (run : Run ownerSystem es s)
    (below : ∀ e ∈ es, BelowCap e.source) : Invariant s ∧ Captured s ∧ Timed s := by
  refine run.invariant_while (fun e => BelowCap e.source)
    (fun s => Invariant s ∧ Captured s ∧ Timed s) ?_ ?_ below
  · rintro s ⟨limits, _, rfl⟩
    exact ⟨invariant_initial limits, captured_initial limits, timed_initial limits⟩
  · rintro s l t ⟨inv, cap, timed⟩ step below
    have effect := effect_of_step inv step
    exact ⟨invariant_of_effect inv effect, captured_of_effect inv cap effect,
      timed_of_effect inv cap timed below effect⟩

/-- What a reader of the config sees. -/
def Public (s : State) (configId : ConfigId) (snapshot : RuntimeTaskSnapshot) : Prop :=
  ∃ g job, s.IsCurrent configId g ∧ s.arena.find? g = some job ∧ job.snapshot = snapshot

theorem public_unique {s : State} {configId : ConfigId} {a b : RuntimeTaskSnapshot}
    (first : Public s configId a) (second : Public s configId b) : a = b := by
  obtain ⟨g, job, current, found, rfl⟩ := first
  obtain ⟨g', job', current', found', rfl⟩ := second
  cases isCurrent_unique current current'
  cases found.symm.trans found'
  rfl

/-- The current job of a config stays, or makes room for the one that was reserved. -/
theorem current_of_effect {s t : State} (timed : Timed s) (below : BelowCap s) {op : Op}
    {outcome : Outcome} (effect : Effect s op outcome t) {configId : ConfigId} {p : Generation}
    (current : s.IsCurrent configId p) {previous : Job} (found : s.arena.find? p = some previous) :
    t.IsCurrent configId p ∨ ∃ snapshot, Public t configId snapshot ∧
      previous.snapshot.timestamp < snapshot.timestamp := by
  obtain ⟨slot, present, here⟩ := current
  have put {key : ConfigId} {new : ConfigSlot} {jobs : OrderedMap ConfigId ConfigSlot}
      (table : jobs = s.jobs.insert key new) (same : key = configId → new.current = some p) :
      ∃ slot, jobs.find? configId = some slot ∧ slot.current = some p := by
    rw [table, OrderedMap.find?_insert]
    split
    · rename_i here
      exact ⟨new, rfl, same here⟩
    · exact ⟨slot, present, here⟩
  have erased {key : ConfigId} {jobs : OrderedMap ConfigId ConfigSlot}
      (table : jobs = s.jobs.erase key) (other : key ≠ configId) :
      ∃ slot, jobs.find? configId = some slot ∧ slot.current = some p := by
    rw [table, OrderedMap.find?_erase_ne _ other]
    exact ⟨slot, present, here⟩
  have free {key : ConfigId} {slot' : ConfigSlot} (free : FreeSlot s key slot')
      (same : key = configId) : slot' = slot := (free.unique (same ▸ present)).symm
  cases effect with
  | reserve request _ elapsed slot' previous' _ _ free' _ _ =>
    refine .inl (put rfl (fun same => ?_))
    rw [free free' same]
    exact here
  | threadFailed request _ elapsed failElapsed slot' previous' jobs _ _ _ free' replaces _ table =>
    rcases table with ⟨_, table⟩ | ⟨_, empty, table⟩ | ⟨_, _, table⟩
    · by_cases same : request.configId = configId
      · cases free free' same
        have order : previous.snapshot.timestamp <
            (failedJob s request previous' elapsed failElapsed).snapshot.timestamp := by
          cases previous' with
          | none => cases here.symm.trans replaces
          | some previous' =>
            obtain ⟨p', here', found', _⟩ := replaces
            cases here.symm.trans here'
            cases found.symm.trans found'
            have room := below p previous found
            exact Nat.lt_of_lt_of_le (nextTimestamp_gt elapsed room)
              (nextTimestamp_ge failElapsed (nextTimestamp_le elapsed room))
        refine .inr ⟨_, ⟨s.nextJobGeneration, _, ⟨⟨some s.nextJobGeneration, none, slot.stopReserved⟩,
          ?_, rfl⟩,
          OrderedMap.find?_insert_self _ _ _, rfl⟩, order⟩
        rw [table, same]
        exact OrderedMap.find?_insert_self _ _ _
      · exact .inl (put table (fun same' => absurd same' same))
    · refine .inl (erased table (fun same => ?_))
      cases free free' same
      cases here.symm.trans empty
    · refine .inl (put table (fun same => ?_))
      rw [free free' same]
      exact here
  | dropped op outcome g job slot' point _ _ present' _ _ =>
    refine .inl ?_
    have same (same : job.snapshot.configId = configId) : slot' = slot :=
      Option.some.inj (present'.symm.trans (same ▸ present))
    show ∃ slot, (s.releaseReserved job.snapshot.configId slot').jobs.find? configId = some slot ∧
      slot.current = some p
    unfold State.releaseReserved
    simp only
    split
    · rename_i empty
      refine erased rfl (fun key => ?_)
      cases same key
      rw [here] at empty
      cases empty
    · refine put rfl (fun key => ?_)
      rw [same key]
      exact here
  | commit g job slot' elapsed found' _ present' reserved =>
    by_cases same : job.snapshot.configId = configId
    · cases present'.symm.trans (same ▸ present)
      have order := timed.reserved configId _ g p present reserved here job previous found' found
      have later := (installed_later s elapsed (below g job found')).le
      refine .inr ⟨_, ⟨g, _, ⟨⟨some g, none, slot.stopReserved⟩, ?_, rfl⟩,
        OrderedMap.find?_insert_self _ _ _, rfl⟩,
        Nat.lt_of_lt_of_le order later⟩
      rw [same]
      exact OrderedMap.find?_insert_self _ _ _
    · exact .inl (put rfl (fun same' => absurd same' same))
  | reserveStop key elapsed slot' _ _ free' =>
    refine .inl (put rfl (fun same => ?_))
    rw [free free' same]
    exact here
  | resolveStop op r elapsed slot' _ arena calls _ present' _ _ _ =>
    have putBack := fun found => find?_putBack s.jobs r.configId configId
      { slot' with stopReserved := false } found (slot'.current.isNone && slot'.reserved.isNone)
    by_cases same : configId = r.configId
    · cases present'.symm.trans (same ▸ present)
      exact .inl ⟨_, (putBack _).mpr (.inl ⟨same, by simp [here], rfl⟩), here⟩
    · exact .inl ⟨slot, (putBack slot).mpr (.inr ⟨same, present⟩), here⟩
  | _ => exact .inl ⟨slot, present, here⟩

theorem public_of_effect {s t : State} (inv : Invariant s) (timed : Timed s) (below : BelowCap s)
    {op : Op} {outcome : Outcome} (effect : Effect s op outcome t) {configId : ConfigId}
    {snapshot : RuntimeTaskSnapshot} (shown : Public s configId snapshot) :
    ∃ next, Public t configId next ∧ Later snapshot next := by
  obtain ⟨p, previous, current, found, rfl⟩ := shown
  rcases current_of_effect timed below effect current found with current' | ⟨next, shown, order⟩
  · obtain ⟨next, found', later⟩ := later_of_effect inv timed below effect found
    exact ⟨next.snapshot, ⟨p, next, current', found', rfl⟩, later⟩
  · exact ⟨next, shown, .inr order⟩

/-- A public snapshot of an earlier state of the run, seen from the last one. -/
theorem public_of_run {es : History} {s : State} (run : Run ownerSystem es s)
    (below : ∀ e ∈ es, BelowCap e.source) {e : Event State Section} (member : e ∈ es)
    {configId : ConfigId} {snapshot : RuntimeTaskSnapshot}
    (shown : Public e.target configId snapshot) :
    ∃ next, Public s configId next ∧ Later snapshot next := by
  induction run with
  | start _ => cases member
  | @step es s t l prior step ih =>
    have before : ∀ e ∈ es, BelowCap e.source :=
      fun e member => below e (List.mem_append_left _ member)
    obtain ⟨inv, _, timed⟩ := timed_of_run prior before
    have now : BelowCap s := below _ (List.mem_append_right _ (List.mem_singleton_self _))
    rcases List.mem_append.mp member with old | new
    · obtain ⟨mid, shown', later⟩ := ih before old
      obtain ⟨next, shown'', later'⟩ :=
        public_of_effect inv timed now (effect_of_step inv step) shown'
      exact ⟨next, shown'', later.trans later'⟩
    · cases List.mem_singleton.mp new
      exact ⟨snapshot, shown, .inl rfl⟩

/-- The generation ended by itself. -/
def Ended (g : Generation) (es : History) : Prop :=
  ∃ e ∈ es, ∃ terminal elapsed, e.label = ⟨.complete g terminal elapsed, .done⟩

/-- A prepared stop or stop-all that handed out the timestamp has been committed. -/
def CommittedReply (es : History) (g : Generation) (timestamp : Timestamp) : Prop :=
  ∃ e ∈ es, (∃ r elapsed, e.label = ⟨.commitStop r elapsed, .done⟩ ∧ r.promises g timestamp) ∨
    ∃ items clock, e.label = ⟨.commitStopAll items clock, .done⟩ ∧ promisesAll items g timestamp

/-- A running or stopping snapshot of the generation that callers could see or were given:
a public one, which is also what the refused calls answer, or the reply of its start. -/
inductive Seen (es : History) (g : Generation) : Timestamp → Prop
  | shown (e : Event State Section) (job : Job) : e ∈ es → e.source.arena.find? g = some job →
      job.phase ≠ .completed → Seen es g job.snapshot.timestamp
  | started (e : Event State Section) (snapshot : RuntimeTaskSnapshot) : e ∈ es →
      e.label.outcome = .startPrepared ⟨.started, some snapshot, some g⟩ →
      Seen es g snapshot.timestamp

structure Ordered (es : History) (s : State) : Prop where
  /-- The public snapshot of a config is an earlier one or carries a later timestamp. -/
  increasing : ∀ e ∈ es, ∀ configId earlier now, Public e.target configId earlier →
    Public s configId now → Later earlier now
  /-- The terminal snapshot of a generation is later than all that came before it. -/
  terminalLast : ∀ g, Ended g es → ∀ job, s.arena.find? g = some job → ∀ timestamp,
    Seen es g timestamp ∨ CommittedReply es g timestamp → timestamp < job.snapshot.timestamp

/-- Whenever a generation ends, the clock or the public snapshot has passed what the
stops that get committed have promised for it. -/
def Outpaced (es : History) : Prop :=
  ∀ e ∈ es, ∀ g terminal elapsed, e.label = ⟨.complete g terminal elapsed, .done⟩ →
    ∀ job, e.source.arena.find? g = some job → ∀ projected, CommittedReply es g projected →
      projected ≤ job.snapshot.timestamp ∨ projected < unixTimestampMs elapsed

theorem complete_of_effect {s t : State} (inv : Invariant s) {g : Generation}
    {terminal : RuntimeTaskTerminal} {elapsed : Int}
    (effect : Effect s (.complete g terminal elapsed) .done t) :
    ∃ job, s.arena.find? g = some job ∧ job.phase ≠ .completed ∧
      t.arena.find? g = some (job.complete terminal elapsed) ∧
      Over t g (job.complete terminal elapsed) := by
  cases effect with
  | idle _ _ idle => cases idle
  | touch _ _ g' job next calls found touch =>
    cases touch with
    | complete _ _ executes =>
      obtain ⟨free, _, live, _⟩ := (inv.staged g job found).execute executes
      have found' := OrderedMap.find?_insert_self s.arena g (job.complete terminal elapsed)
      exact ⟨job, found, live, found', found', rfl, free⟩
  | dropped _ _ _ _ _ _ _ _ _ _ done => rcases done with ⟨h, _⟩ | ⟨h, _⟩ <;> cases h
  | resolveStop _ _ _ _ _ _ _ _ _ _ kind _ => rcases kind with ⟨h, _⟩ | ⟨h, _⟩ <;> cases h
  | resolveStopAll _ _ _ _ _ _ _ kind _ => rcases kind with ⟨h, _⟩ | ⟨h, _⟩ <;> cases h

/-- The terminal snapshot as it still is at the end of the run. -/
theorem terminal_of_run {es : History} {s : State} (run : Run ownerSystem es s)
    {e : Event State Section} (member : e ∈ es) {g : Generation}
    {terminal : RuntimeTaskTerminal} {elapsed : Int}
    (ends : e.label = ⟨.complete g terminal elapsed, .done⟩) :
    ∃ job job', e.source.arena.find? g = some job ∧ Over s g job' ∧
      job'.snapshot.timestamp = nextTimestamp elapsed job.snapshot.timestamp := by
  obtain ⟨inv, effect⟩ := effect_of_mem run member
  rw [ends] at effect
  obtain ⟨job, found, _, _, final⟩ := complete_of_effect inv effect
  obtain ⟨job', final', same⟩ := frozen_of_run run member final
  exact ⟨job, job', found, final', by rw [same]; rfl⟩

/-- The snapshot a start answers is that of the job it has reserved. -/
theorem started_of_effect {s t : State} (inv : Invariant s) (timed : Timed s) {op : Op}
    {outcome : Outcome} (effect : Effect s op outcome t) {g : Generation}
    {snapshot : RuntimeTaskSnapshot}
    (started : outcome = .startPrepared ⟨.started, some snapshot, some g⟩) :
    (∃ job, t.arena.find? g = some job ∧ job.snapshot = snapshot) ∧ ¬ ∃ job, Over s g job := by
  cases effect with
  | idle _ _ idle => rw [started] at idle; cases idle
  | touch _ _ g' job next calls found touch => cases touch <;> cases started
  | reserve request _ elapsed slot previous _ _ _ _ unspent =>
    unfold startPoint at started
    split at started
    · cases started
    · cases started
      refine ⟨⟨_, OrderedMap.find?_insert_self _ _ _, rfl⟩, ?_⟩
      rintro ⟨job, found, _⟩
      cases (inv.registry.unallocated unspent).symm.trans found
  | threadFailed => cases started
  | prepared g' job reply found held =>
    cases started
    refine ⟨⟨job, found, timed.replies _ snapshot held job found⟩, ?_⟩
    rintro ⟨_, _, _, free⟩
    cases held.symm.trans free
  | dropped _ _ _ _ _ _ _ _ _ _ done =>
    rcases done with ⟨_, rfl, _⟩ | ⟨_, rfl, _⟩ <;> cases started
  | _ => cases started

theorem ended_over {es : History} {s : State} (run : Run ownerSystem es s) {g : Generation}
    (ended : Ended g es) : ∃ job, Over s g job := by
  obtain ⟨e, member, terminal, elapsed, ends⟩ := ended
  obtain ⟨_, job', _, final, _⟩ := terminal_of_run run member ends
  exact ⟨job', final⟩

/-- What was seen of a generation is not ahead of it, and behind its terminal snapshot. -/
theorem seen_of_run {es : History} {s : State} (run : Run ownerSystem es s)
    (below : ∀ e ∈ es, BelowCap e.source) {g : Generation} {timestamp : Timestamp}
    (seen : Seen es g timestamp) : ∃ job, s.arena.find? g = some job ∧
      timestamp ≤ job.snapshot.timestamp ∧
      (Ended g es → timestamp < job.snapshot.timestamp) := by
  induction run with
  | start _ => rcases seen with ⟨e, job, member, _⟩ | ⟨e, snapshot, member, _⟩ <;> cases member
  | @step es s t l prior step ih =>
    have before : ∀ e ∈ es, BelowCap e.source :=
      fun e member => below e (List.mem_append_left _ member)
    have now : BelowCap s := below _ (List.mem_append_right _ (List.mem_singleton_self _))
    obtain ⟨inv, _, timed⟩ := timed_of_run prior before
    have effect := effect_of_step inv step
    have split (ended : Ended g (es ++ [⟨s, l, t⟩])) : Ended g es ∨ ∃ terminal elapsed,
        l = ⟨.complete g terminal elapsed, .done⟩ := by
      obtain ⟨e, member, ends⟩ := ended
      rcases List.mem_append.mp member with old | new
      · exact .inl ⟨e, old, ends⟩
      · cases List.mem_singleton.mp new
        exact .inr ends
    -- the section moves the job on, strictly when it ends it
    have onward {job : Job} (found : s.arena.find? g = some job)
        (behind : timestamp ≤ job.snapshot.timestamp)
        (ended : Ended g es → timestamp < job.snapshot.timestamp) :
        ∃ job, t.arena.find? g = some job ∧ timestamp ≤ job.snapshot.timestamp ∧
          (Ended g (es ++ [⟨s, l, t⟩]) → timestamp < job.snapshot.timestamp) := by
      obtain ⟨next, found', later⟩ := later_of_effect inv timed now effect found
      refine ⟨next, found', Nat.le_trans behind later.le, fun ends => ?_⟩
      rcases split ends with earlier | ⟨terminal, elapsed, rfl⟩
      · exact Nat.lt_of_lt_of_le (ended earlier) later.le
      · obtain ⟨job₁, found₁, _, found'', _⟩ := complete_of_effect inv effect
        cases found.symm.trans found₁
        cases found'.symm.trans found''
        exact Nat.lt_of_le_of_lt behind (nextTimestamp_gt elapsed (now g job found))
    have old (seen : Seen es g timestamp) : ∃ job, t.arena.find? g = some job ∧
        timestamp ≤ job.snapshot.timestamp ∧
          (Ended g (es ++ [⟨s, l, t⟩]) → timestamp < job.snapshot.timestamp) := by
      obtain ⟨job, found, behind, ended⟩ := ih before seen
      exact onward found behind ended
    rcases seen with ⟨e, job, member, found, live⟩ | ⟨e, snapshot, member, started⟩
    · rcases List.mem_append.mp member with earlier | new
      · exact old (.shown e job earlier found live)
      · cases List.mem_singleton.mp new
        refine onward found (Nat.le_refl _) (fun ended => ?_)
        obtain ⟨job', found', phase, _⟩ := ended_over prior ended
        cases found.symm.trans found'
        exact absurd phase live
    · rcases List.mem_append.mp member with earlier | new
      · exact old (.started e snapshot earlier started)
      · cases List.mem_singleton.mp new
        obtain ⟨⟨job, found, rfl⟩, unfinished⟩ := started_of_effect inv timed effect started
        refine ⟨job, found, Nat.le_refl _, fun ends => ?_⟩
        rcases split ends with earlier | ⟨terminal, elapsed, rfl⟩
        · exact absurd (ended_over prior earlier) unfinished
        · cases started

theorem belowCap_of_all {s : State}
    (all : s.arena.toList.all (·.2.snapshot.timestamp < jsonSafeIntegerMax) = true) :
    BelowCap s := by
  intro g job found
  have listed := OrderedMap.mem_toList_iff.mpr found
  simpa using List.all_eq_true.mp all _ listed

/-- Timestamps keep the order the clients rely on in exactly the runs where every
generation ends past what its committed stops have promised. -/
theorem ordered_iff_outpaced {es : History} {s : State} (run : Run ownerSystem es s)
    (below : ∀ e ∈ es, BelowCap e.source) : Ordered es s ↔ Outpaced es := by
  constructor
  · intro ordered e member g terminal elapsed ends job found projected reply
    obtain ⟨job₀, job', found₀, ⟨found', _⟩, same⟩ := terminal_of_run run member ends
    cases found.symm.trans found₀
    have last := ordered.terminalLast g ⟨e, member, terminal, elapsed, ends⟩ job' found' projected
      (.inr reply)
    rw [same] at last
    exact (nextTimestamp_past elapsed (below e member g job found) projected).mp last
  · intro outpaced
    constructor
    · intro e member configId earlier now shown shown'
      obtain ⟨next, shown'', later⟩ := public_of_run run below member shown
      cases public_unique shown' shown''
      exact later
    · rintro g ended job found timestamp (seen | reply)
      · obtain ⟨job', found', _, last⟩ := seen_of_run run below seen
        cases found.symm.trans found'
        exact last ended
      · obtain ⟨e, member, terminal, elapsed, ends⟩ := ended
        obtain ⟨job₀, job', found₀, ⟨found', _⟩, same⟩ := terminal_of_run run member ends
        cases found.symm.trans found'
        rw [same]
        exact (nextTimestamp_past elapsed (below e member g job₀ found₀) timestamp).mpr
          (outpaced e member g terminal elapsed ends job₀ found₀ timestamp reply)

/-- A stop is prepared at millisecond 8, the job ends in millisecond `elapsed`, and only
then the stop is committed. -/
def overtakenOps (elapsed : Int) : List Op :=
  [.prepareStart (sampleRequest [97] false) false 5 .created, .commitReservation 1 6,
    .releaseGate 1, .finishPreparing 1 true, .enterBackend 1, .prepareStop [97] 8,
    .complete 1 ⟨false, none⟩ elapsed, .commitStop ⟨[97], some 1, 1, 8, true⟩ 9]

theorem overtaken_below (elapsed : Int) (early : elapsed = 8 ∨ elapsed = 9) :
    ∀ e ∈ (play perform { limits := {} } (overtakenOps elapsed)).1, BelowCap e.source := by
  intro e member
  refine belowCap_of_all (List.all_eq_true.mp (?_ : (play perform { limits := {} }
    (overtakenOps elapsed)).1.all (fun e => e.source.arena.toList.all
      (·.2.snapshot.timestamp < jsonSafeIntegerMax)) = true) e member)
  rcases early with rfl | rfl <;> decide

/-- Within one millisecond the terminal snapshot repeats the timestamp of the stop reply. -/
theorem terminal_repeats_reply :
    Run ownerSystem (play perform { limits := {} } (overtakenOps 8)).1
        (play perform { limits := {} } (overtakenOps 8)).2 ∧
      (∀ e ∈ (play perform { limits := {} } (overtakenOps 8)).1, BelowCap e.source) ∧
      ¬ Ordered (play perform { limits := {} } (overtakenOps 8)).1
        (play perform { limits := {} } (overtakenOps 8)).2 := by
  refine ⟨run_play perform_step _ ⟨{}, by decide, rfl⟩, overtaken_below 8 (.inl rfl), ?_⟩
  intro ordered
  have last := ordered.terminalLast 1 ⟨_, List.getElem_mem (show 6 < _ by decide), _, _, rfl⟩ _ rfl 8
    (.inr ⟨_, List.getElem_mem (show 7 < _ by decide), .inl ⟨_, _, rfl, rfl, rfl, rfl⟩⟩)
  exact absurd last (by decide)

theorem ordered_iff_outpaced_played :
    Ordered (play perform { limits := {} } (overtakenOps 9)).1
        (play perform { limits := {} } (overtakenOps 9)).2 ↔
      Outpaced (play perform { limits := {} } (overtakenOps 9)).1 :=
  ordered_iff_outpaced (run_play perform_step _ ⟨{}, by decide, rfl⟩)
    (overtaken_below 9 (.inr rfl))

end Baas.RuntimeTaskOwner
