import Baas.Runtime.TaskOwnerEffect

/-! Every section of the task owner does what its effect says; in particular none of
the `std::terminate` branches is taken from a state that satisfies the invariants. -/
namespace Baas.RuntimeTaskOwner

open Transition

theorem current?_eq_some {s : State} {slot : ConfigSlot} {g : Generation} {job : Job} :
    s.current? slot = some (g, job) ↔ slot.current = some g ∧ s.arena.find? g = some job := by
  unfold State.current?
  cases current : slot.current with
  | none => simp
  | some p =>
    cases found : s.arena.find? p with
    | none =>
      simp only [Option.bind_some, found, Option.map_none, Option.some.injEq]
      constructor
      · rintro ⟨⟩
      · rintro ⟨rfl, other⟩
        cases found.symm.trans other
    | some previous =>
      simp only [Option.bind_some, found, Option.map_some, Option.some.injEq, Prod.mk.injEq]
      constructor
      · rintro ⟨rfl, rfl⟩
        exact ⟨rfl, found⟩
      · rintro ⟨rfl, other⟩
        exact ⟨rfl, Option.some.inj (found.symm.trans other)⟩

theorem current?_eq_none {s : State} (reg : Registry s) {configId : ConfigId}
    {slot : ConfigSlot} (found : s.jobs.find? configId = some slot) :
    s.current? slot = none ↔ slot.current = none := by
  unfold State.current?
  cases current : slot.current with
  | none => simp
  | some g =>
    obtain ⟨job, known, _⟩ := reg.currentKnown configId slot g found current
    simp [known]

theorem Registry.of_start {s : State} (reg : Registry s) {g : Generation} {job : Job}
    {point : StartPoint} (found : s.arena.find? g = some job)
    (held : s.starts.find? g = some point) : ∃ slot,
      s.jobs.find? job.snapshot.configId = some slot ∧ slot.reserved = some g := by
  obtain ⟨job', slot, found', present, reserved⟩ := reg.startHeld g point held
  cases Option.some.inj (found.symm.trans found')
  exact ⟨slot, present, reserved⟩

theorem Registry.active_of_start {s : State} (reg : Registry s) {g : Generation}
    {point : StartPoint} (held : s.starts.find? g = some point) : s.activeReservations ≠ 0 := by
  have := OrderedMap.size_pos held
  have := reg.active
  omega

theorem reserve_effect {s : State} {request : RuntimeTaskRequest} {slot : ConfigSlot}
    {previous : Option Job} (publishThreadFailure : Bool) (elapsed : Int)
    (thread : ThreadStart) (accepting : s.accepting = true) (calm : s.stopAllReserved = false)
    (free : FreeSlot s request.configId slot) (replaces : Replaces s slot previous) :
    Effect s (.prepareStart request publishThreadFailure elapsed thread)
      (startOutcome (reserveStart s request publishThreadFailure slot previous elapsed thread).2)
      (reserveStart s request publishThreadFailure slot previous elapsed thread).1 := by
  unfold reserveStart
  simp only
  split
  · exact .idle _ _ rfl
  · rename_i unspent
    cases thread with
    | created =>
      have effect := Effect.reserve (s := s) request publishThreadFailure elapsed slot previous
        accepting calm free replaces unspent
      unfold startPoint at effect
      cases prepared : request.preparedBackend <;>
        simpa [reservedJob, prepared, startOutcome] using effect
    | failed failElapsed =>
      refine .threadFailed request publishThreadFailure elapsed failElapsed slot previous _ _
        accepting calm free replaces unspent ?_
      cases publishThreadFailure with
      | true => exact .inl ⟨rfl, rfl⟩
      | false =>
        cases current : slot.current with
        | none => exact .inr (.inl ⟨rfl, rfl, by simp⟩)
        | some g => exact .inr (.inr ⟨rfl, by simp, by simp⟩)

theorem prepareStart_effect {s : State} (inv : Invariant s) (request : RuntimeTaskRequest)
    (publishThreadFailure : Bool) (elapsed : Int) (thread : ThreadStart) :
    Effect s (.prepareStart request publishThreadFailure elapsed thread)
      (startOutcome (prepareStart s request publishThreadFailure elapsed thread).2)
      (prepareStart s request publishThreadFailure elapsed thread).1 := by
  have refused {decision : StartDecision} {snapshot : Option RuntimeTaskSnapshot}
      (early : decision.late = false) :
      Effect s (.prepareStart request publishThreadFailure elapsed thread)
        (startOutcome (refuseStart decision snapshot)) s :=
    .idle _ _ (by simp [startOutcome, refuseStart, Outcome.idle, early])
  unfold prepareStart
  split
  · exact refused rfl
  · split
    · exact refused rfl
    · rename_i accepting
      split
      · exact refused rfl
      · rename_i calm
        have accepting : s.accepting = true := by simpa using accepting
        have calm : s.stopAllReserved = false := by simpa using calm
        split
        · rename_i slot found
          split
          · exact refused rfl
          · rename_i free
            have free : slot.reserved = none ∧ slot.stopReserved = false := by
              simpa using free
            have taken := FreeSlot.present found free.1 free.2
            split
            · rename_i empty
              have empty := (current?_eq_none inv.registry found).mp empty
              exact reserve_effect _ _ _ accepting calm taken empty
            · rename_i p previous current
              have current := current?_eq_some.mp current
              split
              · exact refused rfl
              · exact refused rfl
              · rename_i final
                exact reserve_effect _ _ _ accepting calm taken ⟨p, current.1, current.2, final⟩
        · rename_i absent
          split
          · exact refused rfl
          · rename_i room
            exact reserve_effect _ _ _ accepting calm (.added absent (Nat.lt_of_not_le room)) rfl

theorem finishPreparation_effect {s : State} (inv : Invariant s) (g : Generation) :
    Effect s (.finishPreparation g) (applyFinishPreparation s g).2
      (applyFinishPreparation s g).1 := by
  unfold applyFinishPreparation
  split
  · rename_i reply job held found
    split
    · rename_i finished
      unfold finishPreparation
      by_cases succeeded : job.preparationSucceeded = true
      · simp only [succeeded, if_true]
        exact .prepared g job reply found held finished succeeded
      · obtain ⟨slot, present, reserved⟩ := inv.registry.of_start found held
        simp only [succeeded, present, reserved, Bool.false_eq_true, if_true, if_false]
        exact .dropped _ _ g job slot _ found held present reserved
          (.inl ⟨rfl, rfl, ⟨reply, rfl⟩, finished, Bool.not_eq_true _ ▸ succeeded⟩)
    · exact .idle _ _ rfl
  · exact .idle _ _ rfl

theorem finishCancel_effect {s : State} (inv : Invariant s) (g : Generation) :
    Effect s (.finishCancel g) (applyFinishCancel s g).2 (applyFinishCancel s g).1 := by
  unfold applyFinishCancel
  split
  · rename_i job found
    split
    · rename_i ready
      have ready : s.starts.find? g = some .joining ∧ job.worker = .exited := by
        simpa using ready
      obtain ⟨slot, present, reserved⟩ := inv.registry.of_start found ready.1
      have active := inv.registry.active_of_start ready.1
      unfold finishCancel
      simp only [present, reserved, active, ne_eq, not_true, or_self, if_false]
      exact .dropped _ _ g job slot _ found ready.1 present reserved
        (.inr ⟨rfl, rfl, rfl, ready.2⟩)
    · exact .idle _ _ rfl
  · exact .idle _ _ rfl

/-- A section on a start reservation either finds nothing to do or its job and point. -/
theorem onStart_cases (s : State) (g : Generation) (point : StartPoint) (act : Job → State) :
    onStart s g point act = (s, .blocked) ∨ ∃ job, s.arena.find? g = some job ∧
      s.starts.find? g = some point ∧ onStart s g point act = (act job, .done) := by
  unfold onStart
  split
  · rename_i job found
    split
    · rename_i held
      exact .inr ⟨job, found, held, rfl⟩
    · exact .inl rfl
  · exact .inl rfl

theorem onCommit_cases (s : State) (g : Generation) (point : CommitPoint) (act : Job → State) :
    onCommit s g point act = (s, .blocked) ∨ ∃ job, s.arena.find? g = some job ∧
      s.commits.find? g = some point ∧ onCommit s g point act = (act job, .done) := by
  unfold onCommit
  split
  · rename_i job found
    split
    · rename_i held
      exact .inr ⟨job, found, held, rfl⟩
    · exact .inl rfl
  · exact .inl rfl

theorem onWorker_cases (s : State) (g : Generation) (ready : Job → Bool) (change : Job → Job) :
    onWorker s g ready change = (s, .blocked) ∨ ∃ job, s.arena.find? g = some job ∧
      ready job = true ∧ onWorker s g ready change =
        ({ s with arena := s.arena.insert g (change job) }, .done) := by
  unfold onWorker
  split
  · rename_i job found
    split
    · rename_i isReady
      exact .inr ⟨job, found, isReady, rfl⟩
    · exact .inl rfl
  · exact .inl rfl

theorem updateJob_of_find? {s : State} {g : Generation} {job : Job}
    (found : s.arena.find? g = some job) (change : Job → Job) :
    s.updateJob g change = { s with arena := s.arena.insert g (change job) } := by
  simp only [State.updateJob, found]

theorem commitReservation_effect {s : State} (inv : Invariant s) (g : Generation)
    (elapsed : Int) :
    Effect s (.commitReservation g elapsed)
      (onStart s g .held (commitReservation s g · elapsed)).2
      (onStart s g .held (commitReservation s g · elapsed)).1 := by
  rcases onStart_cases s g .held (commitReservation s g · elapsed) with
    same | ⟨job, found, held, same⟩
  · rw [same]; exact .idle _ _ rfl
  · obtain ⟨slot, present, reserved⟩ := inv.registry.of_start found held
    have active := inv.registry.active_of_start held
    rw [same]
    simp only [commitReservation, present, reserved, active, ne_eq, not_true, or_self, if_false]
    exact .commit g job slot elapsed found held present reserved

theorem deliverBeforeRelease_effect (s : State) (g : Generation) :
    Effect s (.deliverBeforeRelease g)
      (onCommit s g .delivering (fun _ => deliverBeforeRelease s g)).2
      (onCommit s g .delivering (fun _ => deliverBeforeRelease s g)).1 := by
  rcases onCommit_cases s g .delivering (fun _ => deliverBeforeRelease s g) with
    same | ⟨job, found, held, same⟩
  · rw [same]; exact .idle _ _ rfl
  · rw [same]
    simp only [deliverBeforeRelease, State.updateJob, found]
    exact .deliverBeforeRelease g job found held

theorem releaseGate_effect {s : State} (inv : Invariant s) (g : Generation) :
    Effect s (.releaseGate g) (onCommit s g .releasing (releaseGate s g)).2
      (onCommit s g .releasing (releaseGate s g)).1 := by
  rcases onCommit_cases s g .releasing (releaseGate s g) with same | ⟨job, found, held, same⟩
  · rw [same]; exact .idle _ _ rfl
  · have stage := inv.staged g job found
    rw [held] at stage
    have gate := stage.of_commit.2.2.1
    rw [same]
    simp only [releaseGate, State.updateJob, found, gate, ne_eq, not_true, if_false]
    exact .release g job found held gate

theorem cancelReservation_effect {s : State} (inv : Invariant s) (g : Generation) :
    Effect s (.cancelReservation g) (onStart s g .held (cancelReservation s g)).2
      (onStart s g .held (cancelReservation s g)).1 := by
  rcases onStart_cases s g .held (cancelReservation s g) with same | ⟨job, found, held, same⟩
  · rw [same]; exact .idle _ _ rfl
  · obtain ⟨slot, present, reserved⟩ := inv.registry.of_start found held
    rw [same]
    simp only [cancelReservation, present, reserved, ne_eq, not_true, if_false]
    exact .cancel g job found held

theorem cancelGate_effect {s : State} (inv : Invariant s) (g : Generation) :
    Effect s (.cancelGate g) (onStart s g .cancelling (cancelGate s g)).2
      (onStart s g .cancelling (cancelGate s g)).1 := by
  rcases onStart_cases s g .cancelling (cancelGate s g) with same | ⟨job, found, held, same⟩
  · rw [same]; exact .idle _ _ rfl
  · have stage := inv.staged g job found
    rw [held] at stage
    have gate : job.gate = .pending := stage.of_start.2.2.resolve_right (fun h => nomatch h.2)
    rw [same]
    simp only [cancelGate, State.updateJob, found, gate, ne_eq, not_true, if_false]
    exact .cancelGate g job found held gate

theorem prepareStop_effect {s : State} (configId : ConfigId) (elapsed : Int) :
    Effect s (.prepareStop configId elapsed)
      (.stopPrepared (prepareStop s configId elapsed).2) (prepareStop s configId elapsed).1 := by
  have refused {decision : StopDecision} : Effect s (.prepareStop configId elapsed)
      (.stopPrepared (refuseStop decision)) s := .idle _ _ rfl
  unfold prepareStop
  split
  · exact refused
  · split
    · exact refused
    · rename_i accepting
      split
      · exact refused
      · rename_i calm
        have accepting : s.accepting = true := by simpa using accepting
        have calm : s.stopAllReserved = false := by simpa using calm
        simp only
        split
        · rename_i slot found
          split
          · exact refused
          · rename_i free
            have free : slot.reserved = none ∧ slot.stopReserved = false := by simpa using free
            exact .reserveStop configId elapsed slot accepting calm
              (.present found free.1 free.2)
        · rename_i absent
          split
          · exact refused
          · rename_i room
            exact .reserveStop configId elapsed {} accepting calm
              (.added absent (Nat.lt_of_not_le room))

/-- Settling one job settles the arena. -/
theorem settled_insert {s : State} {promised : Generation → Timestamp → Prop} {g : Generation}
    {job job' : Job} (found : s.arena.find? g = some job)
    (settle : Settle (promised g) job job') (g' : Generation) :
    Settled promised g' (s.arena.find? g') ((s.arena.insert g job').find? g') := by
  rw [OrderedMap.find?_insert]
  split
  · rename_i same
    subst same
    rw [found]
    exact .some (.single settle)
  · cases s.arena.find? g' with
    | none => exact .none
    | some other => exact .some .refl

theorem settled_refl {promised : Generation → Timestamp → Prop} {g : Generation}
    (job : Option Job) : Settled promised g job job := by
  cases job with
  | none => exact .none
  | some job => exact .some .refl

theorem stopsAtCommit_iff {same transitionRunning : Bool} {job : Job} :
    stopsAtCommit same transitionRunning job = true ↔
      same = true ∧ transitionRunning = true ∧ job.phase = .running := by
  unfold stopsAtCommit
  simp [and_assoc]

theorem settle_of_commit {promised : Timestamp → Prop} {same transitionRunning : Bool}
    {timestamp : Timestamp} (elapsed : Int) (job : Job)
    (promise : transitionRunning = true → promised timestamp) :
    Settle promised job (settleCommit same transitionRunning timestamp elapsed job) := by
  unfold settleCommit
  split
  · rename_i stops
    obtain ⟨_, transition, phase⟩ := stopsAtCommit_iff.mp stops
    exact .stop job timestamp phase (promise transition)
  · split
    · rename_i publishes
      have phase : job.phase = .stopping := (by simpa [and_assoc] using publishes :
        same = true ∧ transitionRunning = false ∧ job.phase = .stopping).2.2
      exact .publish job elapsed (by rw [phase]; decide) (.inl phase)
    · exact .discard job

theorem settle_of_abort {g : Generation} {same : Bool} (elapsed : Int) (job : Job) :
    Settle (noPromise g) job (settleAbort same elapsed job) := by
  unfold settleAbort
  split
  · rename_i publishes
    have live : same = true ∧ job.phase ≠ .completed := by simpa using publishes
    exact .publish job elapsed live.2 (.inr fun _ => id)
  · exact .discard job

theorem isCurrent_of_sameGeneration {s : State} {configId : ConfigId} {g generation : Generation}
    {job : Job} (same : sameGeneration s configId g generation job = true) :
    s.IsCurrent configId g := by
  unfold sameGeneration at same
  cases found : s.jobs.find? configId with
  | none => simp [found] at same
  | some slot =>
    have current : slot.current = some g ∧ job.generation = generation := by
      simpa [found] using same
    exact ⟨slot, found, current.1⟩

theorem Registry.current_config {s : State} (reg : Registry s) {configId : ConfigId}
    {g : Generation} {job : Job} (current : s.IsCurrent configId g)
    (found : s.arena.find? g = some job) : job.snapshot.configId = configId := by
  obtain ⟨slot, present, current⟩ := current
  obtain ⟨job', found', config⟩ := reg.currentKnown configId slot g present current
  cases Option.some.inj (found.symm.trans found')
  exact config

theorem Registry.active_of_stop {s : State} (reg : Registry s) {r : StopReservation}
    (out : r ∈ s.stops) : s.activeReservations ≠ 0 := by
  have := List.length_pos_of_mem out
  have := reg.active
  omega

theorem Registry.active_of_stopAll {s : State} (reg : Registry s) {items : List StopAllItem}
    (out : items ∈ s.stopAlls) : s.activeReservations ≠ 0 := by
  have := List.length_pos_of_mem out
  have := reg.active
  omega

/-- The job a reservation captured, with the entry it has in the arena. -/
theorem captured_eq_some {s : State} {r : StopReservation} {g : Generation} {job : Job} :
    r.job.bind (fun g => (s.arena.find? g).map (g, ·)) = some (g, job) ↔
      r.job = some g ∧ s.arena.find? g = some job :=
  show s.current? { current := r.job } = some (g, job) ↔ _ from current?_eq_some

theorem uncaptured {s : State} {r : StopReservation}
    (absent : r.job.bind (fun g => (s.arena.find? g).map (g, ·)) = none) (g : Generation)
    (names : r.job = some g) (job : Job) (found : s.arena.find? g = some job) :
    job.pendingProgress = none := by
  rw [captured_eq_some.mpr ⟨names, found⟩] at absent
  cases absent

theorem publish_pending (job : Job) (elapsed : Int) :
    (job.publishPendingProgress elapsed).pendingProgress = none := by
  unfold Job.publishPendingProgress
  cases pending : job.pendingProgress with
  | none => exact pending
  | some progress => rfl

theorem settleCommit_pending (same transitionRunning : Bool) (timestamp : Timestamp)
    (elapsed : Int) (job : Job) :
    (settleCommit same transitionRunning timestamp elapsed job).pendingProgress = none := by
  unfold settleCommit
  split
  · rfl
  · split
    · exact publish_pending job elapsed
    · rfl

theorem settleAbort_pending (same : Bool) (elapsed : Int) (job : Job) :
    (settleAbort same elapsed job).pendingProgress = none := by
  unfold settleAbort
  split
  · exact publish_pending job elapsed
  · rfl

theorem cleared_insert {arena : OrderedMap Generation Job} {r : StopReservation}
    {g : Generation} {job' : Job} (names : r.job = some g) (clear : job'.pendingProgress = none)
    (g' : Generation) (captured : r.job = some g') (job : Job)
    (found : (arena.insert g job').find? g' = some job) : job.pendingProgress = none := by
  cases names.symm.trans captured
  rw [OrderedMap.find?_insert_self] at found
  cases found
  exact clear

theorem uncaptured_insert {arena : OrderedMap Generation Job} {r : StopReservation}
    {g : Generation} {job' : Job} (names : r.job = some g) (g' : Generation)
    (other : ¬ r.job = some g') : (arena.insert g job').find? g' = arena.find? g' :=
  OrderedMap.find?_insert_ne _ _ (fun same => other (names.trans (congrArg some same)))

theorem pushDelivery_eq (s : State) (targets : List Generation) (sweeping : Bool) :
    s.pushDelivery targets sweeping =
      { s with
        calls := if targets.isEmpty then s.calls else .deliver targets sweeping :: s.calls } := by
  unfold State.pushDelivery
  split <;> rfl

theorem commitStop_effect {s : State} (inv : Invariant s) (r : StopReservation) (elapsed : Int)
    (out : r ∈ s.stops) : Effect s (.commitStop r elapsed) .done (commitStop s r elapsed) := by
  obtain ⟨slot, present, held⟩ := inv.registry.stopHeld r out
  have active := inv.registry.active_of_stop out
  unfold commitStop
  simp only [present, held, Bool.true_eq_false, if_false]
  split
  · rename_i absent
    simp only [resolveStopGate, present, held, active, Bool.true_eq_false, or_self, if_false]
    exact .resolveStop _ r elapsed slot r.promises s.arena s.calls out present held
      (.inl ⟨rfl, rfl⟩) ⟨fun g => settled_refl _, uncaptured absent, fun _ _ => rfl, .inl rfl⟩
  · rename_i g job captured
    obtain ⟨names, found⟩ := captured_eq_some (s := s) |>.mp captured
    simp only [updateJob_of_find? (s := { s with stops := s.stops.erase r }) found,
      pushDelivery_eq, resolveStopGate, present, held, active, Bool.true_eq_false, or_self,
      if_false]
    refine .resolveStop _ r elapsed slot r.promises _ _ out present held (.inl ⟨rfl, rfl⟩)
      ⟨?_, cleared_insert names (settleCommit_pending _ _ _ _ job), uncaptured_insert names, ?_⟩
    · exact settled_insert found (settle_of_commit elapsed job (fun transition =>
        ⟨names, transition, rfl⟩))
    · split
      · rename_i stops
        obtain ⟨same, transition, phase⟩ := stopsAtCommit_iff.mp stops
        have current : s.IsCurrent r.configId g := isCurrent_of_sameGeneration (s := s) same
        refine .inr ⟨[g], rfl, ?_⟩
        intro g' member
        cases List.mem_singleton.mp member
        refine ⟨⟨job, found, phase, ?_⟩, r.commitTimestamp, names, transition, rfl⟩
        rw [inv.registry.current_config current found]
        exact current
      · exact .inl rfl

theorem abortStop_effect {s : State} (inv : Invariant s) (r : StopReservation) (elapsed : Int)
    (out : r ∈ s.stops) : Effect s (.abortStop r elapsed) .done (abortStop s r elapsed) := by
  obtain ⟨slot, present, held⟩ := inv.registry.stopHeld r out
  have active := inv.registry.active_of_stop out
  unfold abortStop
  simp only
  split
  · rename_i absent
    simp only [resolveStopGate, present, held, active, Bool.true_eq_false, or_self, if_false]
    exact .resolveStop _ r elapsed slot noPromise s.arena s.calls out present held
      (.inr ⟨rfl, rfl⟩) ⟨fun g => settled_refl _, uncaptured absent, fun _ _ => rfl, .inl rfl⟩
  · rename_i g job captured
    obtain ⟨names, found⟩ := captured_eq_some (s := s) |>.mp captured
    simp only [updateJob_of_find? (s := { s with stops := s.stops.erase r }) found,
      resolveStopGate, present, held, active, Bool.true_eq_false, or_self, if_false]
    exact .resolveStop _ r elapsed slot noPromise _ s.calls out present held (.inr ⟨rfl, rfl⟩)
      ⟨settled_insert found (settle_of_abort elapsed job),
        cleared_insert names (settleAbort_pending _ _ job), uncaptured_insert names, .inl rfl⟩

theorem requestStopAfterShutdown_effect {s : State} (closed : s.accepting = false)
    (configId : ConfigId) (elapsed : Int) :
    Effect s (.requestStopAfterShutdown configId elapsed)
      (.stopRequested (requestStopAfterShutdown s configId elapsed).2)
      (requestStopAfterShutdown s configId elapsed).1 := by
  have refused (decision : StopDecision) (snapshot : Option RuntimeTaskSnapshot)
      (other : decision ≠ .stopRequested) : Effect s (.requestStopAfterShutdown configId elapsed)
        (.stopRequested ⟨decision, snapshot⟩) s := .idle _ _ (by simpa [Outcome.idle] using other)
  unfold requestStopAfterShutdown
  split
  · exact refused _ _ (by decide)
  · rename_i calm
    split
    · exact refused _ _ (by decide)
    · rename_i slot found
      split
      · exact refused _ _ (by decide)
      · rename_i g job current
        obtain ⟨current, known⟩ := current?_eq_some.mp current
        split
        · exact refused _ _ (by decide)
        · rename_i free
          split
          · rename_i phase
            exact .touch _ _ g job _ _ known (.stopAfterShutdown configId slot elapsed closed
              (by simpa using calm) found current (by simpa using free) phase)
          · exact refused _ _ (by decide)
          · exact refused _ _ (by decide)

theorem prepareStopAll_effect (s : State) (clock : Generation → Int) :
    Effect s (.prepareStopAll clock) (.stopAllPrepared (prepareStopAll s clock).2)
      (prepareStopAll s clock).1 := by
  by_cases accepting : s.accepting = true
  · by_cases busy : (s.stopAllReserved || s.activeReservations ≠ 0) = true
    · have refused : prepareStopAll s clock = (s, ⟨.reservationConflict, [], none⟩) := by
        unfold prepareStopAll
        simp only [accepting, busy, Bool.not_true, Bool.false_eq_true, if_false, if_true]
      rw [refused]
      exact .idle _ _ rfl
    · have free : s.stopAllReserved = false ∧ s.activeReservations = 0 := by simpa using busy
      have effect := Effect.reserveStopAll clock accepting free.1 free.2
      have target : (prepareStopAll s clock).1 =
          { s with
            stopAllReserved := true
            activeReservations := s.activeReservations + 1
            stopAlls := capturedItems s clock :: s.stopAlls } := by
        unfold prepareStopAll capturedItems
        simp only [accepting, busy, Bool.not_true, Bool.false_eq_true, if_false, List.map_map]
        rfl
      rw [target]
      exact effect
  · have refused : prepareStopAll s clock = (s, ⟨.ownerStopped, [], none⟩) := by
      unfold prepareStopAll
      simp [accepting]
    rw [refused]
    exact .idle _ _ rfl

/-- A job before and after changes to what it publishes and to its phase while it is
live. -/
structure Quiet (job job' : Job) : Prop where
  generation : job'.generation = job.generation
  config : job'.snapshot.configId = job.snapshot.configId
  worker : job'.worker = job.worker
  gate : job'.gate = job.gate
  complete : job'.preparationComplete = job.preparationComplete
  succeeded : job'.preparationSucceeded = job.preparationSucceeded
  final : job'.phase = .completed ↔ job.phase = .completed
  ran : job'.phase = .running → job.phase = .running

theorem Quiet.refl (job : Job) : Quiet job job := ⟨rfl, rfl, rfl, rfl, rfl, rfl, .rfl, id⟩

theorem Quiet.trans {a b c : Job} (first : Quiet a b) (second : Quiet b c) : Quiet a c where
  generation := second.generation.trans first.generation
  config := second.config.trans first.config
  worker := second.worker.trans first.worker
  gate := second.gate.trans first.gate
  complete := second.complete.trans first.complete
  succeeded := second.succeeded.trans first.succeeded
  final := second.final.trans first.final
  ran running := first.ran (second.ran running)

theorem quiet_discard (job : Job) : Quiet job job.discardPendingProgress :=
  ⟨rfl, rfl, rfl, rfl, rfl, rfl, .rfl, id⟩

theorem quiet_apply (job : Job) (progress : RuntimeTaskProgress) (elapsed : Int) :
    Quiet job (job.applyProgress progress elapsed) :=
  ⟨rfl, rfl, rfl, rfl, rfl, rfl, .rfl, id⟩

theorem quiet_publish (job : Job) (elapsed : Int) :
    Quiet job (job.publishPendingProgress elapsed) := by
  unfold Job.publishPendingProgress
  split
  · exact .refl job
  · exact (quiet_apply job _ elapsed).trans (quiet_discard _)

theorem quiet_stop {job : Job} (live : job.phase ≠ .completed) (timestamp : Timestamp) :
    Quiet job (job.markStopping timestamp) :=
  ⟨rfl, rfl, rfl, rfl, rfl, rfl, ⟨nofun, fun final => absurd final live⟩, nofun⟩

theorem Settle.quiet {promised : Timestamp → Prop} {job job' : Job}
    (settle : Settle promised job job') : Quiet job job' := by
  cases settle with
  | discard => exact quiet_discard job
  | publish elapsed _ _ => exact quiet_publish job elapsed
  | stop timestamp phase _ =>
    exact (quiet_stop (by rw [phase]; decide) timestamp).trans (quiet_discard _)

theorem quiet_of_settles {promised : Timestamp → Prop} {job job' : Job}
    (settles : Relation.ReflTransGen (Settle promised) job job') : Quiet job job' := by
  induction settles with
  | refl => exact .refl job
  | tail _ settle ih => exact ih.trans settle.quiet

theorem settled_trans {promised : Generation → Timestamp → Prop} {g : Generation}
    {a b c : Option Job} (first : Settled promised g a b) (second : Settled promised g b c) :
    Settled promised g a c := by
  cases first with
  | none => exact second
  | some steps =>
    cases second with
    | some more => exact .some (steps.trans more)

/-- A settled job that still runs was running before. -/
theorem stopsNow_of_settled {promised : Generation → Timestamp → Prop} {s₀ : State}
    {g : Generation} {job : Job} (settled : Settled promised g (s₀.arena.find? g) (some job))
    (phase : job.phase = .running) (current : s₀.IsCurrent job.snapshot.configId g) :
    StopsNow s₀ g := by
  generalize found : s₀.arena.find? g = before at settled
  cases settled with
  | some steps =>
    rename_i job₀
    have quiet := quiet_of_settles steps
    exact ⟨job₀, found, quiet.ran phase, quiet.config ▸ current⟩

/-- Nothing is staged for the job. -/
def Cleared (arena : OrderedMap Generation Job) (g : Generation) : Prop :=
  ∀ job, arena.find? g = some job → job.pendingProgress = none

theorem cleared_step {arena : OrderedMap Generation Job} {item : StopAllItem}
    {rest : List StopAllItem} {job' : Job} (clear : job'.pendingProgress = none) {g : Generation}
    (before : (∃ other ∈ item :: rest, other.job = g) ∨ Cleared arena g) :
    (∃ other ∈ rest, other.job = g) ∨ Cleared (arena.insert item.job job') g := by
  by_cases here : item.job = g
  · refine .inr (fun job found => ?_)
    rw [here, OrderedMap.find?_insert_self] at found
    cases found
    exact clear
  · rcases before with ⟨other, member, rfl⟩ | before
    · rcases List.mem_cons.mp member with rfl | member
      · exact absurd rfl here
      · exact .inl ⟨other, member, rfl⟩
    · refine .inr (fun job found => before job ?_)
      rwa [OrderedMap.find?_insert_ne _ _ here] at found

theorem unnamed_rest {item : StopAllItem} {rest : List StopAllItem} {g : Generation}
    (free : ¬ ∃ other ∈ item :: rest, other.job = g) : ¬ ∃ other ∈ rest, other.job = g :=
  fun ⟨other, member, names⟩ => free ⟨other, List.mem_cons_of_mem _ member, names⟩

theorem unnamed_insert {arena : OrderedMap Generation Job} {item : StopAllItem}
    {rest : List StopAllItem} {job' : Job} {g : Generation}
    (free : ¬ ∃ other ∈ item :: rest, other.job = g) :
    (arena.insert item.job job').find? g = arena.find? g :=
  OrderedMap.find?_insert_ne _ _ (fun same => free ⟨item, List.mem_cons_self, same⟩)

/-- A stop-all settles each item from what the items before it have left. -/
theorem commitItems_effect (s₀ : State) (clock : Generation → Int)
    (promised : Generation → Timestamp → Prop) :
    ∀ (items : List StopAllItem) (s : State), s.jobs = s₀.jobs →
      (∀ g, Settled promised g (s₀.arena.find? g) (s.arena.find? g)) →
      (∀ item ∈ items, item.transitionRunning = true →
        promised item.job item.commitTimestamp) →
      ∃ arena, (commitItems clock s items).1 = { s with arena } ∧
        (∀ g, Settled promised g (s₀.arena.find? g) (arena.find? g)) ∧
        (∀ g, (∃ item ∈ items, item.job = g) ∨ Cleared s.arena g → Cleared arena g) ∧
        (∀ g, (¬ ∃ item ∈ items, item.job = g) → arena.find? g = s.arena.find? g) ∧
        ∀ g ∈ (commitItems clock s items).2,
          StopsNow s₀ g ∧ ∃ timestamp, promised g timestamp
  | [], s, _, settled, _ =>
    ⟨s.arena, rfl, settled, by simp, fun _ _ => rfl, by simp [commitItems]⟩
  | item :: rest, s, jobs, settled, promises => by
    have later : ∀ item ∈ rest, item.transitionRunning = true →
        promised item.job item.commitTimestamp :=
      fun item member => promises item (List.mem_cons_of_mem _ member)
    unfold commitItems
    cases found : s.arena.find? item.job with
    | none =>
      obtain ⟨arena, target, settledEnd, cleared, others, delivered⟩ :=
        commitItems_effect s₀ clock promised rest s jobs settled later
      refine ⟨arena, target, settledEnd, fun g before => cleared g ?_,
        fun g free => others g (unnamed_rest free), delivered⟩
      rcases before with ⟨other, member, rfl⟩ | before
      · rcases List.mem_cons.mp member with rfl | member
        · exact .inr (fun job found' => nomatch found.symm.trans found')
        · exact .inl ⟨other, member, rfl⟩
      · exact .inr before
    | some job =>
      simp only
      have settle : Settle (promised item.job) job
          (settleCommit (itemIsCurrent s item job) item.transitionRunning item.commitTimestamp
            (clock item.job) job) :=
        settle_of_commit _ job (promises item List.mem_cons_self)
      have settled' (g : Generation) := settled_trans (settled g) (settled_insert found settle g)
      obtain ⟨arena, target, settledEnd, cleared, others, delivered⟩ :=
        commitItems_effect s₀ clock promised rest
          { s with
            arena := s.arena.insert item.job
              (settleCommit (itemIsCurrent s item job) item.transitionRunning
                item.commitTimestamp (clock item.job) job) } jobs settled' later
      have pending := settleCommit_pending (itemIsCurrent s item job) item.transitionRunning
        item.commitTimestamp (clock item.job) job
      refine ⟨arena, by rw [target], settledEnd, fun g before => cleared g ?_,
        fun g free => ?_, ?_⟩
      · exact cleared_step pending before
      · exact (others g (unnamed_rest free)).trans (unnamed_insert free)
      split
      · rename_i stops
        intro g member
        rcases List.mem_cons.mp member with rfl | member
        · obtain ⟨same, transition, phase⟩ := stopsAtCommit_iff.mp stops
          have current : s.IsCurrent job.snapshot.configId item.job :=
            isCurrent_of_sameGeneration same
          unfold State.IsCurrent at current
          rw [jobs] at current
          exact ⟨stopsNow_of_settled (found ▸ settled item.job) phase current,
            item.commitTimestamp, promises item List.mem_cons_self transition⟩
        · exact delivered g member
      · exact delivered

theorem abortItems_effect (clock : Generation → Int) (items : List StopAllItem) (s₀ : State) :
    ∃ arena, items.foldl (abortItem clock) s₀ = { s₀ with arena } ∧
      (∀ g, Settled noPromise g (s₀.arena.find? g) (arena.find? g)) ∧
      (∀ g, (∃ item ∈ items, item.job = g) ∨ Cleared s₀.arena g → Cleared arena g) ∧
      ∀ g, (¬ ∃ item ∈ items, item.job = g) → arena.find? g = s₀.arena.find? g := by
  induction items generalizing s₀ with
  | nil => exact ⟨s₀.arena, rfl, fun g => settled_refl _, by simp, fun _ _ => rfl⟩
  | cons item rest ih =>
    rw [List.foldl_cons]
    obtain ⟨arena, target, settled, cleared, others⟩ := ih (abortItem clock s₀ item)
    unfold abortItem at target settled cleared others ⊢
    cases found : s₀.arena.find? item.job with
    | none =>
      simp only [found] at target settled cleared others ⊢
      refine ⟨arena, target, settled, fun g before => cleared g ?_,
        fun g free => others g (unnamed_rest free)⟩
      rcases before with ⟨other, member, rfl⟩ | before
      · rcases List.mem_cons.mp member with rfl | member
        · exact .inr (fun job found' => nomatch found.symm.trans found')
        · exact .inl ⟨other, member, rfl⟩
      · exact .inr before
    | some job =>
      simp only [found] at target settled cleared others ⊢
      have pending := settleAbort_pending (itemIsCurrent s₀ item job) (clock item.job) job
      exact ⟨arena, target, fun g =>
        settled_trans (settled_insert found (settle_of_abort _ job) g) (settled g),
        fun g before => cleared g (cleared_step pending before),
        fun g free => (others g (unnamed_rest free)).trans (unnamed_insert free)⟩

theorem commitStopAll_effect {s : State} (inv : Invariant s) (items : List StopAllItem)
    (clock : Generation → Int) (out : items ∈ s.stopAlls) :
    Effect s (.commitStopAll items clock) .done (commitStopAll s items clock) := by
  have held := inv.registry.stopAllHeld.mpr (List.ne_nil_of_mem out)
  have active := inv.registry.active_of_stopAll out
  obtain ⟨arena, target, settled, cleared, others, delivered⟩ :=
    commitItems_effect s clock (promisesAll items) items s rfl (fun g => settled_refl _)
      (fun item member transition => ⟨item, member, rfl, transition, rfl⟩)
  unfold commitStopAll
  simp only [held, active, Bool.true_eq_false, or_self, if_false]
  rw [pushDelivery_eq, target]
  refine .resolveStopAll _ items clock (promisesAll items) arena _ out (.inl ⟨rfl, rfl⟩)
    ⟨settled, fun g captured => cleared g (.inl captured), others, ?_⟩
  split
  · exact .inl rfl
  · exact .inr ⟨_, rfl, delivered⟩

theorem abortStopAll_effect {s : State} (inv : Invariant s) (items : List StopAllItem)
    (clock : Generation → Int) (out : items ∈ s.stopAlls) :
    Effect s (.abortStopAll items clock) .done (abortStopAll s items clock) := by
  have held := inv.registry.stopAllHeld.mpr (List.ne_nil_of_mem out)
  have active := inv.registry.active_of_stopAll out
  obtain ⟨arena, target, settled, cleared, others⟩ := abortItems_effect clock items s
  unfold abortStopAll
  simp only [held, active, Bool.true_eq_false, or_self, if_false]
  rw [target]
  exact .resolveStopAll _ items clock noPromise arena s.calls out (.inr ⟨rfl, rfl⟩)
    ⟨settled, fun g captured => cleared g (.inl captured), others, .inl rfl⟩

theorem deliver_effect (s : State) (g : Generation) (rest : List Generation)
    (sweeping : Bool) :
    Effect s (.deliver g rest sweeping) (applyDeliver s g rest sweeping).2
      (applyDeliver s g rest sweeping).1 := by
  unfold applyDeliver
  split
  · rename_i job found
    split
    · rename_i out
      simp only
      refine .touch _ _ g job _ _ found (.deliver rest sweeping _ out ?_ ?_)
      · intro targets more member
        split at member
        · split at member
          · rcases List.mem_cons.mp member with same | member
            · cases same
            · exact .inr (List.mem_of_mem_erase member)
          · exact .inr (List.mem_of_mem_erase member)
        · rcases List.mem_cons.mp member with same | member
          · cases same; exact .inl rfl
          · exact .inr (List.mem_of_mem_erase member)
      · intro member
        cases sweeping with
        | true => exact .inr rfl
        | false =>
          refine .inl (List.mem_of_mem_erase (b := Call.deliver (g :: rest) false) ?_)
          split at member
          · exact member
          · simpa using member
    · exact .idle _ _ rfl
  · exact .idle _ _ rfl

/-- The three ways an iteration of `initiate_shutdown` finds something to stop. -/
theorem sweepSlot_cases {s t : State} {slot : ConfigSlot} {elapsed : Int} {g : Generation}
    (h : sweepSlot s slot elapsed = some (t, g)) :
    (t = s ∧ slot.reserved = some g) ∨ ∃ job, slot.current = some g ∧
      s.arena.find? g = some job ∧
      (job.phase = .running ∧ t = { s with
          arena := s.arena.insert g (job.discardPendingProgress.markStopping
            (nextTimestamp elapsed job.snapshot.timestamp)) } ∨
        job.phase = .stopping ∧
          t = { s with arena := s.arena.insert g job.discardPendingProgress }) := by
  have ofReserved (found : (slot.reserved.bind (fun r => (s.arena.find? r).bind (fun job =>
      if job.stopRequested then none else some (s, r)))) = some (t, g)) :
      t = s ∧ slot.reserved = some g := by
    simp only [Option.bind_eq_some_iff] at found
    obtain ⟨r, reserved, job, _, picked⟩ := found
    split at picked
    · cases picked
    · cases picked
      exact ⟨rfl, reserved⟩
  unfold sweepSlot at h
  simp only at h
  split at h
  · exact .inl (ofReserved h)
  · rename_i p job current
    obtain ⟨current, found⟩ := current?_eq_some.mp current
    split at h
    · rename_i phase
      cases h
      exact .inr ⟨job, current, found, .inl ⟨phase, rfl⟩⟩
    · rename_i phase
      split at h
      · exact .inl (ofReserved h)
      · cases h
        exact .inr ⟨job, current, found, .inr ⟨phase, rfl⟩⟩
    · exact .inl (ofReserved h)

theorem sweep_effect (s : State) (configId : ConfigId) (elapsed : Int) :
    Effect s (.sweep configId elapsed) (applySweep s configId elapsed).2
      (applySweep s configId elapsed).1 := by
  unfold applySweep
  split
  · rename_i t g found
    obtain ⟨slot, present, swept⟩ := Option.bind_eq_some_iff.mp found
    split
    · rename_i out
      rcases sweepSlot_cases swept with ⟨rfl, reserved⟩ |
        ⟨job, current, known, ⟨phase, rfl⟩ | ⟨phase, rfl⟩⟩
      · exact .sweepReserved configId elapsed slot g out present reserved
      · exact .touch _ _ g job _ _ known
          (.sweepRunning configId elapsed out ⟨slot, present, current⟩ phase)
      · exact .touch _ _ g job _ _ known
          (.sweepStopping configId elapsed out ⟨slot, present, current⟩ phase)
    · exact .idle _ _ rfl
  · exact .idle _ _ rfl

theorem report_effect (s : State) (g : Generation) (progress : RuntimeTaskProgress)
    (elapsed : Int) : Effect s (.report g progress elapsed)
      (applyReport s g progress elapsed).2 (applyReport s g progress elapsed).1 := by
  unfold applyReport
  split
  · rename_i job found
    unfold report
    split
    · exact .idle _ _ rfl
    · split
      · exact .idle _ _ rfl
      · rename_i live
        split
        · rename_i stages
          exact .touch _ _ g job _ _ found (.stage progress elapsed live stages)
        · rename_i direct
          exact .touch _ _ g job _ _ found
            (.publish progress elapsed live (Bool.not_eq_true _ ▸ direct))
  · exact .idle _ _ rfl

theorem worker_effect {s : State} {op : Op} {g : Generation} {ready : Job → Bool}
    {change : Job → Job} (touch : ∀ job, ready job = true →
      Touch s g job op .done (change job) s.calls) :
    Effect s op (onWorker s g ready change).2 (onWorker s g ready change).1 := by
  rcases onWorker_cases s g ready change with same | ⟨job, found, isReady, same⟩
  · rw [same]; exact .idle _ _ rfl
  · rw [same]; exact .touch _ _ g job _ _ found (touch job isReady)

theorem applyLive_effect {s : State} (inv : Invariant s) (op : Op) :
    Effect s op (applyLive s op).2 (applyLive s op).1 := by
  cases op with
  | prepareStart request publishThreadFailure elapsed thread =>
    exact prepareStart_effect inv request publishThreadFailure elapsed thread
  | finishPreparation g => exact finishPreparation_effect inv g
  | commitReservation g elapsed => exact commitReservation_effect inv g elapsed
  | deliverBeforeRelease g => exact deliverBeforeRelease_effect s g
  | releaseGate g => exact releaseGate_effect inv g
  | cancelReservation g => exact cancelReservation_effect inv g
  | cancelGate g => exact cancelGate_effect inv g
  | finishCancel g => exact finishCancel_effect inv g
  | prepareStop configId elapsed => exact prepareStop_effect configId elapsed
  | commitStop r elapsed =>
    simp only [applyLive]
    split
    · rename_i out
      exact commitStop_effect inv r elapsed out
    · exact .idle _ _ rfl
  | abortStop r elapsed =>
    simp only [applyLive]
    split
    · rename_i out
      exact abortStop_effect inv r elapsed out
    · exact .idle _ _ rfl
  | requestStopAfterShutdown configId elapsed =>
    simp only [applyLive]
    split
    · exact .idle _ _ rfl
    · rename_i closed
      exact requestStopAfterShutdown_effect (Bool.not_eq_true _ ▸ closed) configId elapsed
  | prepareStopAll clock => exact prepareStopAll_effect s clock
  | commitStopAll items clock =>
    simp only [applyLive]
    split
    · rename_i out
      exact commitStopAll_effect inv items clock out
    · exact .idle _ _ rfl
  | abortStopAll items clock =>
    simp only [applyLive]
    split
    · rename_i out
      exact abortStopAll_effect inv items clock out
    · exact .idle _ _ rfl
  | deliver g rest sweeping => exact deliver_effect s g rest sweeping
  | finishPreparing g prepared =>
    exact worker_effect (fun _ ready => .finishPreparing prepared ready)
  | enterBackend g =>
    refine worker_effect (fun job ready => ?_)
    have ready : job.worker = .waiting ∧ job.gate = .committed := by simpa using ready
    exact .enterBackend ready.1 ready.2
  | leaveGate g =>
    refine worker_effect (fun job ready => ?_)
    have ready : job.worker = .waiting ∧ job.gate = .cancelled := by simpa using ready
    exact .leaveGate ready.1 ready.2
  | report g progress elapsed => exact report_effect s g progress elapsed
  | complete g terminal elapsed =>
    exact worker_effect (fun _ ready => .complete terminal elapsed (by simpa using ready))
  | closeAdmission => exact .close
  | sweep configId elapsed => exact sweep_effect s configId elapsed
  | endSweep =>
    simp only [applyLive]
    split
    · exact .endSweep
    · exact .idle _ _ rfl

theorem effect_of_step {s t : State} {l : Section} (inv : Invariant s)
    (h : ownerSystem.step s l t) : Effect s l.op l.outcome t := by
  have same : apply s l.op = applyLive s l.op := by
    simp only [apply, inv.registry.alive, Bool.false_eq_true, if_false]
  have effect := applyLive_effect inv l.op
  rw [← same, show apply s l.op = (t, l.outcome) from h] at effect
  exact effect

end Baas.RuntimeTaskOwner
