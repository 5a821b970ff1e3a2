import Baas.Runtime.TaskOwnerInvariant

/-! What a prepared stop holds on to: the current job of its config stays the one it
captured, and progress is only ever staged behind such a stop. -/
namespace Baas.RuntimeTaskOwner

open Transition

/-- The reports of the job are held back by this registry. -/
def StagesIn (jobs : OrderedMap ConfigId ConfigSlot) (stopAllReserved : Bool)
    (configId : ConfigId) (g : Generation) : Prop :=
  ∃ slot, jobs.find? configId = some slot ∧ slot.current = some g ∧
    (slot.stopReserved = true ∨ stopAllReserved = true)

theorem stagesProgress_iff {s : State} {g : Generation} {job : Job} :
    stagesProgress s g job = true ↔
      StagesIn s.jobs s.stopAllReserved job.snapshot.configId g := by
  unfold stagesProgress StagesIn
  split
  · rename_i slot found
    simp [found]
  · rename_i absent
    simp [absent]

structure Captured (s : State) : Prop where
  named : ∀ g job, s.arena.find? g = some job → job.generation = g
  stopCaptures : ∀ r ∈ s.stops, ∀ slot, s.jobs.find? r.configId = some slot →
    slot.current = r.job
  stopNamed : ∀ r ∈ s.stops, ∀ g, r.job = some g → r.generation = g
  allCaptures : ∀ items ∈ s.stopAlls, ∀ configId g, s.IsCurrent configId g →
    ∃ item ∈ items, item.job = g
  allCurrent : ∀ items ∈ s.stopAlls, ∀ item ∈ items,
    item.generation = item.job ∧ ∃ configId, s.IsCurrent configId item.job
  pendingStaged : ∀ g job, s.arena.find? g = some job → job.pendingProgress ≠ none →
    StagesIn s.jobs s.stopAllReserved job.snapshot.configId g ∧ job.phase ≠ .completed

theorem Settle.pending {promised : Timestamp → Prop} {job job' : Job}
    (settle : Settle promised job job') : job'.pendingProgress = none := by
  cases settle with
  | discard => rfl
  | publish elapsed _ _ => exact publish_pending job elapsed
  | stop => rfl

/-- A settlement leaves the job alone or with nothing staged. -/
theorem unsettled_or_cleared {promised : Timestamp → Prop} {job job' : Job}
    (settles : Relation.ReflTransGen (Settle promised) job job') :
    job' = job ∨ job'.pendingProgress = none := by
  cases settles with
  | refl => exact .inl rfl
  | tail _ settle => exact .inr settle.pending

theorem Touch.named {s : State} {g : Generation} {job job' : Job} {op : Op}
    {outcome : Outcome} {calls : List Call} (touch : Touch s g job op outcome job' calls) :
    job'.generation = job.generation := by
  cases touch <;> rfl

/-- Only a report behind a prepared stop stages anything. -/
theorem Touch.pending {s : State} {g : Generation} {job job' : Job} {op : Op}
    {outcome : Outcome} {calls : List Call} (touch : Touch s g job op outcome job' calls)
    (pending : job'.pendingProgress ≠ none)
    (before : job.pendingProgress ≠ none →
      StagesIn s.jobs s.stopAllReserved job.snapshot.configId g ∧ job.phase ≠ .completed) :
    StagesIn s.jobs s.stopAllReserved job.snapshot.configId g ∧ job'.phase ≠ .completed := by
  cases touch with
  | stage progress elapsed live stages => exact ⟨stagesProgress_iff.mp stages, live⟩
  | complete => exact absurd rfl pending
  | sweepRunning => exact absurd rfl pending
  | sweepStopping => exact absurd rfl pending
  | stopAfterShutdown => exact ⟨(before pending).1, by simp [Job.markStopping]⟩
  | finishPreparing => exact before pending
  | enterBackend => exact before pending
  | leaveGate => exact before pending
  | publish => exact before pending
  | deliver => exact before pending

/-- Nothing is staged for a job whose config has no prepared stop. -/
theorem Captured.unstaged {s : State} (cap : Captured s) {g : Generation} {job : Job}
    (found : s.arena.find? g = some job)
    (free : ¬ StagesIn s.jobs s.stopAllReserved job.snapshot.configId g) :
    job.pendingProgress = none := by
  by_contra pending
  exact free (cap.pendingStaged g job found pending).1

/-- Staging only looks at the current job and the gate of a slot. -/
theorem StagesIn.mono {jobs jobs' : OrderedMap ConfigId ConfigSlot} {all all' : Bool}
    {configId : ConfigId} {g : Generation} (stages : StagesIn jobs all configId g)
    (slots : ∀ slot, jobs.find? configId = some slot → slot.current = some g →
      ∃ slot', jobs'.find? configId = some slot' ∧ slot'.current = some g ∧
        (slot.stopReserved = true → slot'.stopReserved = true ∨ all' = true))
    (gate : all = true → all' = true) : StagesIn jobs' all' configId g := by
  obtain ⟨slot, found, current, held⟩ := stages
  obtain ⟨slot', found', current', kept⟩ := slots slot found current
  refine ⟨slot', found', current', ?_⟩
  rcases held with held | held
  · exact kept held
  · exact .inr (gate held)

theorem calm_of_start {s : State} (reg : Registry s) {g : Generation} {point : StartPoint}
    (held : s.starts.find? g = some point) : s.stopAllReserved = false := by
  by_contra busy
  have all := reg.stopAllHeld.mp (by simpa using busy)
  have := OrderedMap.size_pos held
  have := (reg.stopAllAlone all).1
  omega

theorem calm_of_stop {s : State} (reg : Registry s) {r : StopReservation} (out : r ∈ s.stops) :
    s.stopAllReserved = false := by
  by_contra busy
  have none := (reg.stopAllAlone (reg.stopAllHeld.mp (by simpa using busy))).2.1
  rw [none] at out
  cases out

theorem calm_iff {s : State} (reg : Registry s) : s.stopAllReserved = false ↔ s.stopAlls = [] := by
  rw [← Bool.not_eq_true, reg.stopAllHeld, not_not]

/-- Captures do not depend on the rest of the state. -/
theorem Captured.frame {s t : State} (cap : Captured s) (arena : t.arena = s.arena)
    (jobs : t.jobs = s.jobs) (stops : t.stops = s.stops) (stopAlls : t.stopAlls = s.stopAlls)
    (gate : t.stopAllReserved = s.stopAllReserved) : Captured t where
  named := arena ▸ cap.named
  stopCaptures := by rw [stops, jobs]; exact cap.stopCaptures
  stopNamed := stops ▸ cap.stopNamed
  allCaptures := by unfold State.IsCurrent; rw [stopAlls, jobs]; exact cap.allCaptures
  allCurrent := by unfold State.IsCurrent; rw [stopAlls, jobs]; exact cap.allCurrent
  pendingStaged := by rw [arena, jobs, gate]; exact cap.pendingStaged

/-- The captures survive a change of the arena alone. -/
theorem Captured.arena {s : State} (cap : Captured s) {arena : OrderedMap Generation Job}
    (named : ∀ g job, arena.find? g = some job → job.generation = g)
    (pendingStaged : ∀ g job, arena.find? g = some job → job.pendingProgress ≠ none →
      StagesIn s.jobs s.stopAllReserved job.snapshot.configId g ∧ job.phase ≠ .completed) :
    Captured { s with arena } :=
  { cap with named, pendingStaged }

theorem Captured.insert {s : State} (cap : Captured s) {g : Generation} {job' : Job}
    (named : job'.generation = g)
    (pendingStaged : job'.pendingProgress ≠ none →
      StagesIn s.jobs s.stopAllReserved job'.snapshot.configId g ∧ job'.phase ≠ .completed) :
    Captured { s with arena := s.arena.insert g job' } := by
  refine cap.arena ?_ ?_
  · intro g' other found
    rw [OrderedMap.find?_insert] at found
    split at found
    · rename_i same
      cases found
      exact named.trans same
    · exact cap.named g' other found
  · intro g' other found
    rw [OrderedMap.find?_insert] at found
    split at found
    · rename_i same
      cases found
      exact same ▸ pendingStaged
    · exact cap.pendingStaged g' other found

theorem Captured.relabel {s : State} (cap : Captured s) {g : Generation} {job job' : Job}
    (found : s.arena.find? g = some job) (named : job'.generation = job.generation)
    (config : job'.snapshot.configId = job.snapshot.configId) (phase : job'.phase = job.phase)
    (pending : job'.pendingProgress = job.pendingProgress) :
    Captured { s with arena := s.arena.insert g job' } := by
  refine cap.insert (named.trans (cap.named g job found)) ?_
  rw [config, phase, pending]
  exact cap.pendingStaged g job found

/-- A slot without a prepared stop changes, while no stop-all is prepared. -/
theorem Captured.slot {s : State} (cap : Captured s) (reg : Registry s)
    (calm : s.stopAllReserved = false) {configId : ConfigId}
    {jobs : OrderedMap ConfigId ConfigSlot}
    (elsewhere : ∀ key, key ≠ configId → jobs.find? key = s.jobs.find? key)
    (free : ∀ slot, s.jobs.find? configId = some slot → slot.stopReserved = false) :
    Captured { s with jobs } := by
  have none := (calm_iff reg).mp calm
  refine
    { cap with
      stopCaptures := ?_
      allCaptures := by simp [none]
      allCurrent := by simp [none]
      pendingStaged := ?_ }
  · intro r out slot found
    obtain ⟨old, present, held⟩ := reg.stopHeld r out
    have other : r.configId ≠ configId := by
      intro same
      rw [same] at present
      cases (free old present).symm.trans held
    exact cap.stopCaptures r out slot ((elsewhere _ other).symm.trans found)
  · intro g job found pending
    obtain ⟨⟨slot, present, current, held⟩, live⟩ := cap.pendingStaged g job found pending
    have held : slot.stopReserved = true := held.resolve_right (by simp [calm])
    have other : job.snapshot.configId ≠ configId := by
      intro same
      rw [same] at present
      cases (free slot present).symm.trans held
    exact ⟨⟨slot, (elsewhere _ other).trans present, current, .inl held⟩, live⟩

theorem captureStop_job (configId : ConfigId) (elapsed : Int)
    (current : Option (Generation × Job)) :
    (captureStop configId elapsed current).2.2.job = current.map Prod.fst := by
  unfold captureStop
  split
  · rfl
  · split <;> rfl

theorem captureStop_generation {configId : ConfigId} {elapsed : Int} {g : Generation}
    {current : Option (Generation × Job)}
    (captures : (captureStop configId elapsed current).2.2.job = some g) :
    ∃ job, current = some (g, job) ∧
      (captureStop configId elapsed current).2.2.generation = job.generation := by
  unfold captureStop at captures ⊢
  split at captures
  · cases captures
  · rename_i g' job
    have same : g' = g := by split at captures <;> exact Option.some.inj captures
    subst same
    refine ⟨job, rfl, ?_⟩
    simp only
    split <;> rfl

theorem FreeSlot.current?_fst {s : State} (reg : Registry s) {configId : ConfigId}
    {slot : ConfigSlot} (free : FreeSlot s configId slot) :
    (s.current? slot).map Prod.fst = slot.current := by
  cases current : slot.current with
  | none => simp [State.current?, current]
  | some g =>
    have present := free.current current
    obtain ⟨job, found, _⟩ := reg.currentKnown configId slot g present current
    rw [current?_eq_some.mpr ⟨current, found⟩]
    rfl

theorem mem_currents {s : State} {g : Generation} {job : Job} :
    (g, job) ∈ s.currents ↔
      (∃ configId, s.IsCurrent configId g) ∧ s.arena.find? g = some job := by
  unfold State.currents State.IsCurrent
  simp only [List.mem_filterMap]
  constructor
  · rintro ⟨⟨configId, slot⟩, listed, current⟩
    obtain ⟨current, found⟩ := current?_eq_some.mp current
    exact ⟨⟨configId, slot, OrderedMap.mem_toList_iff.mp listed, current⟩, found⟩
  · rintro ⟨⟨configId, slot, present, current⟩, found⟩
    exact ⟨(configId, slot), OrderedMap.mem_toList_iff.mpr present,
      current?_eq_some.mpr ⟨current, found⟩⟩

theorem captureItem_fst (clock : Generation → Int) (g : Generation) (job : Job) :
    (captureItem clock g job).1.job = g ∧
      (captureItem clock g job).1.generation = job.generation := by
  unfold captureItem
  split <;> exact ⟨rfl, rfl⟩

theorem mem_capturedItems {s : State} {clock : Generation → Int} {item : StopAllItem} :
    item ∈ capturedItems s clock ↔ ∃ g job, (g, job) ∈ s.currents ∧
      (captureItem clock g job).1 = item := by
  unfold capturedItems
  simp only [List.mem_map, Prod.exists]

theorem Captured.reserveStop {s : State} (cap : Captured s) (reg : Registry s)
    {configId : ConfigId} {elapsed : Int} {slot : ConfigSlot}
    (free : FreeSlot s configId slot) (calm : s.stopAllReserved = false) :
    Captured { s with
      jobs := s.jobs.insert configId { slot with stopReserved := true }
      stops := (captureStop configId elapsed (s.current? slot)).2.2 :: s.stops } := by
  have none := (calm_iff reg).mp calm
  have config := captureStop_config configId elapsed (s.current? slot)
  have captures := captureStop_job configId elapsed (s.current? slot)
  have apart : ∀ r ∈ s.stops, configId ≠ r.configId := by
    intro r out same
    obtain ⟨old, present, held⟩ := reg.stopHeld r out
    rw [← same] at present
    rw [free.unique present, free.gate] at held
    cases held
  refine
    { named := cap.named
      stopCaptures := ?_
      stopNamed := ?_
      allCaptures := by simp [none]
      allCurrent := by simp [none]
      pendingStaged := ?_ }
  · intro r member slot' found
    rcases List.mem_cons.mp member with rfl | out
    · rw [config, OrderedMap.find?_insert_self] at found
      cases found
      exact (captures.trans (free.current?_fst reg)).symm
    · rw [OrderedMap.find?_insert_ne _ _ (apart r out)] at found
      exact cap.stopCaptures r out slot' found
  · intro r member g names
    rcases List.mem_cons.mp member with rfl | out
    · obtain ⟨job, current, generation⟩ := captureStop_generation names
      exact generation.trans (cap.named g job (current?_eq_some.mp current).2)
    · exact cap.stopNamed r out g names
  · intro g job found pending
    obtain ⟨stages, live⟩ := cap.pendingStaged g job found pending
    refine ⟨stages.mono (fun old present current => ?_) id, live⟩
    by_cases here : configId = job.snapshot.configId
    · rw [← here] at present
      rw [← here, OrderedMap.find?_insert_self]
      cases free.unique present
      exact ⟨_, rfl, current, fun _ => .inl rfl⟩
    · exact ⟨old, (OrderedMap.find?_insert_ne _ _ here).trans present, current, .inl⟩

theorem Captured.resolveStop {s : State} (cap : Captured s) (reg : Registry s)
    {r : StopReservation} {slot : ConfigSlot} {promised : Generation → Timestamp → Prop}
    {arena : OrderedMap Generation Job} {calls : List Call} (out : r ∈ s.stops)
    (present : s.jobs.find? r.configId = some slot)
    (resolution : Resolution s (r.job = some ·) promised arena calls) :
    Captured { s with
      jobs :=
        if slot.current.isNone && slot.reserved.isNone then s.jobs.erase r.configId
        else s.jobs.insert r.configId { slot with stopReserved := false }
      stops := s.stops.erase r
      arena } := by
  have calm := calm_of_stop reg out
  have none := (calm_iff reg).mp calm
  have putBack := fun key found => find?_putBack s.jobs r.configId key
    { slot with stopReserved := false } found (slot.current.isNone && slot.reserved.isNone)
  refine
    { named := ?_
      stopCaptures := ?_
      stopNamed := ?_
      allCaptures := by simp [none]
      allCurrent := by simp [none]
      pendingStaged := ?_ }
  · intro g job' found'
    have settled := resolution.settled g
    rw [found'] at settled
    generalize found : s.arena.find? g = before at settled
    cases settled with
    | some steps => exact (quiet_of_settles steps).generation.trans (cap.named g _ found)
  · intro r' member slot' found
    obtain ⟨out', other⟩ := (reg.other_stop out).mp member
    rcases (putBack _ _).mp found with ⟨same, _⟩ | ⟨_, found⟩
    · exact absurd same.symm other
    · exact cap.stopCaptures r' out' slot' found
  · intro r' member g names
    exact cap.stopNamed r' (List.mem_of_mem_erase member) g names
  · intro g job' found' pending
    have settled := resolution.settled g
    rw [found'] at settled
    generalize found : s.arena.find? g = before at settled
    cases settled with
    | some steps =>
      rename_i job
      rcases unsettled_or_cleared steps with rfl | cleared
      · obtain ⟨⟨slot', present', current, held⟩, live⟩ := cap.pendingStaged g _ found pending
        have other : job'.snapshot.configId ≠ r.configId := by
          intro same
          rw [same, present] at present'
          cases present'
          have captures := (cap.stopCaptures r out slot present).symm.trans current
          exact pending (resolution.cleared g captures job' found')
        refine ⟨⟨slot', (putBack _ _).mpr (.inr ⟨other, present'⟩), current, held⟩, live⟩
      · exact absurd cleared pending

theorem Captured.reserveStopAll {s : State} (cap : Captured s) (reg : Registry s)
    (calm : s.stopAllReserved = false) (clock : Generation → Int) :
    Captured { s with
      stopAllReserved := true
      stopAlls := capturedItems s clock :: s.stopAlls } := by
  have none := (calm_iff reg).mp calm
  refine
    { cap with
      allCaptures := ?_
      allCurrent := ?_
      pendingStaged := ?_ }
  · intro items member configId g current
    rw [none] at member
    cases List.mem_singleton.mp member
    obtain ⟨slot, present, here⟩ := current
    obtain ⟨job, found, _⟩ := reg.currentKnown configId slot g present here
    exact ⟨_, mem_capturedItems.mpr
      ⟨g, job, mem_currents.mpr ⟨⟨configId, slot, present, here⟩, found⟩, rfl⟩,
      (captureItem_fst clock g job).1⟩
  · intro items member item listed
    rw [none] at member
    cases List.mem_singleton.mp member
    obtain ⟨g, job, current, rfl⟩ := mem_capturedItems.mp listed
    obtain ⟨⟨configId, slot, present, here⟩, found⟩ := mem_currents.mp current
    obtain ⟨sameJob, sameGeneration⟩ := captureItem_fst clock g job
    rw [sameJob, sameGeneration]
    exact ⟨cap.named g job found, configId, slot, present, here⟩
  · intro g job found pending
    obtain ⟨stages, live⟩ := cap.pendingStaged g job found pending
    exact ⟨stages.mono (fun slot present current => ⟨slot, present, current, .inl⟩)
      (fun _ => rfl), live⟩

theorem Captured.resolveStopAll {s : State} (cap : Captured s) (reg : Registry s)
    {items : List StopAllItem} {promised : Generation → Timestamp → Prop}
    {arena : OrderedMap Generation Job} {calls : List Call} (out : items ∈ s.stopAlls)
    (resolution : Resolution s (fun g => ∃ item ∈ items, item.job = g) promised arena calls) :
    Captured { s with
      stopAllReserved := false
      stopAlls := s.stopAlls.erase items
      arena } := by
  obtain ⟨_, noStop, one⟩ := reg.stopAllAlone (List.ne_nil_of_mem out)
  have empty : s.stopAlls.erase items = [] :=
    List.eq_nil_of_length_eq_zero (by rw [List.length_erase_of_mem out, one])
  refine
    { named := ?_
      stopCaptures := cap.stopCaptures
      stopNamed := cap.stopNamed
      allCaptures := by simp [empty]
      allCurrent := by simp [empty]
      pendingStaged := ?_ }
  · intro g job' found'
    have settled := resolution.settled g
    rw [found'] at settled
    generalize found : s.arena.find? g = before at settled
    cases settled with
    | some steps => exact (quiet_of_settles steps).generation.trans (cap.named g _ found)
  · intro g job' found' pending
    have settled := resolution.settled g
    rw [found'] at settled
    generalize found : s.arena.find? g = before at settled
    cases settled with
    | some steps =>
      rcases unsettled_or_cleared steps with rfl | cleared
      · obtain ⟨⟨slot, present, current, _⟩, _⟩ := cap.pendingStaged g _ found pending
        have captured := cap.allCaptures items out _ g ⟨slot, present, current⟩
        exact absurd (resolution.cleared g captured job' found') pending
      · exact absurd cleared pending

theorem FreeSlot.gates {s : State} {configId : ConfigId} {slot : ConfigSlot}
    (free : FreeSlot s configId slot) (old : ConfigSlot)
    (present : s.jobs.find? configId = some old) : old.stopReserved = false := by
  rw [free.unique present]
  exact free.gate

theorem installed_pending (s : State) (job : Job) (elapsed : Int) :
    (installedJob s job elapsed).pendingProgress = job.pendingProgress := by
  unfold installedJob
  split <;> rfl

theorem installed_generation (s : State) (job : Job) (elapsed : Int) :
    (installedJob s job elapsed).generation = job.generation := by
  unfold installedJob
  split <;> rfl

/-- A job whose reservation is out has nothing staged. -/
theorem Captured.start_unstaged {s : State} (cap : Captured s) (inv : Invariant s)
    {g : Generation} {job : Job} {point : StartPoint} (found : s.arena.find? g = some job)
    (held : s.starts.find? g = some point) : job.pendingProgress = none := by
  by_contra pending
  have stage := inv.staged g job found
  rw [held] at stage
  exact (cap.pendingStaged g job found pending).2 stage.of_start.2.1

theorem captured_of_effect {s t : State} (inv : Invariant s) (cap : Captured s) {op : Op}
    {outcome : Outcome} (effect : Effect s op outcome t) : Captured t := by
  have reg := inv.registry
  cases effect with
  | idle => exact cap
  | touch op outcome g job job' calls found touch =>
    have config := touch.fades.1
    have named := touch.named.trans (cap.named g job found)
    refine (cap.insert named fun pending => ?_).frame rfl rfl rfl rfl rfl
    rw [config]
    exact touch.pending pending (cap.pendingStaged g job found)
  | sweepReserved => exact cap.frame rfl rfl rfl rfl rfl
  | endSweep => exact cap.frame rfl rfl rfl rfl rfl
  | close => exact cap.frame rfl rfl rfl rfl rfl
  | reserve request _ elapsed slot previous _ calm free _ _ =>
    have slotted := cap.slot reg calm (fun key other =>
      OrderedMap.find?_insert_ne s.jobs { slot with reserved := some s.nextJobGeneration }
        (Ne.symm other)) free.gates
    have inserted := slotted.insert (g := s.nextJobGeneration)
      (show (reservedJob s request previous elapsed).generation = _ from rfl)
      (fun pending => absurd rfl pending)
    exact inserted.frame rfl rfl rfl rfl rfl
  | threadFailed request _ elapsed failElapsed slot previous jobs _ _ calm free _ _ table =>
    have elsewhere (key : ConfigId) (other : key ≠ request.configId) :
        jobs.find? key = s.jobs.find? key := by
      rcases table with ⟨_, rfl⟩ | ⟨_, _, rfl⟩ | ⟨_, _, rfl⟩
      · exact OrderedMap.find?_insert_ne _ _ other.symm
      · exact OrderedMap.find?_erase_ne _ other.symm
      · exact OrderedMap.find?_insert_ne _ _ other.symm
    have inserted := (cap.slot reg calm elsewhere free.gates).insert (g := s.nextJobGeneration)
      (show (failedJob s request previous elapsed failElapsed).generation = _ from rfl)
      (fun pending => absurd rfl pending)
    exact inserted.frame rfl rfl rfl rfl rfl
  | prepared => exact cap.frame rfl rfl rfl rfl rfl
  | dropped op outcome g job slot point found held present reserved _ =>
    have elsewhere (key : ConfigId) (other : key ≠ job.snapshot.configId) :
        (s.releaseReserved job.snapshot.configId slot).jobs.find? key = s.jobs.find? key := by
      unfold State.releaseReserved
      simp only
      split
      · exact OrderedMap.find?_erase_ne _ other.symm
      · exact OrderedMap.find?_insert_ne _ _ other.symm
    refine (cap.slot reg (calm_of_start reg held) elsewhere fun old present' => ?_).frame
      rfl rfl rfl rfl rfl
    cases present.symm.trans present'
    exact reg.oneGate _ _ present (by simp [reserved])
  | commit g job slot elapsed found held present reserved =>
    have slotted := cap.slot reg (calm_of_start reg held) (fun key other =>
      OrderedMap.find?_insert_ne s.jobs { slot with current := some g, reserved := none }
        (Ne.symm other)) (fun old present' => by
      cases present.symm.trans present'
      exact reg.oneGate _ _ present (by simp [reserved]))
    have named := (installed_generation s job elapsed).trans (cap.named g job found)
    refine (slotted.insert named fun pending => ?_).frame rfl rfl rfl rfl rfl
    rw [installed_pending] at pending
    exact absurd (cap.start_unstaged inv found held) pending
  | deliverBeforeRelease g job found =>
    refine (cap.relabel found ?_ ?_ ?_ ?_).frame rfl rfl rfl rfl rfl <;> rfl
  | release g job found =>
    refine (cap.relabel found ?_ ?_ ?_ ?_).frame rfl rfl rfl rfl rfl <;> rfl
  | cancel => exact cap.frame rfl rfl rfl rfl rfl
  | cancelGate g job found =>
    refine (cap.relabel found ?_ ?_ ?_ ?_).frame rfl rfl rfl rfl rfl <;> rfl
  | reserveStop configId elapsed slot _ calm free =>
    exact (cap.reserveStop reg free calm).frame rfl rfl rfl rfl rfl
  | resolveStop op r elapsed slot promised arena calls out present _ _ resolution =>
    exact (cap.resolveStop reg out present resolution).frame rfl rfl rfl rfl rfl
  | reserveStopAll clock _ calm _ =>
    exact (cap.reserveStopAll reg calm clock).frame rfl rfl rfl rfl rfl
  | resolveStopAll op items clock promised arena calls out _ resolution =>
    exact (cap.resolveStopAll reg out resolution).frame rfl rfl rfl rfl rfl

theorem captured_initial (limits : RuntimeTaskLimits) : Captured { limits } where
  named _ _ found := by cases found
  stopCaptures _ out := by cases out
  stopNamed _ out := by cases out
  allCaptures _ out := by cases out
  allCurrent _ out := by cases out
  pendingStaged _ _ found := by cases found

abbrev History := List (Event State Section)

theorem captured_of_run {es : History} {s : State} (run : Run ownerSystem es s) :
    Invariant s ∧ Captured s := by
  refine run.invariant (fun s => Invariant s ∧ Captured s) ?_ ?_
  · rintro s ⟨limits, _, rfl⟩
    exact ⟨invariant_initial limits, captured_initial limits⟩
  · rintro s l t ⟨inv, cap⟩ step
    have effect := effect_of_step inv step
    exact ⟨invariant_of_effect inv effect, captured_of_effect inv cap effect⟩

end Baas.RuntimeTaskOwner
