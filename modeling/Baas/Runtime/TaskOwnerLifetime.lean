import Baas.Runtime.TaskOwnerAbort

/-! A generation from its commit to its terminal snapshot, in every run: the backend is
entered once or never, the phase only moves on, a stop reaches the generation it was
prepared against and an aborted one leaves no trace but the progress it held back. -/
namespace Baas.RuntimeTaskOwner

open Transition

theorem effect_of_mem {es : History} {s : State} (run : Run ownerSystem es s)
    {e : Event State Section} (member : e ∈ es) :
    Invariant e.source ∧ Effect e.source e.label.op e.label.outcome e.target := by
  obtain ⟨step, prior, reached⟩ := run.of_mem member
  have inv := invariant_of_run reached
  exact ⟨inv, effect_of_step inv step⟩

/-- A generation is committed while its reservation is out, so never again. -/
theorem uncommitted_of_commit {s t : State} (inv : Invariant s) {l : Section} {g : Generation}
    (effect : Effect s l.op l.outcome t) (commits : l.commits g = true) :
    committedIn s g = false := by
  obtain ⟨op, outcome⟩ := l
  cases effect with
  | idle _ _ idle => cases (idle_quiet idle g).2.symm.trans commits
  | touch _ _ g' job job' calls found touch => cases (touch.uncommitting g).1.symm.trans commits
  | dropped _ _ _ _ _ _ _ _ _ _ done =>
    rcases done with ⟨rfl, rfl, _⟩ | ⟨rfl, rfl, _⟩ <;> cases commits
  | commit g' job slot elapsed found held =>
    have same : g' = g := by simpa [Section.commits] using commits
    subst same
    have stage := inv.staged g' job found
    rw [held] at stage
    obtain ⟨uncommitted, _, gate⟩ := stage.of_start
    rcases gate with gate | ⟨gate, _⟩ <;> simp [committedIn, uncommitted, found, gate]
  | resolveStop _ _ _ _ _ _ _ _ _ _ kind _ =>
    rcases kind with ⟨rfl, _⟩ | ⟨rfl, _⟩ <;> cases commits
  | resolveStopAll _ _ _ _ _ _ _ kind _ =>
    rcases kind with ⟨rfl, _⟩ | ⟨rfl, _⟩ <;> cases commits
  | _ => cases commits

theorem commits_of_run {es : History} {s : State} (run : Run ownerSystem es s)
    (g : Generation) :
    es.countP (·.label.commits g) = if committedIn s g then 1 else 0 := by
  refine run.history
    (fun es s => es.countP (·.label.commits g) = if committedIn s g then 1 else 0) ?_ ?_
  · rintro s ⟨limits, _, rfl⟩
    rfl
  · intro es s l t prior once step
    have inv := invariant_of_run prior
    have effect := effect_of_step inv step
    rw [List.countP_append, once, List.countP_singleton, committedIn_of_effect inv effect g]
    cases commits : l.commits g with
    | false => simp
    | true => simp [uncommitted_of_commit inv effect commits]

/-- The committing thread and the worker get a committed start into its backend. -/
theorem own_run {es : History} {s : State} (run : Run ownerSystem es s) {g : Generation}
    (committed : committedIn s g = true) : ∃ ops, (∀ op ∈ ops, op ∈ ownOps g) ∧
      ops.length ≤ distance s g ∧ entered (play perform s ops).2 g = true := by
  induction left : distance s g using Nat.strongRecOn generalizing es s with
  | _ n ih =>
    have inv := invariant_of_run run
    cases waits : entered s g with
    | true => exact ⟨[], nofun, Nat.zero_le _, waits⟩
    | false =>
      obtain ⟨op, own, done, nearer⟩ := own_step inv committed waits
      have step := perform_step s op
      have effect := effect_of_step inv step
      have committed' : committedIn (perform s op).2 g = true := by
        rw [committedIn_of_effect inv effect g, committed, Bool.true_or]
      subst left
      obtain ⟨ops, owned, short, enters⟩ := ih _ nearer (run.step step) committed' rfl
      refine ⟨op :: ops, List.forall_mem_cons.mpr ⟨own, owned⟩, ?_, enters⟩
      rw [List.length_cons]
      exact Nat.succ_le_of_lt (Nat.lt_of_le_of_lt short nearer)

theorem committed_of_entered {s : State} {g : Generation} (enters : entered s g = true) :
    committedIn s g = true := by
  unfold entered at enters
  obtain ⟨job, found, passed⟩ := Option.any_eq_true _ _ |>.mp enters
  unfold Job.passed at passed
  have gate : job.gate = .committed := by
    simp only [Bool.and_eq_true, decide_eq_true_eq] at passed
    exact passed.1
  simp [committedIn, found, gate]

/-- A job that has completed, or will never begin, refuses every report. -/
theorem report_late {s : State} (inv : Invariant s) {g : Generation} {job : Job}
    (final : Over s g job) (progress : RuntimeTaskProgress) (elapsed : Int) :
    apply s (.report g progress elapsed) = (s, .reported false) := by
  obtain ⟨found, phase, _⟩ := final
  simp only [apply, inv.registry.alive, Bool.false_eq_true, if_false, applyLive, applyReport,
    found, report, phase, if_true]
  split <;> rfl

theorem over_of_complete {s t : State} (inv : Invariant s) {g : Generation}
    {terminal : RuntimeTaskTerminal} {elapsed : Int}
    (effect : Effect s (.complete g terminal elapsed) .done t) : ∃ job, Over t g job := by
  cases effect with
  | idle _ _ idle => cases idle
  | touch _ _ g' job next calls found touch =>
    cases touch with
    | complete _ _ executes =>
      refine ⟨_, OrderedMap.find?_insert_self _ _ _, rfl, ?_⟩
      exact ((inv.staged g job found).execute executes).1
  | dropped _ _ _ _ _ _ _ _ _ _ done => rcases done with ⟨h, _⟩ | ⟨h, _⟩ <;> cases h
  | resolveStop _ _ _ _ _ _ _ _ _ _ kind _ => rcases kind with ⟨h, _⟩ | ⟨h, _⟩ <;> cases h
  | resolveStopAll _ _ _ _ _ _ _ kind _ => rcases kind with ⟨h, _⟩ | ⟨h, _⟩ <;> cases h

theorem frozen_of_run {es : History} {s : State} (run : Run ownerSystem es s)
    {e : Event State Section} (member : e ∈ es) {g : Generation} {job : Job}
    (final : Over e.target g job) : ∃ job', Over s g job' ∧ job'.snapshot = job.snapshot := by
  induction run with
  | start _ => cases member
  | step prior step ih =>
    rcases List.mem_append.mp member with old | new
    · obtain ⟨job', final', same⟩ := ih old
      have inv := invariant_of_run prior
      obtain ⟨job'', final'', same'⟩ := over_of_effect inv (effect_of_step inv step) final'
      exact ⟨job'', final'', same'.trans same⟩
    · cases List.mem_singleton.mp new
      exact ⟨job, final, rfl⟩

/-- The stop was prepared by this event, against the job that was current then. -/
def PreparedBy (r : StopReservation) (e : Event State Section) : Prop :=
  (∃ elapsed result, e.label = ⟨.prepareStop r.configId elapsed, .stopPrepared result⟩ ∧
    result.reservation = some r) ∧ ∀ g, r.job = some g ↔ e.source.IsCurrent r.configId g

def AllPreparedBy (items : List StopAllItem) (e : Event State Section) : Prop :=
  (∃ clock result, e.label = ⟨.prepareStopAll clock, .stopAllPrepared result⟩ ∧
    result.reservation = some items) ∧ ∀ g, (∃ item ∈ items, item.job = g) ↔ ∃ configId, e.source.IsCurrent configId g

theorem FreeSlot.isCurrent_iff {s : State} {configId : ConfigId} {slot : ConfigSlot}
    (free : FreeSlot s configId slot) (g : Generation) :
    slot.current = some g ↔ s.IsCurrent configId g := by
  constructor
  · intro current
    exact ⟨slot, free.current current, current⟩
  · rintro ⟨slot', present, current⟩
    rwa [free.unique present] at current

theorem new_stop {s t : State} (inv : Invariant s) {l : Section}
    (effect : Effect s l.op l.outcome t) {r : StopReservation} (out : r ∈ t.stops) :
    r ∈ s.stops ∨ PreparedBy r ⟨s, l, t⟩ := by
  obtain ⟨op, outcome⟩ := l
  cases effect with
  | reserveStop configId elapsed slot _ _ free =>
    rcases List.mem_cons.mp out with rfl | out
    · refine .inr ⟨⟨elapsed, ⟨(captureStop configId elapsed (s.current? slot)).1,
        (captureStop configId elapsed (s.current? slot)).2.1, some _⟩, ?_, rfl⟩, fun g => ?_⟩
      · rw [captureStop_config]
      · rw [captureStop_config, captureStop_job, free.current?_fst inv.registry]
        exact free.isCurrent_iff g
    · exact .inl out
  | resolveStop => exact .inl (List.mem_of_mem_erase out)
  | _ => exact .inl out

theorem capturedItems_iff {s : State} (reg : Registry s) (clock : Generation → Int)
    (g : Generation) :
    (∃ item ∈ capturedItems s clock, item.job = g) ↔ ∃ configId, s.IsCurrent configId g := by
  constructor
  · rintro ⟨item, member, rfl⟩
    obtain ⟨g', job, listed, rfl⟩ := mem_capturedItems.mp member
    rw [(captureItem_fst clock g' job).1]
    exact (mem_currents.mp listed).1
  · rintro ⟨configId, current⟩
    obtain ⟨slot, present, here⟩ := current
    obtain ⟨job, found, _⟩ := reg.currentKnown configId slot g present here
    exact ⟨_, mem_capturedItems.mpr
      ⟨g, job, mem_currents.mpr ⟨⟨configId, slot, present, here⟩, found⟩, rfl⟩,
      (captureItem_fst clock g job).1⟩

theorem new_stopAll {s t : State} (inv : Invariant s) {l : Section}
    (effect : Effect s l.op l.outcome t) {items : List StopAllItem} (out : items ∈ t.stopAlls) :
    items ∈ s.stopAlls ∨ AllPreparedBy items ⟨s, l, t⟩ := by
  obtain ⟨op, outcome⟩ := l
  cases effect with
  | reserveStopAll clock accepting calm idle =>
    rcases List.mem_cons.mp out with rfl | out
    · refine .inr ⟨⟨clock, _, rfl, ?_⟩, capturedItems_iff inv.registry clock⟩
      simp [prepareStopAll, accepting, calm, idle, capturedItems]
    · exact .inl out
  | resolveStopAll => exact .inl (List.mem_of_mem_erase out)
  | _ => exact .inl out

theorem prepared_of_run {es : History} {s : State} (run : Run ownerSystem es s) :
    (∀ r ∈ s.stops, ∃ e ∈ es, PreparedBy r e) ∧
      ∀ items ∈ s.stopAlls, ∃ e ∈ es, AllPreparedBy items e := by
  refine run.history (fun es s => (∀ r ∈ s.stops, ∃ e ∈ es, PreparedBy r e) ∧
    ∀ items ∈ s.stopAlls, ∃ e ∈ es, AllPreparedBy items e) ?_ ?_
  · rintro s ⟨limits, _, rfl⟩
    exact ⟨by simp, by simp⟩
  · rintro es s l t prior ⟨stops, stopAlls⟩ step
    have inv := invariant_of_run prior
    have effect := effect_of_step inv step
    constructor
    · intro r out
      rcases new_stop inv effect out with old | new
      · obtain ⟨e, member, prepared⟩ := stops r old
        exact ⟨e, List.mem_append_left _ member, prepared⟩
      · exact ⟨_, List.mem_append_right _ (List.mem_singleton_self _), new⟩
    · intro items out
      rcases new_stopAll inv effect out with old | new
      · obtain ⟨e, member, prepared⟩ := stopAlls items old
        exact ⟨e, List.mem_append_left _ member, prepared⟩
      · exact ⟨_, List.mem_append_right _ (List.mem_singleton_self _), new⟩

/-- Once, after its commit, or never. -/
structure EntersOnce (es : History) (s : State) (g : Generation) : Prop where
  atMostOnce : entries g es ≤ 1
  commitsOnce : es.countP (·.label.commits g) ≤ 1
  onlyCommitted : entries g es = 1 → Committed g es
  reached : Committed g es → ∃ ops, (∀ op ∈ ops, op ∈ ownOps g) ∧ ops.length ≤ distance s g ∧
    entries g (es ++ (play perform s ops).1) = 1
  neverFarther : Committed g es → ∀ op, distance (apply s op).1 g ≤ distance s g
  rejected : Rejected g es → entries g es = 0 ∧ ¬ Committed g es

/-- From running over stopping to a terminal snapshot that nothing changes any more. -/
structure MovesOn (es : History) (s : State) (g : Generation) : Prop where
  phases : ∀ e ∈ es, ∀ job, e.source.arena.find? g = some job →
    ∃ job', e.target.arena.find? g = some job' ∧
      PhaseStep (e.label.commits g = true) job.phase job'.phase
  ends : ∀ e ∈ es, ∀ terminal elapsed, e.label = ⟨.complete g terminal elapsed, .done⟩ →
    ∃ job, Over e.target g job
  frozen : ∀ e ∈ es, ∀ job, Over e.target g job →
    ∃ job', Over s g job' ∧ job'.snapshot = job.snapshot
  late : ∀ job, Over s g job → ∀ progress elapsed,
    apply s (.report g progress elapsed) = (s, .reported false)

/-- A stop is prepared against a generation that stays the current one of its config, and
a token is only requested for what a stop or the shutdown came upon alive. -/
structure StopsExact (es : History) (s : State) : Prop where
  justified : ∀ g job, s.arena.find? g = some job → job.stopRequested = true → Justified g es
  prepared : ∀ r ∈ s.stops, ∃ e ∈ es, PreparedBy r e
  allPrepared : ∀ items ∈ s.stopAlls, ∃ e ∈ es, AllPreparedBy items e
  holds : ∀ r ∈ s.stops, ∀ g, r.job = some g ↔ s.IsCurrent r.configId g
  allHold : ∀ items ∈ s.stopAlls, ∀ g,
    (∃ item ∈ items, item.job = g) ↔ ∃ configId, s.IsCurrent configId g

/-- What aborting a prepared stop changes: it gives its reservation back and publishes
what was staged last. -/
structure AbortsExact (es : History) (s : State) : Prop where
  staged : ∀ g progress, pendingOf s g = some progress ↔ StagedLast es s g progress
  stop : ∀ r ∈ s.stops, ∀ elapsed, ∃ slot arena, s.jobs.find? r.configId = some slot ∧
    Publishes s (r.job = some ·) (fun _ => elapsed) arena ∧
    apply s (.abortStop r elapsed) = ({ s with
      jobs :=
        if slot.current.isNone && slot.reserved.isNone then s.jobs.erase r.configId
        else s.jobs.insert r.configId { slot with stopReserved := false }
      activeReservations := s.activeReservations - 1
      stops := s.stops.erase r
      arena }, .done)
  stopAll : ∀ items ∈ s.stopAlls, ∀ clock, ∃ arena,
    Publishes s (fun g => ∃ item ∈ items, item.job = g) clock arena ∧
    apply s (.abortStopAll items clock) = ({ s with
      stopAllReserved := false
      activeReservations := s.activeReservations - 1
      stopAlls := s.stopAlls.erase items
      arena }, .done)

theorem entersOnce_of_run {es : History} {s : State} (run : Run ownerSystem es s)
    (g : Generation) : EntersOnce es s g := by
  have inv := invariant_of_run run
  have count := entries_of_run run g
  have committed := committed_of_run run g
  refine
    { atMostOnce := ?_
      commitsOnce := ?_
      onlyCommitted := ?_
      reached := ?_
      neverFarther := ?_
      rejected := ?_ }
  · rw [count]
    split <;> omega
  · rw [commits_of_run run g]
    split <;> omega
  · intro once
    rw [count] at once
    split at once
    · rename_i enters
      exact committed.mpr (committed_of_entered enters)
    · cases once
  · intro starts
    obtain ⟨ops, own, short, enters⟩ := own_run run (committed.mp starts)
    refine ⟨ops, own, short, ?_⟩
    rw [entries_of_run (run.extend perform_step ops) g, enters, if_pos rfl]
  · intro starts op
    exact distance_of_effect inv (effect_of_step inv (perform_step s op)) (committed.mp starts)
  · intro rejects
    obtain ⟨waits, uncommitted⟩ := barred_unentered (rejected_of_run run rejects)
    rw [count, waits, committed, uncommitted]
    exact ⟨rfl, by simp⟩

theorem movesOn_of_run {es : History} {s : State} (run : Run ownerSystem es s)
    (g : Generation) : MovesOn es s g := by
  refine
    { phases := fun e member job found => ?_
      ends := fun e member terminal elapsed ended => ?_
      frozen := fun e member job final => frozen_of_run run member final
      late := fun job final => report_late (invariant_of_run run) final }
  · obtain ⟨inv, effect⟩ := effect_of_mem run member
    exact phase_of_effect inv effect found
  · obtain ⟨inv, effect⟩ := effect_of_mem run member
    rw [ended] at effect
    exact over_of_complete inv effect

theorem stopsExact_of_run {es : History} {s : State} (run : Run ownerSystem es s) :
    StopsExact es s := by
  obtain ⟨inv, cap⟩ := captured_of_run run
  obtain ⟨prepared, allPrepared⟩ := prepared_of_run run
  refine
    { justified := (tokens_of_run run).flagged
      prepared
      allPrepared
      holds := fun r out g => ?_
      allHold := fun items out g => ⟨?_, ?_⟩ }
  · obtain ⟨slot, present, _⟩ := inv.registry.stopHeld r out
    rw [← cap.stopCaptures r out slot present]
    constructor
    · exact fun current => ⟨slot, present, current⟩
    · rintro ⟨slot', present', current⟩
      cases present.symm.trans present'
      exact current
  · rintro ⟨item, member, rfl⟩
    exact (cap.allCurrent items out item member).2
  · rintro ⟨configId, current⟩
    exact cap.allCaptures items out configId g current

theorem abortsExact_of_run {es : History} {s : State} (run : Run ownerSystem es s) :
    AbortsExact es s := by
  obtain ⟨inv, cap⟩ := captured_of_run run
  have alive := inv.registry.alive
  refine
    { staged := staged_of_run run
      stop := fun r out elapsed => ?_
      stopAll := fun items out clock => ?_ }
  · obtain ⟨slot, arena, present, publishes, exact'⟩ := abortStop_exact inv cap out elapsed
    refine ⟨slot, arena, present, publishes, ?_⟩
    simp only [apply, alive, Bool.false_eq_true, if_false, applyLive, out, if_true, exact']
  · obtain ⟨arena, publishes, exact'⟩ := abortStopAll_exact inv cap out clock
    refine ⟨arena, publishes, ?_⟩
    simp only [apply, alive, Bool.false_eq_true, if_false, applyLive, out, if_true, exact']

structure LifetimeExact (es : History) (s : State) : Prop where
  enters : ∀ g, EntersOnce es s g
  moves : ∀ g, MovesOn es s g
  stops : StopsExact es s
  aborts : AbortsExact es s

/-- Whatever order the callers, the workers, the stops and the shutdown run in. -/
theorem lifetime_exact {es : History} {s : State} (run : Run ownerSystem es s) :
    LifetimeExact es s where
  enters := entersOnce_of_run run
  moves := movesOn_of_run run
  stops := stopsExact_of_run run
  aborts := abortsExact_of_run run

def sampleProgress : RuntimeTaskProgress where
  isFlagRun := true
  button := none
  currentTask := some [116]
  waitingTasks := []

theorem lifetime_exact_played :
    entries 1 (play perform { limits := {} }
        (sampleOps.take 7 ++ [.report 1 sampleProgress 9])).1 = 1 ∧
      pendingOf (play perform { limits := {} }
        (sampleOps.take 7 ++ [.report 1 sampleProgress 9])).2 1 = some sampleProgress ∧
      LifetimeExact
        (play perform { limits := {} } (sampleOps.take 7 ++ [.report 1 sampleProgress 9])).1
        (play perform { limits := {} }
          (sampleOps.take 7 ++ [.report 1 sampleProgress 9])).2 := by
  refine ⟨by decide, by decide, ?_⟩
  exact lifetime_exact (run_play perform_step _ ⟨{}, by decide, rfl⟩)

end Baas.RuntimeTaskOwner
