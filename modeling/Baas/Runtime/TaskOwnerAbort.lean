import Baas.Runtime.TaskOwnerStops

/-! Progress staged behind a prepared stop: always the latest that was accepted, and all
that aborting the stop publishes. -/
namespace Baas.RuntimeTaskOwner

open Transition

/-- What is staged for the job. -/
def pendingOf (s : State) (g : Generation) : Option RuntimeTaskProgress :=
  (s.arena.find? g).bind (·.pendingProgress)

/-- The reports of the job are held back. -/
def HoldsBack (s : State) (g : Generation) : Prop :=
  ∃ job, s.arena.find? g = some job ∧ stagesProgress s g job = true

/-- A report of the job was accepted. -/
def Accepts (g : Generation) (progress : RuntimeTaskProgress) (l : Section) : Prop :=
  ∃ elapsed, l = ⟨.report g progress elapsed, .reported true⟩

/-- The section replaces or drops what is staged for the job. -/
inductive Unstages (s : State) (g : Generation) : Section → Prop
  | reports (progress : RuntimeTaskProgress) (elapsed : Int) :
      Unstages s g ⟨.report g progress elapsed, .reported true⟩
  | resolves (op : Op) : Resolves g op → Unstages s g ⟨op, .done⟩
  | completes (terminal : RuntimeTaskTerminal) (elapsed : Int) :
      Unstages s g ⟨.complete g terminal elapsed, .done⟩
  | shutdown (configId : ConfigId) (elapsed : Int) : s.IsCurrent configId g →
      Unstages s g ⟨.sweep configId elapsed, .done⟩

theorem pendingOf_of_find? {s : State} {g : Generation} {job : Job}
    (found : s.arena.find? g = some job) : pendingOf s g = job.pendingProgress := by
  rw [pendingOf, found, Option.bind_some]

theorem pendingOf_insert (s : State) (arena : OrderedMap Generation Job) (calls : List Call)
    (g : Generation) (job : Job) (same : arena = s.arena.insert g job) :
    pendingOf { s with arena, calls } g = job.pendingProgress :=
  pendingOf_of_find? (by rw [same]; exact OrderedMap.find?_insert_self _ _ _)

/-- An accepted report behind a prepared stop is staged. -/
theorem staged_of_report {s t : State} {g : Generation} {progress : RuntimeTaskProgress}
    {elapsed : Int} (effect : Effect s (.report g progress elapsed) (.reported true) t)
    (held : HoldsBack s g) : pendingOf t g = some progress := by
  obtain ⟨job, found, stages⟩ := held
  cases effect with
  | idle _ _ idle => cases idle
  | touch _ _ g' job' next calls found' touch =>
    cases touch with
    | publish _ _ _ open' =>
      cases found.symm.trans found'
      cases stages.symm.trans open'
    | stage _ _ _ _ => exact pendingOf_insert s _ _ g _ rfl
  | dropped _ _ _ _ _ _ _ _ _ _ done => rcases done with ⟨h, _⟩ | ⟨h, _⟩ <;> cases h

/-- Without a prepared stop nothing is staged before or after the report. -/
theorem unstaged_of_report {s t : State} (cap : Captured s) {g : Generation}
    {progress : RuntimeTaskProgress} {elapsed : Int}
    (effect : Effect s (.report g progress elapsed) (.reported true) t)
    (open' : ¬ HoldsBack s g) : pendingOf t g = none := by
  cases effect with
  | idle _ _ idle => cases idle
  | touch _ _ g' job next calls found touch =>
    have same : g' = g := by cases touch <;> rfl
    subst same
    have unstaged : job.pendingProgress = none :=
      cap.unstaged found (fun stages => open' ⟨job, found, stagesProgress_iff.mpr stages⟩)
    cases touch with
    | publish _ _ _ _ => exact (pendingOf_insert s _ _ g' _ rfl).trans unstaged
    | stage _ _ _ stages => exact absurd ⟨job, found, stages⟩ open'
  | dropped _ _ _ _ _ _ _ _ _ _ done => rcases done with ⟨h, _⟩ | ⟨h, _⟩ <;> cases h

theorem pendingOf_cleared {s t : State} {captured : Generation → Prop}
    {promised : Generation → Timestamp → Prop} {arena : OrderedMap Generation Job}
    {calls : List Call} (resolution : Resolution s captured promised arena calls)
    {g : Generation} (caught : captured g) (same : t.arena = arena) : pendingOf t g = none := by
  cases found : t.arena.find? g with
  | none => rw [pendingOf, found, Option.bind_none]
  | some job => rw [pendingOf_of_find? found, resolution.cleared g caught job (same ▸ found)]

theorem unstaged_of_resolve {s t : State} {g : Generation} {op : Op} {outcome : Outcome}
    (effect : Effect s op outcome t) (resolves : Resolves g op) (done : outcome = .done) :
    pendingOf t g = none := by
  cases effect with
  | idle _ _ idle => rw [done] at idle; cases idle
  | touch _ _ g' job next calls found touch => cases touch <;> cases resolves
  | dropped _ _ _ _ _ _ _ _ _ _ done =>
    rcases done with ⟨rfl, _⟩ | ⟨rfl, _⟩ <;> cases resolves
  | resolveStop op r elapsed slot promised arena calls _ _ _ kind resolution =>
    have names : r.job = some g := by
      rcases kind with ⟨rfl, _⟩ | ⟨rfl, _⟩ <;> cases resolves <;> assumption
    exact pendingOf_cleared resolution names rfl
  | resolveStopAll op items clock promised arena calls _ kind resolution =>
    have names : ∃ item ∈ items, item.job = g := by
      rcases kind with ⟨rfl, _⟩ | ⟨rfl, _⟩ <;> cases resolves <;> assumption
    exact pendingOf_cleared resolution names rfl
  | _ => cases resolves

theorem unstaged_of_complete {s t : State} {g : Generation} {terminal : RuntimeTaskTerminal}
    {elapsed : Int} (effect : Effect s (.complete g terminal elapsed) .done t) :
    pendingOf t g = none := by
  cases effect with
  | idle _ _ idle => cases idle
  | touch _ _ g' job next calls found touch =>
    cases touch with
    | complete => exact pendingOf_insert s _ _ g _ rfl
  | dropped _ _ _ _ _ _ _ _ _ _ done => rcases done with ⟨h, _⟩ | ⟨h, _⟩ <;> cases h
  | resolveStop _ _ _ _ _ _ _ _ _ _ kind _ => rcases kind with ⟨h, _⟩ | ⟨h, _⟩ <;> cases h
  | resolveStopAll _ _ _ _ _ _ _ kind _ => rcases kind with ⟨h, _⟩ | ⟨h, _⟩ <;> cases h

theorem isCurrent_unique {s : State} {configId : ConfigId} {g g' : Generation}
    (current : s.IsCurrent configId g) (current' : s.IsCurrent configId g') : g = g' := by
  obtain ⟨slot, present, here⟩ := current
  obtain ⟨slot', present', here'⟩ := current'
  cases present.symm.trans present'
  exact Option.some.inj (here.symm.trans here')

theorem unstaged_of_sweep {s t : State} (reg : Registry s) (cap : Captured s) {g : Generation}
    {configId : ConfigId} {elapsed : Int} (effect : Effect s (.sweep configId elapsed) .done t)
    (current : s.IsCurrent configId g) : pendingOf t g = none := by
  cases effect with
  | idle _ _ idle => cases idle
  | touch _ _ g' job next calls found touch =>
    cases touch with
    | sweepRunning _ _ _ current' _ =>
      cases isCurrent_unique current current'
      exact pendingOf_insert s _ _ g _ rfl
    | sweepStopping _ _ _ current' _ =>
      cases isCurrent_unique current current'
      exact pendingOf_insert s _ _ g _ rfl
  | sweepReserved _ _ slot g' _ present reserved =>
    -- a reserved slot has no live job, and only a live job has anything staged
    obtain ⟨slot', present', here⟩ := current
    cases present.symm.trans present'
    obtain ⟨job, found, _⟩ := reg.currentKnown configId slot g present here
    have idle := reg.reservedIdle configId slot g job present (by simp [reserved]) here found
    show (s.arena.find? g).bind (·.pendingProgress) = none
    rw [found, Option.bind_some]
    by_contra pending
    exact (cap.pendingStaged g job found pending).2 idle
  | dropped _ _ _ _ _ _ _ _ _ _ done => rcases done with ⟨h, _⟩ | ⟨h, _⟩ <;> cases h
  | resolveStop _ _ _ _ _ _ _ _ _ _ kind _ => rcases kind with ⟨h, _⟩ | ⟨h, _⟩ <;> cases h
  | resolveStopAll _ _ _ _ _ _ _ kind _ => rcases kind with ⟨h, _⟩ | ⟨h, _⟩ <;> cases h

/-- Every other section leaves what is staged alone. -/
theorem pending_kept {s t : State} (inv : Invariant s) {l : Section}
    (effect : Effect s l.op l.outcome t) {g : Generation} (keeps : ¬ Unstages s g l) :
    pendingOf t g = pendingOf s g := by
  obtain ⟨op, outcome⟩ := l
  cases found : s.arena.find? g with
  | none =>
    cases found' : t.arena.find? g with
    | none => rw [pendingOf, pendingOf, found, found']
    | some job' =>
      obtain ⟨_, request, previous, elapsed, rfl | ⟨failElapsed, rfl⟩⟩ :=
        born_of_effect effect found found'
      · rw [pendingOf, pendingOf, found, found']
        rfl
      · rw [pendingOf, pendingOf, found, found']
        rfl
  | some job =>
    obtain ⟨job', found', change⟩ := change_of_effect inv effect found
    rw [pendingOf_of_find? found, pendingOf_of_find? found']
    cases change with
    | same => rfl
    | touched calls touch =>
      cases touch with
      | publish progress elapsed => exact absurd (.reports progress elapsed) keeps
      | stage progress elapsed => exact absurd (.reports progress elapsed) keeps
      | complete terminal elapsed => exact absurd (.completes terminal elapsed) keeps
      | sweepRunning configId elapsed _ current =>
        exact absurd (.shutdown configId elapsed current) keeps
      | sweepStopping configId elapsed _ current =>
        exact absurd (.shutdown configId elapsed current) keeps
      | _ => rfl
    | settled _ _ resolves done =>
      subst done
      exact absurd (.resolves op resolves) keeps
    | installed elapsed => exact installed_pending s job elapsed
    | delivered => rfl
    | released => rfl
    | cancelled => rfl

/-- What one section leaves staged. -/
theorem pending_step {s t : State} (inv : Invariant s) (cap : Captured s) {l : Section}
    (effect : Effect s l.op l.outcome t) (g : Generation) (progress : RuntimeTaskProgress) :
    pendingOf t g = some progress ↔
      (Accepts g progress l ∧ HoldsBack s g) ∨
        (pendingOf s g = some progress ∧ ¬ Unstages s g l) := by
  by_cases unstages : Unstages s g l
  · simp only [unstages, not_true_eq_false, and_false, or_false]
    cases unstages with
    | reports progress' elapsed =>
      by_cases held : HoldsBack s g
      · rw [staged_of_report effect held]
        constructor
        · rintro same
          cases same
          exact ⟨⟨elapsed, rfl⟩, held⟩
        · rintro ⟨⟨elapsed', same⟩, _⟩
          cases same
          rfl
      · rw [unstaged_of_report cap effect held]
        simp [held]
    | resolves op resolves =>
      rw [unstaged_of_resolve effect resolves rfl]
      simp [Accepts]
    | completes terminal elapsed =>
      rw [unstaged_of_complete effect]
      simp [Accepts]
    | shutdown configId elapsed current =>
      rw [unstaged_of_sweep inv.registry cap effect current]
      simp [Accepts]
  · rw [pending_kept inv effect unstages]
    simp only [unstages, not_false_eq_true, and_true]
    constructor
    · exact .inr
    · rintro (⟨⟨elapsed, rfl⟩, _⟩ | kept)
      · exact absurd (.reports progress elapsed) unstages
      · exact kept

/-- The stops that captured the job and are prepared in `t` were prepared in `s`. -/
structure Behind (s t : State) (g : Generation) : Prop where
  stops : ∀ r ∈ t.stops, r.job = some g → r ∈ s.stops
  stopAlls : ∀ items ∈ t.stopAlls, (∃ item ∈ items, item.job = g) → items ∈ s.stopAlls

theorem Behind.refl (s : State) (g : Generation) : Behind s s g :=
  ⟨fun _ out _ => out, fun _ out _ => out⟩

theorem Behind.trans {a b c : State} {g : Generation} (first : Behind a b g)
    (second : Behind b c g) : Behind a c g where
  stops r out names := first.stops r (second.stops r out names) names
  stopAlls items out names := first.stopAlls items (second.stopAlls items out names) names

/-- While something is staged no further stop captures the job. -/
theorem behind_of_effect {s t : State} (inv : Invariant s) (cap : Captured s) {op : Op}
    {outcome : Outcome} (effect : Effect s op outcome t) {g : Generation}
    (pending : pendingOf s g ≠ none) : Behind s t g := by
  obtain ⟨job, found⟩ : ∃ job, s.arena.find? g = some job := by
    cases found : s.arena.find? g with
    | none => rw [pendingOf, found] at pending; cases pending rfl
    | some job => exact ⟨job, rfl⟩
  rw [pendingOf_of_find? found] at pending
  obtain ⟨⟨slot', present', current', held⟩, _⟩ := cap.pendingStaged g job found pending
  cases effect with
  | reserveStop configId elapsed slot _ calm free =>
    refine ⟨fun r out names => ?_, fun _ out _ => out⟩
    rcases List.mem_cons.mp out with rfl | out
    · rw [captureStop_job, free.current?_fst inv.registry] at names
      have config := inv.registry.current_config ⟨slot, free.current names, names⟩ found
      rw [config] at present'
      rw [free.unique present', free.gate, calm] at held
      simp at held
    · exact out
  | reserveStopAll clock _ calm idle =>
    have held := held.resolve_right (by simp [calm])
    obtain ⟨r, out, _⟩ := inv.registry.gateHeld _ slot' present' held
    exact absurd idle (inv.registry.active_of_stop out)
  | resolveStop _ r =>
    exact ⟨fun r' out _ => List.mem_of_mem_erase out, fun _ out _ => out⟩
  | resolveStopAll _ items =>
    exact ⟨fun _ out _ => out, fun items' out _ => List.mem_of_mem_erase out⟩
  | _ => exact ⟨fun _ out _ => out, fun _ out _ => out⟩

/-- The report that staged the progress, while every stop that holds it back now was
already prepared; nothing has replaced or dropped it since. -/
inductive StagedLast (es : History) (s : State) (g : Generation)
    (progress : RuntimeTaskProgress) : Prop
  | mk (before after : History) (e : Event State Section) : es = before ++ e :: after →
      Accepts g progress e.label → HoldsBack e.source g →
      (∀ e' ∈ after, ¬ Unstages e'.source g e'.label) → Behind e.source s g →
      StagedLast es s g progress

theorem pendingOf_initial (limits : RuntimeTaskLimits) (g : Generation) :
    pendingOf { limits } g = none := rfl

theorem behind_of_report {s t : State} {g : Generation} {progress : RuntimeTaskProgress}
    {elapsed : Int} (effect : Effect s (.report g progress elapsed) (.reported true) t) :
    Behind s t g := by
  cases effect with
  | idle _ _ idle => cases idle
  | touch => exact ⟨fun _ out _ => out, fun _ out _ => out⟩
  | dropped _ _ _ _ _ _ _ _ _ _ done => rcases done with ⟨h, _⟩ | ⟨h, _⟩ <;> cases h

theorem last_of_pending {es : History} {s : State} (run : Run ownerSystem es s) (g : Generation)
    (progress : RuntimeTaskProgress) :
    pendingOf s g = some progress → StagedLast es s g progress := by
  refine run.history (fun es s => pendingOf s g = some progress → StagedLast es s g progress)
    ?_ ?_
  · rintro s ⟨limits, _, rfl⟩ pending
    exact nomatch (pendingOf_initial limits g).symm.trans pending
  · intro es s l t prior before step pending
    obtain ⟨inv, cap⟩ := captured_of_run prior
    have effect := effect_of_step inv step
    rcases (pending_step inv cap effect g progress).mp pending with
      ⟨accepts, held⟩ | ⟨pending, keeps⟩
    · refine ⟨es, [], _, rfl, accepts, held, by simp, ?_⟩
      obtain ⟨elapsed, rfl⟩ := accepts
      exact behind_of_report effect
    · obtain ⟨early, late, e, rfl, accepts, held, kept, behind⟩ := before pending
      refine ⟨early, late ++ [⟨s, l, t⟩], e, by simp, accepts, held, ?_, ?_⟩
      · intro e' member
        rcases List.mem_append.mp member with old | new
        · exact kept e' old
        · cases List.mem_singleton.mp new
          exact keeps
      · exact behind.trans (behind_of_effect inv cap effect (by simp [pending]))

/-- What was staged last is still there. -/
theorem pending_of_last {es : History} {s : State} (run : Run ownerSystem es s)
    {g : Generation} {progress : RuntimeTaskProgress} {before after : History}
    {e : Event State Section} (split : es = before ++ e :: after)
    (accepts : Accepts g progress e.label) (held : HoldsBack e.source g)
    (kept : ∀ e' ∈ after, ¬ Unstages e'.source g e'.label) : pendingOf s g = some progress := by
  induction run generalizing after with
  | start => exact absurd split.symm (by simp)
  | @step es s t l prior step ih =>
    obtain ⟨inv, cap⟩ := captured_of_run prior
    have effect := effect_of_step inv step
    refine (pending_step inv cap effect g progress).mpr ?_
    rcases List.eq_nil_or_concat after with rfl | ⟨older, last, rfl⟩
    · cases (List.append_inj' split rfl).2
      exact .inl ⟨accepts, held⟩
    · rw [List.concat_eq_append, ← List.cons_append, ← List.append_assoc] at split
      obtain ⟨same, last⟩ := List.append_inj' split rfl
      cases last
      refine .inr ⟨ih same fun e' member => kept e' ?_, kept ⟨s, l, t⟩ (by simp)⟩
      simp [member]

theorem staged_of_run {es : History} {s : State} (run : Run ownerSystem es s) (g : Generation)
    (progress : RuntimeTaskProgress) :
    pendingOf s g = some progress ↔ StagedLast es s g progress :=
  ⟨last_of_pending run g progress, fun ⟨_, _, _, split, accepts, held, kept, _⟩ =>
    pending_of_last run split accepts held kept⟩

/-- The captured jobs publish what is staged, the others stay as they are. -/
structure Publishes (s : State) (captured : Generation → Prop) (clock : Generation → Int)
    (arena : OrderedMap Generation Job) : Prop where
  published : ∀ g, captured g →
    arena.find? g = (s.arena.find? g).map (·.publishPendingProgress (clock g))
  others : ∀ g, ¬ captured g → arena.find? g = s.arena.find? g

theorem publish_of_clear {job : Job} (clear : job.pendingProgress = none) (elapsed : Int) :
    job.publishPendingProgress elapsed = job := by
  unfold Job.publishPendingProgress
  rw [clear]

theorem discard_of_clear {job : Job} (clear : job.pendingProgress = none) :
    job.discardPendingProgress = job := by
  unfold Job.discardPendingProgress
  rw [← clear]

/-- Aborting publishes, since the captured job is still the current one and a finished
one has nothing staged. -/
theorem settleAbort_eq {job : Job} (ended : job.phase = .completed → job.pendingProgress = none)
    (elapsed : Int) : settleAbort true elapsed job = job.publishPendingProgress elapsed := by
  unfold settleAbort
  by_cases phase : job.phase = .completed
  · have clear := ended phase
    simp only [phase, ne_eq, not_true_eq_false, decide_false, Bool.and_false, Bool.false_eq_true,
      if_false]
    rw [publish_of_clear clear, discard_of_clear clear]
  · simp [phase]

theorem Captured.ended {s : State} (cap : Captured s) {g : Generation} {job : Job}
    (found : s.arena.find? g = some job) (phase : job.phase = .completed) :
    job.pendingProgress = none := by
  by_contra pending
  exact (cap.pendingStaged g job found pending).2 phase

/-- A prepared stop still finds the generation it captured. -/
theorem Captured.same {s : State} (cap : Captured s) (reg : Registry s) {r : StopReservation}
    (out : r ∈ s.stops) {g : Generation} {job : Job} (names : r.job = some g)
    (found : s.arena.find? g = some job) :
    sameGeneration s r.configId g r.generation job = true := by
  obtain ⟨slot, present, _⟩ := reg.stopHeld r out
  have current := (cap.stopCaptures r out slot present).trans names
  have generation := (cap.named g job found).trans (cap.stopNamed r out g names).symm
  simp [sameGeneration, present, current, generation]

theorem abortStop_exact {s : State} (inv : Invariant s) (cap : Captured s) {r : StopReservation}
    (out : r ∈ s.stops) (elapsed : Int) : ∃ slot arena, s.jobs.find? r.configId = some slot ∧
      Publishes s (r.job = some ·) (fun _ => elapsed) arena ∧
      abortStop s r elapsed = { s with
        jobs :=
          if slot.current.isNone && slot.reserved.isNone then s.jobs.erase r.configId
          else s.jobs.insert r.configId { slot with stopReserved := false }
        activeReservations := s.activeReservations - 1
        stops := s.stops.erase r
        arena } := by
  obtain ⟨slot, present, held⟩ := inv.registry.stopHeld r out
  have active := inv.registry.active_of_stop out
  unfold abortStop
  simp only
  split
  · rename_i absent
    refine ⟨slot, s.arena, present, ⟨fun g names => ?_, fun _ _ => rfl⟩, ?_⟩
    · cases found : s.arena.find? g with
      | none => rfl
      | some job =>
        rw [captured_eq_some.mpr ⟨names, found⟩] at absent
        cases absent
    · simp only [resolveStopGate, present, held, active, Bool.true_eq_false, or_self, if_false]
  · rename_i g job captured
    obtain ⟨names, found⟩ := captured_eq_some (s := s) |>.mp captured
    have same : sameGeneration { s with stops := s.stops.erase r } r.configId g r.generation
      job = true := cap.same inv.registry out names found
    refine ⟨slot, s.arena.insert g (job.publishPendingProgress elapsed), present, ⟨?_, ?_⟩, ?_⟩
    · intro g' names'
      cases names.symm.trans names'
      rw [OrderedMap.find?_insert_self, found]
      rfl
    · exact uncaptured_insert names
    · simp only [same, settleAbort_eq (cap.ended found),
        updateJob_of_find? (s := { s with stops := s.stops.erase r }) found, resolveStopGate,
        present, held, active, Bool.true_eq_false, or_self, if_false]

theorem publish_idem (job : Job) (elapsed elapsed' : Int) :
    (job.publishPendingProgress elapsed).publishPendingProgress elapsed' =
      job.publishPendingProgress elapsed :=
  publish_of_clear (publish_pending job elapsed) elapsed'

theorem publish_frame (job : Job) (elapsed : Int) :
    (job.publishPendingProgress elapsed).generation = job.generation ∧
      (job.publishPendingProgress elapsed).phase = job.phase ∧
      (job.publishPendingProgress elapsed).snapshot.configId = job.snapshot.configId := by
  unfold Job.publishPendingProgress
  split <;> exact ⟨rfl, rfl, rfl⟩

/-- Every item still finds the job it captured, and a finished one has nothing staged. -/
def Settleable (s : State) (items : List StopAllItem) : Prop :=
  ∀ item ∈ items, ∀ job, s.arena.find? item.job = some job →
    itemIsCurrent s item job = true ∧ (job.phase = .completed → job.pendingProgress = none)

theorem Settleable.publish {s : State} {item : StopAllItem} {rest : List StopAllItem} {job : Job}
    (settleable : Settleable s (item :: rest)) (found : s.arena.find? item.job = some job)
    (elapsed : Int) :
    Settleable
      { s with arena := s.arena.insert item.job (job.publishPendingProgress elapsed) } rest := by
  intro other member next found'
  rw [OrderedMap.find?_insert] at found'
  split at found'
  · rename_i here
    cases found'
    obtain ⟨generation, _, config⟩ := publish_frame job elapsed
    rw [here] at found
    obtain ⟨current, _⟩ := settleable other (List.mem_cons_of_mem _ member) job found
    refine ⟨?_, fun _ => publish_pending job elapsed⟩
    unfold itemIsCurrent sameGeneration at current ⊢
    rw [generation, config]
    exact current
  · exact settleable other (List.mem_cons_of_mem _ member) next found'

theorem abortItems_exact (clock : Generation → Int) (items : List StopAllItem) (s : State)
    (settleable : Settleable s items) : ∃ arena,
      items.foldl (abortItem clock) s = { s with arena } ∧
        Publishes s (fun g => ∃ item ∈ items, item.job = g) clock arena := by
  induction items generalizing s with
  | nil => exact ⟨s.arena, rfl, by simp, fun _ _ => rfl⟩
  | cons item rest ih =>
    rw [List.foldl_cons]
    cases found : s.arena.find? item.job with
    | none =>
      have skips : abortItem clock s item = s := by simp only [abortItem, found]
      rw [skips]
      obtain ⟨arena, target, published, others⟩ :=
        ih s (fun other member => settleable other (List.mem_cons_of_mem _ member))
      refine ⟨arena, target, fun g captured => ?_, fun g free => others g (unnamed_rest free)⟩
      by_cases later : ∃ other ∈ rest, other.job = g
      · exact published g later
      · obtain ⟨other, member, names⟩ := captured
        rcases List.mem_cons.mp member with rfl | member
        · rw [others g later, ← names, found]
          rfl
        · exact absurd ⟨other, member, names⟩ later
    | some job =>
      obtain ⟨current, ended⟩ := settleable item List.mem_cons_self job found
      have settles : abortItem clock s item = { s with
          arena := s.arena.insert item.job (job.publishPendingProgress (clock item.job)) } := by
        simp only [abortItem, found, current, settleAbort_eq ended]
      rw [settles]
      obtain ⟨arena, target, published, others⟩ := ih _ (settleable.publish found (clock item.job))
      refine ⟨arena, target, fun g captured => ?_,
        fun g free => (others g (unnamed_rest free)).trans (unnamed_insert free)⟩
      by_cases here : item.job = g
      · subst here
        by_cases later : ∃ other ∈ rest, other.job = item.job
        · rw [published _ later, OrderedMap.find?_insert_self, found, Option.map_some,
            publish_idem]
          rfl
        · rw [others _ later, OrderedMap.find?_insert_self, found]
          rfl
      · obtain ⟨other, member, names⟩ := captured
        rcases List.mem_cons.mp member with rfl | member
        · exact absurd names here
        · rw [published g ⟨other, member, names⟩, OrderedMap.find?_insert_ne _ _ here]

theorem Captured.settleable {s : State} (cap : Captured s) (reg : Registry s)
    {items : List StopAllItem} (out : items ∈ s.stopAlls) : Settleable s items := by
  intro item member job found
  obtain ⟨generation, configId, current⟩ := cap.allCurrent items out item member
  refine ⟨?_, cap.ended found⟩
  have config := reg.current_config current found
  obtain ⟨slot, present, here⟩ := current
  simp [itemIsCurrent, sameGeneration, config, present, here, generation,
    cap.named item.job job found]

theorem abortStopAll_exact {s : State} (inv : Invariant s) (cap : Captured s)
    {items : List StopAllItem} (out : items ∈ s.stopAlls) (clock : Generation → Int) :
    ∃ arena, Publishes s (fun g => ∃ item ∈ items, item.job = g) clock arena ∧
      abortStopAll s items clock = { s with
        stopAllReserved := false
        activeReservations := s.activeReservations - 1
        stopAlls := s.stopAlls.erase items
        arena } := by
  have held := inv.registry.stopAllHeld.mpr (List.ne_nil_of_mem out)
  have active := inv.registry.active_of_stopAll out
  obtain ⟨arena, target, publishes⟩ :=
    abortItems_exact clock items s (cap.settleable inv.registry out)
  refine ⟨arena, publishes, ?_⟩
  unfold abortStopAll
  simp only [held, active, Bool.true_eq_false, or_self, if_false]
  rw [target]
  rfl

end Baas.RuntimeTaskOwner
