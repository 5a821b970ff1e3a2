import Baas.Runtime.TaskOwnerChange

/-! The life of a generation over whole runs: when its backend is entered, how its phase
moves, whose stop token is requested and what an aborted stop leaves behind. -/
namespace Baas.RuntimeTaskOwner

open Transition

/-- The worker of the generation enters its backend. -/
def Section.enters (g : Generation) : Section → Bool
  | ⟨.enterBackend g', .done⟩ => g' = g
  | _ => false

def Section.commits (g : Generation) : Section → Bool
  | ⟨.commitReservation g' _, .done⟩ => g' = g
  | _ => false

/-- The start is cancelled, or its preparation or its thread has failed. -/
def Section.rejects (s : State) (g : Generation) : Section → Bool
  | ⟨.cancelReservation g', .done⟩ => g' = g
  | ⟨.finishPreparation g', .startPrepared ⟨.preparationFailed, _, _⟩⟩ => g' = g
  | ⟨.prepareStart _ _ _ _, .startPrepared ⟨.threadStartFailed, _, _⟩⟩ =>
    s.nextJobGeneration = g
  | _ => false

/-- How often the backend of the generation was entered. -/
def entries (g : Generation) (es : History) : Nat := es.countP (·.label.enters g)

def Committed (g : Generation) (es : History) : Prop := ∃ e ∈ es, e.label.commits g = true

def Rejected (g : Generation) (es : History) : Prop :=
  ∃ e ∈ es, e.label.rejects e.source g = true

/-- The worker has gone through the open gate. -/
def Job.passed (job : Job) : Bool :=
  job.gate = .committed && (job.worker = .executing || job.worker = .exited)

def entered (s : State) (g : Generation) : Bool := (s.arena.find? g).any Job.passed

/-- The start of the generation is past its commit. -/
def committedIn (s : State) (g : Generation) : Bool :=
  (s.commits.find? g).isSome || (s.arena.find? g).any (·.gate = .committed)

/-- The gate of the job will never open. -/
def Barred (s : State) (g : Generation) : Prop :=
  ∃ job, s.arena.find? g = some job ∧ s.commits.find? g = none ∧ job.gate ≠ .committed ∧
    (s.starts.find? g = none ∨ s.starts.find? g = some .cancelling ∨
      s.starts.find? g = some .joining)

theorem entered_insert (s t : State) (g g' : Generation) (job : Job)
    (arena : t.arena = s.arena.insert g job) :
    entered t g' = if g = g' then job.passed else entered s g' := by
  unfold entered
  rw [arena, OrderedMap.find?_insert]
  split <;> rfl

theorem entered_of_find? {s : State} {g : Generation} {job : Job}
    (found : s.arena.find? g = some job) : entered s g = job.passed := by
  rw [entered, found, Option.any_some]

theorem passed_of_quiet {job job' : Job} (quiet : Quiet job job') : job'.passed = job.passed := by
  unfold Job.passed
  rw [quiet.gate, quiet.worker]

theorem any_of_settled {promised : Generation → Timestamp → Prop} {g : Generation}
    {before after : Option Job} (settled : Settled promised g before after) (p : Job → Bool)
    (same : ∀ job job', Quiet job job' → p job' = p job) : after.any p = before.any p := by
  cases settled with
  | none => rfl
  | some steps => exact same _ _ (quiet_of_settles steps)

/-- A worker that has not been told to prepare a backend has not passed the gate. -/
theorem unpassed_of_start {point : StartPoint} {commit : Option CommitPoint} {job : Job}
    (stage : Stage (some point) commit job) : job.passed = false := by
  rcases stage.of_start.2.2 with gate | ⟨gate, _⟩ <;> simp [Job.passed, gate]

theorem Stage.unprepared {start : Option StartPoint} {commit : Option CommitPoint} {job : Job}
    (stage : Stage start commit job) (busy : job.worker = .preparing true) :
    job.gate = .pending ∨ job.gate = .cancelled := by
  have noGate (gated : Gated job.worker) : False := by
    rcases gated with same | same <;> cases busy.symm.trans same
  cases stage with
  | preparing _ _ gate _ => exact .inl gate
  | held _ gate _ => exact .inl gate
  | cancelling _ gate _ => exact .inl gate
  | joining _ gate _ => exact .inr gate
  | committing _ _ gate _ => exact .inl gate
  | released _ _ runs =>
    rcases runs with gated | same
    · exact (noGate gated).elim
    · cases busy.symm.trans same
  | finished _ _ same => cases busy.symm.trans same
  | dropped _ _ left => rcases left with same | same <;> cases busy.symm.trans same

theorem Touch.passed {s : State} {g : Generation} {job job' : Job} {op : Op}
    {outcome : Outcome} {calls : List Call} {start : Option StartPoint}
    {commit : Option CommitPoint} (stage : Stage start commit job)
    (touch : Touch s g job op outcome job' calls) :
    job'.passed = (job.passed || Section.enters g ⟨op, outcome⟩) ∧
      (Section.enters g ⟨op, outcome⟩ = true → job.passed = false) := by
  cases touch with
  | finishPreparing prepared ready =>
    unfold canFinishPreparing at ready
    refine ⟨?_, nofun⟩
    split at ready
    · rename_i preparedBackend busy
      cases prepared with
      | true => simp [Job.passed, Job.finishPreparing, busy, Section.enters]
      | false =>
        have busy : job.worker = .preparing true := by
          rw [busy]; simpa using ready
        rcases stage.unprepared busy with gate | gate <;>
          simp [Job.passed, Job.finishPreparing, gate, Section.enters]
    · cases ready
  | enterBackend waits gate => simp [Job.passed, waits, gate, Section.enters]
  | leaveGate waits gate => simp [Job.passed, gate, Section.enters]
  | complete terminal elapsed executes =>
    have gate := (stage.execute executes).2.2.2
    simp [Job.passed, Job.complete, executes, gate, Job.discardPendingProgress, Section.enters]
  | publish => exact ⟨(Bool.or_false _).symm, nofun⟩
  | stage => exact ⟨(Bool.or_false _).symm, nofun⟩
  | stopAfterShutdown => exact ⟨(Bool.or_false _).symm, nofun⟩
  | sweepRunning => exact ⟨(Bool.or_false _).symm, nofun⟩
  | sweepStopping => exact ⟨(Bool.or_false _).symm, nofun⟩
  | deliver => exact ⟨(Bool.or_false _).symm, nofun⟩

/-- A section enters no backend, or that of the job it touches. -/
theorem Touch.enters_own {s : State} {g g' : Generation} {job job' : Job} {op : Op}
    {outcome : Outcome} {calls : List Call} (touch : Touch s g job op outcome job' calls)
    (other : g ≠ g') : Section.enters g' ⟨op, outcome⟩ = false := by
  cases touch <;> simp [Section.enters, other]

theorem idle_quiet {op : Op} {outcome : Outcome} (idle : outcome.idle = true) (g : Generation) :
    Section.enters g ⟨op, outcome⟩ = false ∧ Section.commits g ⟨op, outcome⟩ = false := by
  cases outcome with
  | done => cases idle
  | _ => cases op <;> exact ⟨rfl, rfl⟩

theorem idle_unrejected (s : State) {op : Op} {outcome : Outcome} (idle : outcome.idle = true)
    (g : Generation) : Section.rejects s g ⟨op, outcome⟩ = false := by
  cases outcome with
  | done => cases idle
  | startPrepared result =>
    obtain ⟨decision, snapshot, reservation⟩ := result
    cases decision <;> first | (cases op <;> rfl) | simp [Outcome.idle, StartDecision.late] at idle
  | _ => cases op <;> rfl

theorem entered_of_effect {s t : State} (inv : Invariant s) {op : Op} {outcome : Outcome}
    (effect : Effect s op outcome t) (g : Generation) :
    entered t g = (entered s g || Section.enters g ⟨op, outcome⟩) ∧
      (Section.enters g ⟨op, outcome⟩ = true → entered s g = false) := by
  have settles {promised : Generation → Timestamp → Prop} {arena : OrderedMap Generation Job}
      (settled : ∀ g, Settled promised g (s.arena.find? g) (arena.find? g)) :
      (arena.find? g).any Job.passed = entered s g :=
    any_of_settled (settled g) Job.passed (fun _ _ quiet => passed_of_quiet quiet)
  have inserted {g' : Generation} {job job' : Job} (found : s.arena.find? g' = some job)
      (same : job'.passed = job.passed) {t : State} (arena : t.arena = s.arena.insert g' job') :
      entered t g = entered s g := by
    rw [entered_insert s t g' g job' arena]
    split
    · rename_i here
      rw [same, ← here, entered_of_find? found]
    · rfl
  have added {job' : Job} (unspent : s.nextJobGeneration ≠ 0) (unpassed : job'.passed = false)
      {t : State} (arena : t.arena = s.arena.insert s.nextJobGeneration job') :
      entered t g = entered s g := by
    rw [entered_insert s t _ g job' arena]
    split
    · rename_i here
      rw [unpassed, ← here, entered, inv.registry.unallocated unspent, Option.any_none]
    · rfl
  cases effect with
  | idle op outcome idle => simp [(idle_quiet idle g).1]
  | touch op outcome g' job job' calls found touch =>
    by_cases here : g' = g
    · subst here
      rw [entered_insert s _ g' g' job' rfl, if_pos rfl, entered_of_find? found]
      exact touch.passed (inv.staged g' job found)
    · rw [entered_insert s _ g' g job' rfl, if_neg here, touch.enters_own here]
      simp
  | sweepReserved => simp [entered, Section.enters]
  | endSweep => simp [entered, Section.enters]
  | close => simp [entered, Section.enters]
  | reserve request publish elapsed slot previous _ _ _ _ unspent =>
    rw [added unspent (unpassed_of_start (stage_reserved s request previous elapsed
      (startSnapshot request previous elapsed))) rfl]
    simp [Section.enters]
  | threadFailed request publish elapsed failElapsed slot previous jobs _ _ _ _ _ unspent _ =>
    rw [added unspent (by simp [failedJob, Job.setThreadStartFailure, Job.passed]) rfl]
    simp [Section.enters]
  | prepared => simp [entered, Section.enters]
  | dropped op outcome g' job slot point _ _ _ _ done =>
    rcases done with ⟨rfl, rfl, _⟩ | ⟨rfl, rfl, _⟩ <;>
      simp [entered, Section.enters, State.releaseReserved]
  | commit g' job slot elapsed found held _ _ =>
    have same : (installedJob s job elapsed).passed = job.passed := by
      unfold installedJob
      split <;> rfl
    rw [inserted found same rfl]
    simp [Section.enters]
  | deliverBeforeRelease g' job found _ =>
    have same : ({ job with stopRequested := true } : Job).passed = job.passed := rfl
    rw [inserted found same rfl]
    simp [Section.enters]
  | release g' job found held _ =>
    have stage := inv.staged g' job found
    rw [held] at stage
    have same : ({ job with gate := .committed } : Job).passed = job.passed := by
      rcases stage.of_commit.2.2.2 with gated | gated <;> simp [Job.passed, gated]
    rw [inserted found same rfl]
    simp [Section.enters]
  | cancel => simp [entered, Section.enters]
  | cancelGate g' job found _ gate =>
    have same : ({ job with gate := .cancelled } : Job).passed = job.passed := by
      simp [Job.passed, gate]
    rw [inserted found same rfl]
    simp [Section.enters]
  | reserveStop => simp [entered, Section.enters]
  | resolveStop op r elapsed slot promised arena calls _ _ _ kind resolution =>
    rcases kind with ⟨rfl, _⟩ | ⟨rfl, _⟩ <;>
      · rw [entered, settles resolution.settled]
        simp [Section.enters]
  | reserveStopAll => simp [entered, Section.enters]
  | resolveStopAll op items clock promised arena calls _ kind resolution =>
    rcases kind with ⟨rfl, _⟩ | ⟨rfl, _⟩ <;>
      · rw [entered, settles resolution.settled]
        simp [Section.enters]

theorem Touch.gate {s : State} {g : Generation} {job job' : Job} {op : Op}
    {outcome : Outcome} {calls : List Call} (touch : Touch s g job op outcome job' calls) :
    job'.gate = job.gate := by
  cases touch <;> rfl

theorem Touch.uncommitting {s : State} {g : Generation} {job job' : Job} {op : Op}
    {outcome : Outcome} {calls : List Call} (touch : Touch s g job op outcome job' calls)
    (g' : Generation) : Section.commits g' ⟨op, outcome⟩ = false ∧
      Section.rejects s g' ⟨op, outcome⟩ = false := by
  cases touch <;> exact ⟨rfl, rfl⟩

/-- The gate and the commit of every generation, for a section that leaves them alone. -/
theorem committedIn_frame {s t : State} {g : Generation}
    (commits : t.commits.find? g = s.commits.find? g)
    (gate : (t.arena.find? g).any (·.gate = .committed) =
      (s.arena.find? g).any (·.gate = .committed)) : committedIn t g = committedIn s g := by
  unfold committedIn
  rw [commits, gate]

theorem gate_insert {s : State} {g : Generation} {job job' : Job}
    (found : s.arena.find? g = some job) (same : job'.gate = job.gate) (g' : Generation) :
    ((s.arena.insert g job').find? g').any (·.gate = .committed) =
      (s.arena.find? g').any (·.gate = .committed) := by
  rw [OrderedMap.find?_insert]
  split
  · rename_i here
    rw [← here, found]
    simp [same]
  · rfl

theorem gate_added {s : State} (inv : Invariant s) (unspent : s.nextJobGeneration ≠ 0)
    {job : Job} (pending : job.gate = .pending) (g : Generation) :
    ((s.arena.insert s.nextJobGeneration job).find? g).any (·.gate = .committed) =
      (s.arena.find? g).any (·.gate = .committed) := by
  rw [OrderedMap.find?_insert]
  split
  · rename_i here
    rw [← here, inv.registry.unallocated unspent]
    simp [pending]
  · rfl

theorem committedIn_of_effect {s t : State} (inv : Invariant s) {op : Op} {outcome : Outcome}
    (effect : Effect s op outcome t) (g : Generation) :
    committedIn t g = (committedIn s g || Section.commits g ⟨op, outcome⟩) := by
  have plain {t : State} (commits : t.commits = s.commits)
      (gate : (t.arena.find? g).any (·.gate = .committed) =
        (s.arena.find? g).any (·.gate = .committed)) :
      committedIn t g = (committedIn s g || false) := by
    rw [Bool.or_false]
    exact committedIn_frame (by rw [commits]) gate
  have settles {promised : Generation → Timestamp → Prop} {arena : OrderedMap Generation Job}
      (settled : ∀ g, Settled promised g (s.arena.find? g) (arena.find? g)) :
      (arena.find? g).any (·.gate = .committed) = (s.arena.find? g).any (·.gate = .committed) :=
    any_of_settled (settled g) _ (fun _ _ quiet => by rw [quiet.gate])
  cases effect with
  | idle op outcome idle => rw [(idle_quiet idle g).2, Bool.or_false]
  | touch op outcome g' job job' calls found touch =>
    rw [(touch.uncommitting g).1]
    exact plain rfl (gate_insert found touch.gate g)
  | sweepReserved => exact plain rfl rfl
  | endSweep => exact plain rfl rfl
  | close => exact plain rfl rfl
  | reserve request _ elapsed slot previous _ _ _ _ unspent =>
    exact plain rfl (gate_added inv unspent rfl g)
  | threadFailed request _ elapsed failElapsed slot previous jobs _ _ _ _ _ unspent _ =>
    exact plain rfl (gate_added inv unspent rfl g)
  | prepared => exact plain rfl rfl
  | dropped op outcome g' job slot point _ _ _ _ done =>
    rcases done with ⟨rfl, rfl, _⟩ | ⟨rfl, rfl, _⟩
    · exact plain rfl rfl
    · exact plain rfl rfl
  | commit g' job slot elapsed found held _ _ =>
    have same : (installedJob s job elapsed).gate = job.gate := by
      unfold installedJob
      split <;> rfl
    unfold committedIn
    rw [gate_insert found same g, OrderedMap.find?_insert]
    by_cases here : g' = g
    · simp [here, Section.commits]
    · simp [here, Section.commits]
  | deliverBeforeRelease g' job found held =>
    have gate : ((s.arena.insert g' { job with stopRequested := true }).find? g).any
        (·.gate = .committed) = (s.arena.find? g).any (·.gate = .committed) := by
      refine gate_insert found ?_ g
      rfl
    unfold committedIn
    rw [gate, OrderedMap.find?_insert]
    by_cases here : g' = g
    · subst here
      simp [held, Section.commits]
    · simp [here, Section.commits]
  | release g' job found held _ =>
    unfold committedIn
    rw [OrderedMap.find?_insert, OrderedMap.find?_erase]
    by_cases here : g' = g
    · subst here
      simp [held, Section.commits]
    · simp [here, Section.commits]
  | cancel => exact plain rfl rfl
  | cancelGate g' job found _ gate =>
    refine plain rfl ?_
    show ((s.arena.insert g' { job with gate := .cancelled }).find? g).any
      (·.gate = .committed) = (s.arena.find? g).any (·.gate = .committed)
    rw [OrderedMap.find?_insert]
    split
    · rename_i here
      rw [← here, found]
      simp [gate]
    · rfl
  | reserveStop => exact plain rfl rfl
  | resolveStop op r elapsed slot promised arena calls _ _ _ kind resolution =>
    rcases kind with ⟨rfl, _⟩ | ⟨rfl, _⟩
    · exact plain rfl (settles resolution.settled)
    · exact plain rfl (settles resolution.settled)
  | reserveStopAll => exact plain rfl rfl
  | resolveStopAll op items clock promised arena calls _ kind resolution =>
    rcases kind with ⟨rfl, _⟩ | ⟨rfl, _⟩
    · exact plain rfl (settles resolution.settled)
    · exact plain rfl (settles resolution.settled)

/-- A barred job is not touched where it matters. -/
theorem Barred.frame {s t : State} {g : Generation} (barred : Barred s g)
    (gate : ∀ job, s.arena.find? g = some job → ∃ job', t.arena.find? g = some job' ∧
      job'.gate = job.gate)
    (commits : t.commits.find? g = s.commits.find? g)
    (starts : t.starts.find? g = s.starts.find? g) : Barred t g := by
  obtain ⟨job, found, uncommitted, shut, point⟩ := barred
  obtain ⟨job', found', same⟩ := gate job found
  exact ⟨job', found', commits.trans uncommitted, same ▸ shut, starts ▸ point⟩

theorem gate_kept {s : State} {g : Generation} {job job' : Job}
    (found : s.arena.find? g = some job) (same : job'.gate = job.gate) {g' : Generation}
    (other : Job) (known : s.arena.find? g' = some other) :
    ∃ next, (s.arena.insert g job').find? g' = some next ∧ next.gate = other.gate := by
  rw [OrderedMap.find?_insert]
  split
  · rename_i here
    rw [here] at found
    cases found.symm.trans known
    exact ⟨job', rfl, same⟩
  · exact ⟨other, known, rfl⟩

theorem gate_settled {s : State} {promised : Generation → Timestamp → Prop}
    {arena : OrderedMap Generation Job} {g : Generation}
    (settled : Settled promised g (s.arena.find? g) (arena.find? g)) (job : Job)
    (found : s.arena.find? g = some job) :
    ∃ job', arena.find? g = some job' ∧ job'.gate = job.gate := by
  rw [found] at settled
  generalize after : arena.find? g = found' at settled
  cases settled with
  | some steps => exact ⟨_, rfl, (quiet_of_settles steps).gate⟩

theorem barred_of_effect {s t : State} (inv : Invariant s) {op : Op} {outcome : Outcome}
    (effect : Effect s op outcome t) {g : Generation} (barred : Barred s g) : Barred t g := by
  have known : ∃ job, s.arena.find? g = some job := barred.imp fun _ h => h.1
  have kept (job : Job) (found : s.arena.find? g = some job) :
      ∃ job', s.arena.find? g = some job' ∧ job'.gate = job.gate := ⟨job, found, rfl⟩
  have older (unspent : s.nextJobGeneration ≠ 0) : s.nextJobGeneration ≠ g := by
    intro same
    obtain ⟨job, found⟩ := known
    rw [← same, inv.registry.unallocated unspent] at found
    cases found
  have point := barred.choose_spec.2.2.2
  have uncommitted := barred.choose_spec.2.1
  have notHeld (g' : Generation) (held : s.starts.find? g' = some .held) : g' ≠ g := by
    rintro rfl
    rw [held] at point
    simp at point
  have notCommitted (g' : Generation) (next : CommitPoint)
      (held : s.commits.find? g' = some next) : g' ≠ g := by
    rintro rfl
    cases held.symm.trans uncommitted
  cases effect with
  | idle => exact barred
  | touch op outcome g' job job' calls found touch =>
    exact barred.frame (gate_kept found touch.gate) rfl rfl
  | sweepReserved => exact barred.frame kept rfl rfl
  | endSweep => exact barred.frame kept rfl rfl
  | close => exact barred.frame kept rfl rfl
  | reserve request _ elapsed slot previous _ _ _ _ unspent =>
    refine barred.frame (fun job found => ⟨job, ?_, rfl⟩) rfl ?_
    · exact (OrderedMap.find?_insert_ne _ _ (older unspent)).trans found
    · exact OrderedMap.find?_insert_ne _ _ (older unspent)
  | threadFailed request _ elapsed failElapsed slot previous jobs _ _ _ _ _ unspent _ =>
    refine barred.frame (fun job found => ⟨job, ?_, rfl⟩) rfl rfl
    exact (OrderedMap.find?_insert_ne _ _ (older unspent)).trans found
  | prepared g' job reply found held _ _ =>
    refine barred.frame kept rfl (OrderedMap.find?_insert_ne _ _ ?_)
    rintro rfl
    rw [held] at point
    simp at point
  | dropped op outcome g' job slot start found held present reserved _ =>
    by_cases here : g' = g
    · subst here
      obtain ⟨job, found, uncommitted, shut, _⟩ := barred
      exact ⟨job, found, uncommitted, shut, .inl (OrderedMap.find?_erase_self _ _)⟩
    · exact barred.frame kept rfl (OrderedMap.find?_erase_ne _ here)
  | commit g' job slot elapsed found held _ _ =>
    have other := notHeld g' held
    refine barred.frame (fun job found => ⟨job, ?_, rfl⟩) ?_ ?_
    · exact (OrderedMap.find?_insert_ne _ _ other).trans found
    · exact OrderedMap.find?_insert_ne _ _ other
    · exact OrderedMap.find?_erase_ne _ other
  | deliverBeforeRelease g' job found held =>
    refine barred.frame (gate_kept found ?_) ?_ rfl
    · rfl
    · exact OrderedMap.find?_insert_ne _ _ (notCommitted g' _ held)
  | release g' job found held _ =>
    have other := notCommitted g' _ held
    refine barred.frame (fun job found => ⟨job, ?_, rfl⟩) ?_ rfl
    · exact (OrderedMap.find?_insert_ne _ _ other).trans found
    · exact OrderedMap.find?_erase_ne _ other
  | cancel g' job found held =>
    exact barred.frame kept rfl (OrderedMap.find?_insert_ne _ _ (notHeld g' held))
  | cancelGate g' job found held _ =>
    by_cases here : g' = g
    · subst here
      refine ⟨{ job with gate := .cancelled }, OrderedMap.find?_insert_self _ _ _, uncommitted,
        by simp, .inr (.inr (OrderedMap.find?_insert_self _ _ _))⟩
    · refine barred.frame (fun job found => ⟨job, ?_, rfl⟩) rfl ?_
      · exact (OrderedMap.find?_insert_ne _ _ here).trans found
      · exact OrderedMap.find?_insert_ne _ _ here
  | reserveStop => exact barred.frame kept rfl rfl
  | resolveStop op r elapsed slot promised arena calls _ _ _ _ resolution =>
    exact barred.frame (gate_settled (resolution.settled g)) rfl rfl
  | reserveStopAll => exact barred.frame kept rfl rfl
  | resolveStopAll op items clock promised arena calls _ _ resolution =>
    exact barred.frame (gate_settled (resolution.settled g)) rfl rfl

theorem barred_of_rejects {s t : State} (inv : Invariant s) {op : Op} {outcome : Outcome}
    (effect : Effect s op outcome t) {g : Generation}
    (rejects : Section.rejects s g ⟨op, outcome⟩ = true) : Barred t g := by
  cases effect with
  | idle op outcome idle => cases (idle_unrejected s idle g).symm.trans rejects
  | touch op outcome g' job job' calls found touch =>
    cases (touch.uncommitting g).2.symm.trans rejects
  | threadFailed request _ elapsed failElapsed slot previous jobs _ _ _ _ _ unspent _ =>
    have same : s.nextJobGeneration = g := by simpa [Section.rejects] using rejects
    subst same
    refine ⟨_, OrderedMap.find?_insert_self _ _ _, (new_commit inv unspent).2, ?_,
      .inl (new_commit inv unspent).1⟩
    simp [failedJob, Job.setThreadStartFailure]
  | dropped op outcome g' job slot point found held _ _ done =>
    rcases done with ⟨rfl, rfl, done⟩ | ⟨rfl, rfl, _⟩
    · have same : g' = g := by simpa [Section.rejects] using rejects
      subst same
      obtain ⟨uncommitted, stage⟩ := stage_dropped (inv.staged g' job found) held (.inl done)
      cases stage with
      | dropped _ shut _ =>
        exact ⟨job, found, uncommitted, shut, .inl (OrderedMap.find?_erase_self _ _)⟩
      | released live _ _ =>
        have stage := inv.staged g' job found
        rw [held] at stage
        exact absurd stage.of_start.2.1 live
      | finished _ committed _ =>
        have stage := inv.staged g' job found
        rw [held] at stage
        rcases stage.of_start.2.2 with gate | ⟨gate, _⟩ <;> cases committed.symm.trans gate
    · cases rejects
  | cancel g' job found held =>
    have same : g' = g := by simpa [Section.rejects] using rejects
    subst same
    have stage := inv.staged g' job found
    rw [held] at stage
    obtain ⟨uncommitted, _, gate⟩ := stage.of_start
    refine ⟨job, found, uncommitted, ?_, .inr (.inl (OrderedMap.find?_insert_self _ _ _))⟩
    rcases gate with gate | ⟨gate, _⟩ <;> simp [gate]
  | reserve request _ elapsed slot previous _ _ _ _ _ =>
    unfold startPoint at rejects
    split at rejects <;> cases rejects
  | resolveStop op r elapsed slot promised arena calls _ _ _ kind _ =>
    rcases kind with ⟨rfl, _⟩ | ⟨rfl, _⟩ <;> cases rejects
  | resolveStopAll op items clock promised arena calls _ kind _ =>
    rcases kind with ⟨rfl, _⟩ | ⟨rfl, _⟩ <;> cases rejects
  | _ => cases rejects

theorem entries_of_run {es : History} {s : State} (run : Run ownerSystem es s)
    (g : Generation) : entries g es = if entered s g then 1 else 0 := by
  refine run.history (fun es s => entries g es = if entered s g then 1 else 0) ?_ ?_
  · rintro s ⟨limits, _, rfl⟩
    rfl
  · intro es s l t prior once step
    obtain ⟨after, first⟩ := entered_of_effect (invariant_of_run prior)
      (effect_of_step (invariant_of_run prior) step) g
    unfold entries at once ⊢
    rw [List.countP_append, once, List.countP_singleton, after]
    cases enters : l.enters g with
    | false => cases entered s g <;> simp
    | true => simp [first enters]

theorem committed_of_run {es : History} {s : State} (run : Run ownerSystem es s)
    (g : Generation) : Committed g es ↔ committedIn s g = true := by
  refine run.history (fun es s => Committed g es ↔ committedIn s g = true) ?_ ?_
  · rintro s ⟨limits, _, rfl⟩
    simp [Committed, committedIn]
  · intro es s l t prior before step
    have after := committedIn_of_effect (invariant_of_run prior)
      (effect_of_step (invariant_of_run prior) step) g
    rw [after, Bool.or_eq_true, ← before]
    unfold Committed
    simp only [List.mem_append, List.mem_singleton, or_and_right, exists_or, exists_eq_left]

theorem rejected_of_run {es : History} {s : State} (run : Run ownerSystem es s)
    {g : Generation} (rejected : Rejected g es) : Barred s g := by
  revert rejected
  refine run.history (fun es s => Rejected g es → Barred s g) ?_ ?_
  · rintro s _ ⟨e, member, _⟩
    cases member
  · rintro es s l t prior before step ⟨e, member, rejects⟩
    have inv := invariant_of_run prior
    have effect := effect_of_step inv step
    rcases List.mem_append.mp member with old | new
    · exact barred_of_effect inv effect (before ⟨e, old, rejects⟩)
    · cases List.mem_singleton.mp new
      exact barred_of_rejects inv effect rejects

theorem barred_unentered {s : State} {g : Generation} (barred : Barred s g) :
    entered s g = false ∧ committedIn s g = false := by
  obtain ⟨job, found, uncommitted, shut, _⟩ := barred
  constructor
  · rw [entered_of_find? found]
    simp [Job.passed, shut]
  · simp [committedIn, uncommitted, found, shut]

/-- The sections the committing thread and the worker still have to take before the
backend is entered. -/
def distance (s : State) (g : Generation) : Nat :=
  (match s.commits.find? g with
    | some .delivering => 2
    | some .releasing => 1
    | none => 0) +
  match s.arena.find? g with
  | some job =>
    match job.worker with
    | .preparing _ => 2
    | .waiting => 1
    | _ => 0
  | none => 0

/-- The sections of the committing thread and of the worker on the way to the backend. -/
def ownOps (g : Generation) : List Op :=
  [.deliverBeforeRelease g, .releaseGate g, .finishPreparing g true, .enterBackend g]

theorem known_of_committed {s : State} (inv : Invariant s) {g : Generation}
    (committed : committedIn s g = true) : ∃ job, s.arena.find? g = some job := by
  cases found : s.arena.find? g with
  | some job => exact ⟨job, rfl⟩
  | none =>
    simp only [committedIn, found, Option.any_none, Bool.or_false] at committed
    obtain ⟨point, held⟩ := Option.isSome_iff_exists.mp committed
    have known := inv.commitKnown g point held
    rw [found] at known
    cases known

theorem stage_of_committed {s : State} (inv : Invariant s) {g : Generation} {job : Job}
    (found : s.arena.find? g = some job) (committed : committedIn s g = true) :
    (∃ point, s.commits.find? g = some point ∧ job.gate = .pending ∧ Gated job.worker) ∨
      (s.commits.find? g = none ∧ job.gate = .committed ∧
        (Gated job.worker ∨ job.worker = .executing ∨ job.worker = .exited)) := by
  have stage := inv.staged g job found
  simp only [committedIn, found, Option.any_some] at committed
  cases held : s.commits.find? g with
  | some point =>
    rw [held] at stage
    obtain ⟨_, _, gate, gated⟩ := stage.of_commit
    exact .inl ⟨point, rfl, gate, gated⟩
  | none =>
    rw [held] at stage committed
    have gate : job.gate = .committed := by simpa using committed
    refine .inr ⟨rfl, gate, ?_⟩
    generalize s.starts.find? g = start at stage
    cases stage with
    | released _ _ runs => exact runs.imp_right .inl
    | finished _ _ left => exact .inr (.inr left)
    | preparing _ _ pending _ => cases gate.symm.trans pending
    | held _ pending _ => cases gate.symm.trans pending
    | cancelling _ pending _ => cases gate.symm.trans pending
    | joining _ cancelled _ => cases gate.symm.trans cancelled
    | dropped _ shut _ => exact absurd gate shut

/-- A committed start that has not entered its backend can take its next section. -/
theorem own_step {s : State} (inv : Invariant s) {g : Generation}
    (committed : committedIn s g = true) (waits : entered s g = false) :
    ∃ op ∈ ownOps g, (apply s op).2 = .done ∧ distance (apply s op).1 g < distance s g := by
  have alive (op : Op) : apply s op = applyLive s op := by
    simp only [apply, inv.registry.alive, Bool.false_eq_true, if_false]
  obtain ⟨job, found⟩ := known_of_committed inv committed
  rcases stage_of_committed inv found committed with ⟨point, held, gate, _⟩ | ⟨none, gate, runs⟩
  · cases point with
    | delivering =>
      refine ⟨.deliverBeforeRelease g, by simp [ownOps], ?_⟩
      rw [alive]
      simp only [applyLive, onCommit, found, held, if_true]
      refine ⟨trivial, ?_⟩
      simp [distance, deliverBeforeRelease, State.updateJob, found, held]
    | releasing =>
      refine ⟨.releaseGate g, by simp [ownOps], ?_⟩
      rw [alive]
      simp only [applyLive, onCommit, found, held, if_true]
      refine ⟨trivial, ?_⟩
      simp [distance, releaseGate, State.updateJob, found, held, gate]
  · rcases runs with (busy | waiting) | past
    · refine ⟨.finishPreparing g true, by simp [ownOps], ?_⟩
      rw [alive]
      simp only [applyLive, onWorker, found, canFinishPreparing, busy, Bool.or_true, if_true]
      refine ⟨trivial, ?_⟩
      simp [distance, found, none, busy, Job.finishPreparing]
    · refine ⟨.enterBackend g, by simp [ownOps], ?_⟩
      rw [alive]
      simp only [applyLive, onWorker, found, waiting, gate, decide_true, Bool.and_true, if_true]
      refine ⟨trivial, ?_⟩
      simp [distance, found, none, waiting]
    · rw [entered_of_find? found] at waits
      rcases past with past | past <;> simp [Job.passed, gate, past] at waits

theorem touch_distance {s : State} {g : Generation} {job job' : Job} {op : Op}
    {outcome : Outcome} {calls : List Call} (touch : Touch s g job op outcome job' calls) :
    (match job'.worker with | .preparing _ => 2 | .waiting => 1 | _ => 0) ≤
      match job.worker with | .preparing _ => 2 | .waiting => 1 | _ => 0 := by
  cases touch with
  | finishPreparing prepared ready =>
    unfold canFinishPreparing at ready
    split at ready
    · rename_i busy
      rw [busy]
      cases prepared <;> simp [Job.finishPreparing]
    · cases ready
  | enterBackend waits _ => rw [waits]; simp
  | leaveGate waits _ => rw [waits]; simp
  | complete _ _ executes => rw [executes]; simp [Job.complete]
  | _ => exact Nat.le_refl _

/-- No section, of whatever thread, moves a committed start away from its backend. -/
theorem distance_of_effect {s t : State} (inv : Invariant s) {op : Op} {outcome : Outcome}
    (effect : Effect s op outcome t) {g : Generation} (committed : committedIn s g = true) :
    distance t g ≤ distance s g := by
  obtain ⟨job, found⟩ := known_of_committed inv committed
  obtain ⟨job', found', change⟩ := change_of_effect inv effect found
  unfold distance
  rw [found, found']
  cases change with
  | same commits => rw [commits]
  | touched calls touch commits =>
    rw [commits]
    exact Nat.add_le_add_left (touch_distance touch) _
  | settled _ _ _ _ _ steps commits =>
    rw [commits]
    simp only [(quiet_of_settles steps).worker, Nat.le_refl]
  | installed elapsed _ _ held =>
    have stage := inv.staged g job found
    rw [held] at stage
    rcases stage_of_committed inv found committed with ⟨point, commit, _⟩ | ⟨_, gate, _⟩
    · cases commit.symm.trans stage.of_start.1
    · rcases stage.of_start.2.2 with pending | ⟨cancelled, _⟩
      · cases gate.symm.trans pending
      · cases gate.symm.trans cancelled
  | delivered _ before after => rw [before, after]; simp
  | released before _ after => rw [before, after]; simp
  | cancelled _ _ commits => rw [commits]

/-- The phase of a public generation only goes from running over stopping to completed;
a generation that was never public starts with its commit. -/
inductive PhaseStep (begins : Prop) : JobPhase → JobPhase → Prop
  | stay (phase : JobPhase) : PhaseStep begins phase phase
  | stop : PhaseStep begins .running .stopping
  | finish {phase : JobPhase} : phase ≠ .completed → PhaseStep begins phase .completed
  | begin {phase : JobPhase} : begins → PhaseStep begins .completed phase

theorem PhaseStep.of_quiet {begins : Prop} {job job' : Job} (quiet : Quiet job job') :
    PhaseStep begins job.phase job'.phase := by
  have ran := quiet.ran
  have final := quiet.final
  cases before : job.phase <;> cases after : job'.phase <;>
    first
      | exact .stay _
      | exact .stop
      | simp [before, after] at ran final

theorem Touch.phase {s : State} {g : Generation} {job job' : Job} {op : Op} {outcome : Outcome}
    {calls : List Call} {start : Option StartPoint} {commit : Option CommitPoint}
    (stage : Stage start commit job) (touch : Touch s g job op outcome job' calls)
    (begins : Prop) : PhaseStep begins job.phase job'.phase := by
  cases touch with
  | complete _ _ executes => exact .finish (stage.execute executes).2.2.1
  | stopAfterShutdown _ _ _ _ _ _ _ _ phase => rw [phase]; exact .stop
  | sweepRunning _ _ _ _ phase => rw [phase]; exact .stop
  | _ => exact .stay _

theorem phase_of_effect {s t : State} (inv : Invariant s) {op : Op} {outcome : Outcome}
    (effect : Effect s op outcome t) {g : Generation} {job : Job}
    (found : s.arena.find? g = some job) : ∃ job', t.arena.find? g = some job' ∧
      PhaseStep (Section.commits g ⟨op, outcome⟩ = true) job.phase job'.phase := by
  obtain ⟨job', found', change⟩ := change_of_effect inv effect found
  refine ⟨job', found', ?_⟩
  cases change with
  | same => exact .stay _
  | touched calls touch => exact touch.phase (inv.staged g job found) _
  | settled _ _ _ _ _ steps => exact .of_quiet (quiet_of_settles steps)
  | installed elapsed op outcome held =>
    have stage := inv.staged g job found
    rw [held] at stage
    subst op outcome
    rw [stage.of_start.2.1]
    exact .begin (by simp [Section.commits])
  | delivered => exact .stay _
  | released => exact .stay _
  | cancelled => exact .stay _

/-- The generation has ended, or will never begin: it is completed and nobody holds a
reservation of it. -/
def Over (s : State) (g : Generation) (job : Job) : Prop :=
  s.arena.find? g = some job ∧ job.phase = .completed ∧ s.starts.find? g = none

theorem settle_over {promised : Timestamp → Prop} {job job' : Job}
    (settles : Relation.ReflTransGen (Settle promised) job job') (final : job.phase = .completed) :
    job'.phase = .completed ∧ job'.snapshot = job.snapshot := by
  induction settles with
  | refl => exact ⟨final, rfl⟩
  | tail _ settle ih =>
    cases settle with
    | discard => exact ih
    | publish _ live _ => exact absurd ih.1 live
    | stop _ phase _ => cases phase.symm.trans ih.1

theorem Touch.final {s : State} {g : Generation} {job job' : Job} {op : Op} {outcome : Outcome}
    {calls : List Call} {start : Option StartPoint} {commit : Option CommitPoint}
    (stage : Stage start commit job) (touch : Touch s g job op outcome job' calls)
    (final : job.phase = .completed) : job'.phase = .completed ∧ job'.snapshot = job.snapshot := by
  cases touch with
  | complete _ _ executes => exact absurd final (stage.execute executes).2.2.1
  | publish _ _ live _ => exact absurd final live
  | stage _ _ live _ => exact absurd final live
  | stopAfterShutdown _ _ _ _ _ _ _ _ phase => cases phase.symm.trans final
  | sweepRunning _ _ _ _ phase => cases phase.symm.trans final
  | sweepStopping _ _ _ _ phase => cases phase.symm.trans final
  | finishPreparing => exact ⟨final, rfl⟩
  | enterBackend => exact ⟨final, rfl⟩
  | leaveGate => exact ⟨final, rfl⟩
  | deliver => exact ⟨final, rfl⟩

/-- The snapshot of a generation that is over stays as it is. -/
theorem over_of_effect {s t : State} (inv : Invariant s) {op : Op} {outcome : Outcome}
    (effect : Effect s op outcome t) {g : Generation} {job : Job} (final : Over s g job) :
    ∃ job', Over t g job' ∧ job'.snapshot = job.snapshot := by
  obtain ⟨found, phase, free⟩ := final
  obtain ⟨job', found', change⟩ := change_of_effect inv effect found
  have free' := starts_of_effect inv effect found free
  have after : job'.phase = .completed ∧ job'.snapshot = job.snapshot := by
    cases change with
    | same => exact ⟨phase, rfl⟩
    | touched calls touch => exact touch.final (inv.staged g job found) phase
    | settled _ _ _ _ _ steps => exact settle_over steps phase
    | installed elapsed _ _ held => cases held.symm.trans free
    | delivered => exact ⟨phase, rfl⟩
    | released => exact ⟨phase, rfl⟩
    | cancelled => exact ⟨phase, rfl⟩
  exact ⟨job', ⟨found', after.1, free'⟩, after.2⟩

end Baas.RuntimeTaskOwner
