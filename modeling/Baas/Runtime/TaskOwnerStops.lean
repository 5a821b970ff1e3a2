import Baas.Runtime.TaskOwnerLifecycle

/-! Whose stop token is ever requested, what a prepared stop captured, and what an
aborted one leaves behind. -/
namespace Baas.RuntimeTaskOwner

open Transition

/-- The generation is running or stopping, and public. -/
def LiveCurrent (s : State) (g : Generation) : Prop :=
  ∃ job, s.arena.find? g = some job ∧ job.phase ≠ .completed ∧
    s.IsCurrent job.snapshot.configId g

/-- A committed stop, a committed stop-all or the shutdown comes upon the generation
while it is running or stopping. -/
inductive StopsLive (e : Event State Section) (g : Generation) : Prop
  | stop (r : StopReservation) (elapsed : Int) : e.label = ⟨.commitStop r elapsed, .done⟩ →
      r.job = some g → LiveCurrent e.source g → StopsLive e g
  | stopAll (items : List StopAllItem) (clock : Generation → Int) :
      e.label = ⟨.commitStopAll items clock, .done⟩ → (∃ item ∈ items, item.job = g) →
      LiveCurrent e.source g → StopsLive e g
  | afterShutdown (configId : ConfigId) (elapsed : Int) :
      e.label.op = .requestStopAfterShutdown configId elapsed → e.source.accepting = false →
      LiveCurrent e.source g → StopsLive e g
  | shutdown (configId : ConfigId) (elapsed : Int) : e.label = ⟨.sweep configId elapsed, .done⟩ →
      e.source.accepting = false → LiveCurrent e.source g → StopsLive e g

/-- A start reservation of the generation was out when admission was closed. -/
def ReservedAtShutdown (g : Generation) (es : History) : Prop :=
  ∃ e ∈ es, e.label = ⟨.closeAdmission, .done⟩ ∧ (e.source.starts.find? g).isSome

def Justified (g : Generation) (es : History) : Prop :=
  (∃ e ∈ es, StopsLive e g) ∨ ReservedAtShutdown g es

theorem Justified.later {g : Generation} {es : History} (justified : Justified g es)
    (e : Event State Section) : Justified g (es ++ [e]) := by
  rcases justified with ⟨e', member, stops⟩ | ⟨e', member, closes⟩
  · exact .inl ⟨e', List.mem_append_left _ member, stops⟩
  · exact .inr ⟨e', List.mem_append_left _ member, closes⟩

theorem Justified.now {g : Generation} (es : History) {e : Event State Section}
    (stops : StopsLive e g) : Justified g (es ++ [e]) :=
  .inl ⟨e, List.mem_append_right _ (List.mem_singleton_self e), stops⟩

/-- Every stop that has been requested, or is about to be, is justified. -/
structure TokenAccount (es : History) (s : State) : Prop where
  flagged : ∀ g job, s.arena.find? g = some job → job.stopRequested = true → Justified g es
  queued : ∀ targets more, .deliver targets more ∈ s.calls → ∀ g ∈ targets, Justified g es
  delivering : ∀ g, s.commits.find? g = some .delivering → Justified g es
  sweeping : .sweep ∈ s.calls → s.accepting = false
  resweeping : ∀ targets, .deliver targets true ∈ s.calls → s.accepting = false
  closed : s.accepting = false → ∀ g point, s.starts.find? g = some point →
    ReservedAtShutdown g es

theorem settles_stopRequested {promised : Timestamp → Prop} {job job' : Job}
    (settles : Relation.ReflTransGen (Settle promised) job job') :
    job'.stopRequested = job.stopRequested := by
  induction settles with
  | refl => rfl
  | tail _ settle ih =>
    cases settle with
    | discard => exact ih
    | publish elapsed _ _ =>
      rw [← ih]
      unfold Job.publishPendingProgress
      split <;> rfl
    | stop => exact ih

theorem stopsNow_live {s : State} {g : Generation} (now : StopsNow s g) : LiveCurrent s g := by
  obtain ⟨job, found, phase, current⟩ := now
  exact ⟨job, found, by rw [phase]; decide, current⟩

/-- A job that was not there before has just been created by a start. -/
theorem born_of_effect {s t : State} {op : Op} {outcome : Outcome}
    (effect : Effect s op outcome t) {g : Generation} {job : Job}
    (unknown : s.arena.find? g = none) (found : t.arena.find? g = some job) :
    g = s.nextJobGeneration ∧ ∃ request previous elapsed,
      job = reservedJob s request previous elapsed ∨
        ∃ failElapsed, job = failedJob s request previous elapsed failElapsed := by
  have inserted {g' : Generation} {job' job'' : Job} (known : s.arena.find? g' = some job')
      (found : (s.arena.insert g' job'').find? g = some job) : False := by
    rw [OrderedMap.find?_insert] at found
    split at found
    · rename_i here
      rw [here, unknown] at known
      cases known
    · cases unknown.symm.trans found
  have settles {promised : Generation → Timestamp → Prop} {arena : OrderedMap Generation Job}
      (settled : ∀ g, Settled promised g (s.arena.find? g) (arena.find? g))
      (found : arena.find? g = some job) : False := by
    have settled := settled g
    rw [unknown, found] at settled
    cases settled
  cases effect with
  | reserve request _ elapsed slot previous _ _ _ _ _ =>
    have found : (s.arena.insert s.nextJobGeneration
        (reservedJob s request previous elapsed)).find? g = some job := found
    rw [OrderedMap.find?_insert] at found
    split at found
    · rename_i here
      exact ⟨here.symm, request, previous, elapsed, .inl (Option.some.inj found).symm⟩
    · cases unknown.symm.trans found
  | threadFailed request _ elapsed failElapsed slot previous jobs _ _ _ _ _ _ _ =>
    have found : (s.arena.insert s.nextJobGeneration
        (failedJob s request previous elapsed failElapsed)).find? g = some job := found
    rw [OrderedMap.find?_insert] at found
    split at found
    · rename_i here
      exact ⟨here.symm, request, previous, elapsed,
        .inr ⟨failElapsed, (Option.some.inj found).symm⟩⟩
    · cases unknown.symm.trans found
  | touch op outcome g' job' job'' calls known touch => exact (inserted known found).elim
  | commit g' job' slot elapsed known _ _ _ => exact (inserted known found).elim
  | deliverBeforeRelease g' job' known _ => exact (inserted known found).elim
  | release g' job' known _ _ => exact (inserted known found).elim
  | cancelGate g' job' known _ _ => exact (inserted known found).elim
  | resolveStop _ _ _ _ _ _ _ _ _ _ _ resolution => exact (settles resolution.settled found).elim
  | resolveStopAll _ _ _ _ _ _ _ _ resolution => exact (settles resolution.settled found).elim
  | _ => cases unknown.symm.trans found

theorem flagged_step {es : History} {s t : State} {l : Section} (inv : Invariant s)
    (account : TokenAccount es s) (effect : Effect s l.op l.outcome t) (g : Generation)
    (job' : Job) (found' : t.arena.find? g = some job') (flag : job'.stopRequested = true) :
    Justified g es := by
  obtain ⟨op, outcome⟩ := l
  cases found : s.arena.find? g with
  | none =>
    obtain ⟨_, request, previous, elapsed, rfl | ⟨failElapsed, rfl⟩⟩ :=
      born_of_effect effect found found'
    · cases flag
    · cases flag
  | some job =>
    obtain ⟨next, found'', change⟩ := change_of_effect inv effect found
    cases found'.symm.trans found''
    have kept (same : job'.stopRequested = job.stopRequested) : Justified g es :=
      account.flagged g job found (same ▸ flag)
    cases change with
    | same => exact kept rfl
    | touched calls touch =>
      cases touch with
      | deliver rest sweeping calls out _ _ =>
        exact account.queued _ _ out g List.mem_cons_self
      | _ => exact kept rfl
    | settled _ _ _ _ _ steps => exact kept (settles_stopRequested steps)
    | installed elapsed _ _ _ =>
      refine kept ?_
      unfold installedJob
      split <;> rfl
    | delivered _ held _ => exact account.delivering g held
    | released => exact kept rfl
    | cancelled => exact kept rfl

/-- The calls a section leaves: the old ones, one with justified targets, or a sweep. -/
theorem queued_step {es : History} {s t : State} {l : Section} (inv : Invariant s)
    (account : TokenAccount es s) (effect : Effect s l.op l.outcome t) (targets : List Generation)
    (more : Bool) (member : .deliver targets more ∈ t.calls) (g : Generation)
    (target : g ∈ targets) : Justified g (es ++ [⟨s, l, t⟩]) := by
  obtain ⟨op, outcome⟩ := l
  have old (member : .deliver targets more ∈ s.calls) : Justified g (es ++ [⟨s, ⟨op, outcome⟩, t⟩]) :=
    (account.queued targets more member g target).later _
  have erased (call : Call) (member : .deliver targets more ∈ s.calls.erase call) :
      Justified g (es ++ [⟨s, ⟨op, outcome⟩, t⟩]) := old (List.mem_of_mem_erase member)
  have only {g' : Generation} (target : g ∈ [g']) : g = g' := List.mem_singleton.mp target
  cases effect with
  | touch _ _ g' job job' calls found touch =>
    cases touch with
    | stopAfterShutdown configId slot elapsed closed _ present current _ phase =>
      rcases List.mem_cons.mp member with same | member
      · cases same
        cases only target
        have current : s.IsCurrent configId g := ⟨slot, present, current⟩
        refine .now es (.afterShutdown configId elapsed rfl closed ⟨job, found, ?_, ?_⟩)
        · rw [phase]; decide
        · rwa [inv.registry.current_config current found]
      · exact old member
    | sweepRunning configId elapsed sweeps current phase =>
      rcases List.mem_cons.mp member with same | member
      · cases same
        cases only target
        refine .now es (.shutdown configId elapsed rfl (account.sweeping sweeps)
          ⟨job, found, ?_, ?_⟩)
        · rw [phase]; decide
        · rwa [inv.registry.current_config current found]
      · exact erased _ member
    | sweepStopping configId elapsed sweeps current phase =>
      rcases List.mem_cons.mp member with same | member
      · cases same
        cases only target
        refine .now es (.shutdown configId elapsed rfl (account.sweeping sweeps)
          ⟨job, found, ?_, ?_⟩)
        · rw [phase]; decide
        · rwa [inv.registry.current_config current found]
      · exact erased _ member
    | deliver rest sweeping calls out kept _ =>
      rcases kept targets more member with same | member
      · cases same
        exact (account.queued _ _ out g (List.mem_cons_of_mem _ target)).later _
      · exact old member
    | _ => exact old member
  | sweepReserved configId elapsed slot g' sweeps present reserved =>
    rcases List.mem_cons.mp member with same | member
    · cases same
      cases only target
      obtain ⟨point, held⟩ := inv.registry.reservedHeld configId slot g present reserved
      exact Justified.later (.inr (account.closed (account.sweeping sweeps) g point held)) _
    · exact erased _ member
  | endSweep => exact erased _ member
  | close =>
    rcases List.mem_cons.mp member with same | member
    · cases same
    · exact old member
  | resolveStop _ r elapsed slot promised arena calls _ _ _ kind resolution =>
    rcases resolution.delivered with same | ⟨stopped, same, now⟩
    · exact old (same ▸ member)
    · have member : Call.deliver targets more ∈ Call.deliver stopped false :: s.calls := same ▸ member
      rcases List.mem_cons.mp member with same | member
      · cases same
        obtain ⟨running, timestamp, promise⟩ := now g target
        rcases kind with ⟨rfl, rfl⟩ | ⟨_, rfl⟩
        · exact .now es (.stop r elapsed rfl promise.1 (stopsNow_live running))
        · exact promise.elim
      · exact old member
  | resolveStopAll _ items clock promised arena calls _ kind resolution =>
    rcases resolution.delivered with same | ⟨stopped, same, now⟩
    · exact old (same ▸ member)
    · have member : Call.deliver targets more ∈ Call.deliver stopped false :: s.calls := same ▸ member
      rcases List.mem_cons.mp member with same | member
      · cases same
        obtain ⟨running, timestamp, promise⟩ := now g target
        rcases kind with ⟨rfl, rfl⟩ | ⟨_, rfl⟩
        · obtain ⟨item, listed, names, _⟩ := promise
          exact .now es (.stopAll items clock rfl ⟨item, listed, names⟩ (stopsNow_live running))
        · exact promise.elim
      · exact old member
  | _ => exact old member

theorem delivers_closed {accepting : Bool}
    (delivers : (if accepting then CommitPoint.releasing else .delivering) = .delivering) :
    accepting = false := by
  cases accepting with
  | true => cases delivers
  | false => rfl

theorem delivering_step {es : History} {s t : State} {l : Section}
    (account : TokenAccount es s) (effect : Effect s l.op l.outcome t) (g : Generation)
    (held' : t.commits.find? g = some .delivering) : Justified g es := by
  obtain ⟨op, outcome⟩ := l
  cases effect with
  | commit g' job slot elapsed found held _ _ =>
    have after : (s.commits.insert g' (if s.accepting then .releasing else .delivering)).find? g =
      some .delivering := held'
    rw [OrderedMap.find?_insert] at after
    split at after
    · rename_i here
      rw [here] at held
      exact .inr (account.closed (delivers_closed (Option.some.inj after)) g _ held)
    · exact account.delivering g after
  | deliverBeforeRelease g' job found held =>
    have held' : (s.commits.insert g' .releasing).find? g = some .delivering := held'
    rw [OrderedMap.find?_insert] at held'
    split at held'
    · cases held'
    · exact account.delivering g held'
  | release g' job found held _ =>
    have held' : (s.commits.erase g').find? g = some .delivering := held'
    rw [OrderedMap.find?_erase] at held'
    split at held'
    · cases held'
    · exact account.delivering g held'
  | _ => exact account.delivering g held'

/-- Admission never opens again, and a shutdown only goes on once it is closed. -/
theorem closing_step {es : History} {s t : State} {l : Section} (account : TokenAccount es s)
    (effect : Effect s l.op l.outcome t) :
    (s.accepting = false → t.accepting = false) ∧
      (.sweep ∈ t.calls → t.accepting = false) ∧
      ∀ targets, .deliver targets true ∈ t.calls → t.accepting = false := by
  obtain ⟨op, outcome⟩ := l
  have same (accepting : t.accepting = s.accepting)
      (sweep : .sweep ∈ t.calls → .sweep ∈ s.calls ∨ ∃ targets, .deliver targets true ∈ s.calls)
      (deliver : ∀ targets, .deliver targets true ∈ t.calls →
        .sweep ∈ s.calls ∨ ∃ targets, .deliver targets true ∈ s.calls) :
      (s.accepting = false → t.accepting = false) ∧
        (.sweep ∈ t.calls → t.accepting = false) ∧
        ∀ targets, .deliver targets true ∈ t.calls → t.accepting = false := by
    have closed (before : .sweep ∈ s.calls ∨ ∃ targets, .deliver targets true ∈ s.calls) :
        t.accepting = false := by
      rw [accepting]
      rcases before with sweeps | ⟨targets, delivers⟩
      · exact account.sweeping sweeps
      · exact account.resweeping targets delivers
    exact ⟨fun h => accepting.trans h, fun h => closed (sweep h),
      fun targets h => closed (deliver targets h)⟩
  have plain (accepting : t.accepting = s.accepting) (calls : t.calls = s.calls) :
      (s.accepting = false → t.accepting = false) ∧
        (.sweep ∈ t.calls → t.accepting = false) ∧
        ∀ targets, .deliver targets true ∈ t.calls → t.accepting = false := by
    refine same accepting ?_ ?_
    · rw [calls]; exact .inl
    · rw [calls]; exact fun targets h => .inr ⟨targets, h⟩
  have pushed {call : Call} (accepting : t.accepting = s.accepting)
      (calls : ∀ other ∈ t.calls, other = call ∨ other ∈ s.calls)
      (quiet : call ≠ .sweep ∧ ∀ targets, call = .deliver targets true → .sweep ∈ s.calls) :
      (s.accepting = false → t.accepting = false) ∧
        (.sweep ∈ t.calls → t.accepting = false) ∧
        ∀ targets, .deliver targets true ∈ t.calls → t.accepting = false := by
    refine same accepting (fun h => ?_) (fun targets h => ?_)
    · rcases calls _ h with new | old
      · exact absurd new.symm quiet.1
      · exact .inl old
    · rcases calls _ h with new | old
      · exact .inl (quiet.2 targets new.symm)
      · exact .inr ⟨targets, old⟩
  have consErase (call : Call) (other : Call)
      (member : other ∈ call :: s.calls.erase .sweep) : other = call ∨ other ∈ s.calls :=
    (List.mem_cons.mp member).imp_right List.mem_of_mem_erase
  cases effect with
  | close => exact ⟨fun _ => rfl, fun _ => rfl, fun _ _ => rfl⟩
  | touch _ _ g job job' calls found touch =>
    cases touch with
    | stopAfterShutdown =>
      exact pushed rfl (fun _ => List.mem_cons.mp) ⟨nofun, nofun⟩
    | sweepRunning _ _ sweeps _ _ => exact pushed rfl (consErase _) ⟨nofun, fun _ _ => sweeps⟩
    | sweepStopping _ _ sweeps _ _ => exact pushed rfl (consErase _) ⟨nofun, fun _ _ => sweeps⟩
    | deliver rest sweeping calls out kept sweeps =>
      refine same rfl (fun h => ?_) (fun targets h => ?_)
      · rcases sweeps h with before | rfl
        · exact .inl before
        · exact .inr ⟨_, out⟩
      · rcases kept targets true h with new | old
        · cases new
          exact .inr ⟨_, out⟩
        · exact .inr ⟨targets, old⟩
    | _ => exact plain rfl rfl
  | sweepReserved configId elapsed slot g sweeps _ _ =>
    exact pushed rfl (consErase _) ⟨nofun, fun _ _ => sweeps⟩
  | endSweep =>
    exact same rfl (fun h => .inl (List.mem_of_mem_erase h))
      (fun targets h => .inr ⟨targets, List.mem_of_mem_erase h⟩)
  | resolveStop _ _ _ _ _ _ calls _ _ _ _ resolution =>
    rcases resolution.delivered with rfl | ⟨stopped, rfl, _⟩
    · exact plain rfl rfl
    · exact pushed rfl (fun _ => List.mem_cons.mp) ⟨nofun, nofun⟩
  | resolveStopAll _ _ _ _ _ calls _ _ resolution =>
    rcases resolution.delivered with rfl | ⟨stopped, rfl, _⟩
    · exact plain rfl rfl
    · exact pushed rfl (fun _ => List.mem_cons.mp) ⟨nofun, nofun⟩
  | _ => exact plain rfl rfl

/-- Where a start reservation that is out comes from. -/
theorem held_of_effect {s t : State} {op : Op} {outcome : Outcome}
    (effect : Effect s op outcome t) {g : Generation} (held : (t.starts.find? g).isSome) :
    (s.starts.find? g).isSome ∨ s.accepting = true ∧ t.accepting = true := by
  have put {g' : Generation} {point next : StartPoint} (out : s.starts.find? g' = some point)
      (held : ((s.starts.insert g' next).find? g).isSome) : (s.starts.find? g).isSome := by
    rw [OrderedMap.find?_insert] at held
    split at held
    · rename_i here
      rw [← here, out]
      rfl
    · exact held
  have erased {g' : Generation} (held : ((s.starts.erase g').find? g).isSome) :
      (s.starts.find? g).isSome := by
    obtain ⟨point, held⟩ := Option.isSome_iff_exists.mp held
    rw [((find?_starts_erase s g' g point).mp held).2]
    rfl
  cases effect with
  | reserve _ _ _ _ _ accepting => exact .inr ⟨accepting, accepting⟩
  | prepared g' job reply found out => exact .inl (put out held)
  | cancel g' job found out => exact .inl (put out held)
  | cancelGate g' job found out => exact .inl (put out held)
  | dropped => exact .inl (erased held)
  | commit => exact .inl (erased held)
  | _ => exact .inl held

/-- Only closing admission closes it. -/
theorem accepting_of_effect {s t : State} {op : Op} {outcome : Outcome}
    (effect : Effect s op outcome t) :
    t.accepting = s.accepting ∨ op = .closeAdmission ∧ outcome = .done := by
  cases effect with
  | close => exact .inr ⟨rfl, rfl⟩
  | touch _ _ _ _ _ _ _ touch => exact .inl rfl
  | _ => exact .inl rfl

/-- A reservation that is out after admission was closed was out when it was closed. -/
theorem closed_step {es : History} {s t : State} {l : Section} (account : TokenAccount es s)
    (effect : Effect s l.op l.outcome t) (closed : t.accepting = false) (g : Generation)
    (point : StartPoint) (held : t.starts.find? g = some point) :
    ReservedAtShutdown g (es ++ [⟨s, l, t⟩]) := by
  have before : (s.starts.find? g).isSome := by
    rcases held_of_effect effect (by rw [held]; rfl) with before | ⟨_, still⟩
    · exact before
    · cases closed.symm.trans still
  obtain ⟨point', before'⟩ := Option.isSome_iff_exists.mp before
  rcases accepting_of_effect effect with same | ⟨closes, done⟩
  · obtain ⟨e, member, closes⟩ := account.closed (same.symm.trans closed) g point' before'
    exact ⟨e, List.mem_append_left _ member, closes⟩
  · refine ⟨_, List.mem_append_right _ (List.mem_singleton_self _), ?_, before⟩
    cases l
    cases closes
    cases done
    rfl

theorem tokens_initial (limits : RuntimeTaskLimits) : TokenAccount [] { limits } where
  flagged _ _ found := by cases found
  queued _ _ member := by cases member
  delivering _ held := by cases held
  sweeping member := by cases member
  resweeping _ member := by cases member
  closed closed := by cases closed

theorem tokens_of_run {es : History} {s : State} (run : Run ownerSystem es s) :
    TokenAccount es s := by
  refine run.history TokenAccount ?_ ?_
  · rintro s ⟨limits, _, rfl⟩
    exact tokens_initial limits
  · intro es s l t prior account step
    have inv := invariant_of_run prior
    have effect := effect_of_step inv step
    obtain ⟨_, sweeping, resweeping⟩ := closing_step account effect
    exact
      { flagged := fun g job found flag => (flagged_step inv account effect g job found flag).later _
        queued := queued_step inv account effect
        delivering := fun g held => (delivering_step account effect g held).later _
        sweeping
        resweeping
        closed := closed_step account effect }

end Baas.RuntimeTaskOwner
