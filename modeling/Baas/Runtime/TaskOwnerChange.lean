import Baas.Runtime.TaskOwnerCapture

/-! What one section does to one job that is already there. -/
namespace Baas.RuntimeTaskOwner

open Transition

/-- A stop that is still out has promised the timestamp for the job. -/
def Promised (s : State) (g : Generation) (timestamp : Timestamp) : Prop :=
  (∃ r ∈ s.stops, r.promises g timestamp) ∨
    ∃ items ∈ s.stopAlls, promisesAll items g timestamp

/-- The section resolves a stop or a stop-all that captured the job. -/
inductive Resolves (g : Generation) : Op → Prop
  | commitStop (r : StopReservation) (elapsed : Int) : r.job = some g →
      Resolves g (.commitStop r elapsed)
  | abortStop (r : StopReservation) (elapsed : Int) : r.job = some g →
      Resolves g (.abortStop r elapsed)
  | commitStopAll (items : List StopAllItem) (clock : Generation → Int) :
      (∃ item ∈ items, item.job = g) → Resolves g (.commitStopAll items clock)
  | abortStopAll (items : List StopAllItem) (clock : Generation → Int) :
      (∃ item ∈ items, item.job = g) → Resolves g (.abortStopAll items clock)

inductive Change (s t : State) (op : Op) (outcome : Outcome) (g : Generation) (job : Job) :
    Job → Prop
  | same : t.commits.find? g = s.commits.find? g → Change s t op outcome g job job
  | touched {job' : Job} (calls : List Call) : Touch s g job op outcome job' calls →
      t.commits.find? g = s.commits.find? g → Change s t op outcome g job job'
  | settled {job' : Job} (promised : Timestamp → Prop) :
      (∀ timestamp, promised timestamp → Promised s g timestamp) → Resolves g op →
      outcome = .done → job'.pendingProgress = none →
      Relation.ReflTransGen (Settle promised) job job' → t.commits.find? g = s.commits.find? g → Change s t op outcome g job job'
  | installed (elapsed : Int) : op = .commitReservation g elapsed → outcome = .done →
      s.starts.find? g = some .held → Change s t op outcome g job (installedJob s job elapsed)
  | delivered : op = .deliverBeforeRelease g → s.commits.find? g = some .delivering →
      t.commits.find? g = some .releasing →
      Change s t op outcome g job { job with stopRequested := true }
  | released : s.commits.find? g = some .releasing → job.gate = .pending →
      t.commits.find? g = none → Change s t op outcome g job { job with gate := .committed }
  | cancelled : s.starts.find? g = some .cancelling → job.gate = .pending →
      t.commits.find? g = s.commits.find? g →
      Change s t op outcome g job { job with gate := .cancelled }

theorem change_settled {s t : State} {op : Op} {g : Generation} {job : Job}
    {captured : Generation → Prop} {promised : Generation → Timestamp → Prop}
    {arena : OrderedMap Generation Job} {calls : List Call} (known : s.arena.find? g = some job)
    (resolution : Resolution s captured promised arena calls) (target : t.arena = arena)
    (resolves : captured g → Resolves g op)
    (sub : ∀ timestamp, promised g timestamp → Promised s g timestamp)
    (commits : t.commits = s.commits) :
    ∃ job', t.arena.find? g = some job' ∧ Change s t op .done g job job' := by
  rw [target]
  by_cases caught : captured g
  · have settled := resolution.settled g
    have cleared := resolution.cleared g caught
    rw [known] at settled
    generalize after : arena.find? g = found at settled
    cases settled with
    | some steps =>
      exact ⟨_, rfl, .settled (promised g) sub (resolves caught) rfl (cleared _ after) steps
        (by rw [commits])⟩
  · exact ⟨job, (resolution.others g caught).trans known, .same (by rw [commits])⟩

/-- One job of the arena changes, the others and their commits stay. -/
theorem change_insert {s t : State} {op : Op} {outcome : Outcome} {g g' : Generation}
    {job job' other : Job} (found : s.arena.find? g = some job)
    (known : s.arena.find? g' = some other) (arena : t.arena = s.arena.insert g job')
    (commits : g ≠ g' → t.commits.find? g' = s.commits.find? g')
    (change : Change s t op outcome g job job') :
    ∃ next, t.arena.find? g' = some next ∧ Change s t op outcome g' other next := by
  rw [arena, OrderedMap.find?_insert]
  by_cases here : g = g'
  · subst here
    cases found.symm.trans known
    exact ⟨job', if_pos rfl, change⟩
  · exact ⟨other, (if_neg here).trans known, .same (commits here)⟩

theorem change_of_effect {s t : State} (inv : Invariant s) {op : Op} {outcome : Outcome}
    (effect : Effect s op outcome t) {g : Generation} {job : Job}
    (known : s.arena.find? g = some job) :
    ∃ job', t.arena.find? g = some job' ∧ Change s t op outcome g job job' := by
  cases effect with
  | idle => exact ⟨job, known, .same rfl⟩
  | touch op outcome g' job' next calls found touch =>
    exact change_insert found known rfl (fun _ => rfl) (.touched calls touch rfl)
  | sweepReserved => exact ⟨job, known, .same rfl⟩
  | endSweep => exact ⟨job, known, .same rfl⟩
  | close => exact ⟨job, known, .same rfl⟩
  | reserve request _ elapsed slot previous _ _ _ _ unspent =>
    exact ⟨job, inv.registry.known unspent known _, .same rfl⟩
  | threadFailed request _ elapsed failElapsed slot previous jobs _ _ _ _ _ unspent _ =>
    exact ⟨job, inv.registry.known unspent known _, .same rfl⟩
  | prepared => exact ⟨job, known, .same rfl⟩
  | dropped => exact ⟨job, known, .same rfl⟩
  | commit g' job' slot elapsed found held _ _ =>
    refine change_insert found known rfl (fun other => ?_) (.installed elapsed rfl rfl held)
    exact OrderedMap.find?_insert_ne _ _ other
  | deliverBeforeRelease g' job' found held =>
    refine change_insert found known rfl (fun other => ?_) (.delivered rfl held ?_)
    · exact OrderedMap.find?_insert_ne _ _ other
    · exact OrderedMap.find?_insert_self _ _ _
  | release g' job' found held gate =>
    refine change_insert found known rfl (fun other => ?_) (.released held gate ?_)
    · exact OrderedMap.find?_erase_ne _ other
    · exact OrderedMap.find?_erase_self _ _
  | cancel => exact ⟨job, known, .same rfl⟩
  | cancelGate g' job' found held gate =>
    exact change_insert found known rfl (fun _ => rfl) (.cancelled held gate rfl)
  | reserveStop => exact ⟨job, known, .same rfl⟩
  | resolveStop op r elapsed slot promised arena calls out _ _ kind resolution =>
    refine change_settled known resolution rfl (fun captured => ?_) (fun timestamp promise => ?_)
      rfl
    · rcases kind with ⟨rfl, _⟩ | ⟨rfl, _⟩
      · exact .commitStop r elapsed captured
      · exact .abortStop r elapsed captured
    · rcases kind with ⟨_, rfl⟩ | ⟨_, rfl⟩
      · exact .inl ⟨r, out, promise⟩
      · exact promise.elim
  | reserveStopAll => exact ⟨job, known, .same rfl⟩
  | resolveStopAll op items clock promised arena calls out kind resolution =>
    refine change_settled known resolution rfl (fun captured => ?_) (fun timestamp promise => ?_)
      rfl
    · rcases kind with ⟨rfl, _⟩ | ⟨rfl, _⟩
      · exact .commitStopAll items clock captured
      · exact .abortStopAll items clock captured
    · rcases kind with ⟨_, rfl⟩ | ⟨_, rfl⟩
      · exact .inr ⟨items, out, promise⟩
      · exact promise.elim

/-- A job that no start reservation holds is never reserved again. -/
theorem starts_of_effect {s t : State} (inv : Invariant s) {op : Op} {outcome : Outcome}
    (effect : Effect s op outcome t) {g : Generation} {job : Job}
    (known : s.arena.find? g = some job) (free : s.starts.find? g = none) :
    t.starts.find? g = none := by
  have put {g' : Generation} {point : StartPoint} (held : s.starts.find? g' = some point)
      (next : StartPoint) : (s.starts.insert g' next).find? g = none := by
    rw [OrderedMap.find?_insert_ne _ _ ?_]
    · exact free
    · rintro rfl
      cases held.symm.trans free
  have erased (g' : Generation) : (s.starts.erase g').find? g = none := by
    rw [OrderedMap.find?_erase, free, ite_self]
  cases effect with
  | reserve request _ elapsed slot previous _ _ _ _ unspent =>
    show (s.starts.insert _ _).find? g = none
    rw [OrderedMap.find?_insert_ne _ _ ?_]
    · exact free
    · rintro rfl
      cases (inv.registry.unallocated unspent).symm.trans known
  | prepared g' job' reply found held => exact put held _
  | dropped => exact erased _
  | commit => exact erased _
  | cancel g' job' found held => exact put held _
  | cancelGate g' job' found held => exact put held _
  | _ => exact free

end Baas.RuntimeTaskOwner
