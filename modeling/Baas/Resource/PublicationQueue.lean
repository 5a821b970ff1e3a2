import Mathlib.Data.List.Range
import Baas.Lib.LinkedQueue
import Baas.Resource.PublicationLead

/-! The linked queue holds the jobs that were enqueued and not popped, oldest first, and
jobs are enqueued in the order of their commits. -/
namespace Baas.Resource.Publication

open Transition LinkedQueue

variable {U : Type} {s s' : State U} {t : Thread} {a : Action U} {lead : Lead}

abbrev History (U : Type) := List (Event (State U) (Label U))

/-- What the actions of a history say, in their order. -/
def noted {β : Type} (of : Action U → Option β) (events : History U) : List β :=
  events.filterMap (fun e => of e.label.action)

@[simp] theorem noted_nil {β : Type} (of : Action U → Option β) : noted of [] = [] := rfl

theorem noted_append {β : Type} (of : Action U → Option β) (events later : History U) :
    noted of (events ++ later) = noted of events ++ noted of later := by
  simp [noted]

theorem noted_snoc {β : Type} (of : Action U → Option β) (events : History U) (l : Label U) :
    noted of (events ++ [⟨s, l, s'⟩]) = noted of events ++ (of l.action).toList := by
  cases h : of l.action <;> simp [noted, h]

def Action.committed? : Action U → Option JobRef
  | .commit j _ => some j
  | _ => none

def Action.enqueued? : Action U → Option JobRef
  | .enqueue j => some j
  | _ => none

def Action.popped? : Action U → Option JobRef
  | .pop j => some j
  | _ => none

def State.nextOf (s : State U) (j : JobRef) : Option JobRef := (s.jobs j).bind PublicationJob.next

/-- The frames of a thread that holds `mutation_mutex`, with the job it has not enqueued. -/
def Frame.held : Frame → Option (Option JobRef)
  | .committed j => some (some j)
  | .finalized j => some (some j)
  | .enqueued _ _ => some none
  | _ => none

structure Locked (s : State U) (pending : Option JobRef) : Prop where
  holder : ∀ t f rest h, s.frames t = f :: rest → f.held = some h →
    s.mutation = some t ∧ pending = h
  unlocked : s.mutation = none → pending = none

/-- What a step does to the job that is committed and not enqueued. -/
inductive Stage (s : State U) : Option JobRef → Action U → Option JobRef → Prop
  | keep {pending : Option JobRef} {a : Action U} : a.committed? = none → a.enqueued? = none →
      Stage s pending a pending
  | commit {update : U} : Stage s none (.commit s.jobCount update) (some s.jobCount)
  | enqueue {j : JobRef} : Stage s (some j) (.enqueue j) none

theorem calls_held {f : Frame} (calls : f.calls = true) : f.held = none := by
  cases f <;> simp_all [Frame.calls, Frame.held]

/-- A step of a thread that neither takes nor gives back the mutex. -/
theorem Locked.keep {pending : Option JobRef} (locked : Locked s pending)
    (others : ∀ t', t' ≠ t → s'.frames t' = s.frames t') (mutation : s'.mutation = s.mutation)
    (top : ∀ f rest h, s'.frames t = f :: rest → f.held = some h →
      ∃ f' rest', s.frames t = f' :: rest' ∧ f'.held = some h) : Locked s' pending := by
  constructor
  · intro t' f rest h now held
    rw [mutation]
    by_cases own : t' = t
    · subst own
      obtain ⟨f', rest', before, same⟩ := top f rest h now held
      exact locked.holder t' f' rest' h before same
    · rw [others t' own] at now
      exact locked.holder t' f rest h now held
  · rw [mutation]
    exact locked.unlocked

/-- As `keep`, where the top of the stack holds nothing after the step. -/
theorem Locked.idle {pending : Option JobRef} (locked : Locked s pending)
    (others : ∀ t', t' ≠ t → s'.frames t' = s.frames t') (mutation : s'.mutation = s.mutation)
    (top : ∀ f rest, s'.frames t = f :: rest → f.held = none) : Locked s' pending := by
  apply locked.keep others mutation
  intro f rest h now held
  rw [top f rest now] at held
  cases held

/-- Where a call returns, the frame below is a callback. -/
theorem Led.exposed (led : Led s lead) {f : Frame} {rest : List Frame}
    (top : s.frames t = f :: rest) (now : s'.frames t = rest) (g : Frame) (rest' : List Frame)
    (exposed : s'.frames t = g :: rest') : g.held = none := by
  apply calls_held
  apply led.below top
  rw [← now, exposed]
  exact List.mem_cons_self

theorem held_of_free {g : Frame} {rest : List Frame} (idle : free (s.frames t) = true)
    (top : s.frames t = g :: rest) : g.held = none := by
  rw [top] at idle
  exact calls_held (free_calls idle)

@[simp] theorem linkTail_mutation (j : JobRef) : (linkTail s j).mutation = s.mutation := by
  unfold linkTail
  split <;> rfl

theorem enqueuePublication_mutation (j : JobRef) :
    (enqueuePublication s j).mutation = s.mutation := linkTail_mutation j

theorem Locked.step {pending : Option JobRef} (led : Led s lead) (locked : Locked s pending)
    (step : Step s ⟨t, a⟩ s') : ∃ pending', Locked s' pending' ∧ Stage s pending a pending' := by
  have others := step_frames_others step
  cases step with
  | commit update idle unlocked =>
    have none := locked.unlocked unlocked
    subst none
    refine ⟨some s.jobCount, ⟨?_, nofun⟩, .commit⟩
    intro t' f rest h now held
    by_cases own : t' = t
    · subst own
      rw [commit, setFrames_frames] at now
      cases now
      cases held
      exact ⟨rfl, rfl⟩
    · rw [others t' own] at now
      have before := (locked.holder t' f rest h now held).1
      rw [unlocked] at before
      cases before
  | finalize slots top found perm =>
    refine ⟨pending, locked.keep others rfl ?_, .keep rfl rfl⟩
    intro f rest h now held
    rw [setFrames_frames] at now
    cases now
    exact ⟨_, _, top, held⟩
  | enqueue top =>
    obtain ⟨mutation, rfl⟩ := locked.holder _ _ _ _ top rfl
    refine ⟨none, ⟨?_, fun _ => rfl⟩, .enqueue⟩
    intro t' f rest h now held
    by_cases own : t' = t
    · subst own
      rw [setFrames_frames] at now
      cases now
      cases held
      exact ⟨(enqueuePublication_mutation _).trans mutation, rfl⟩
    · rw [others t' own] at now
      have before := (locked.holder t' f rest h now held).1
      rw [mutation] at before
      exact absurd (Option.some.inj before).symm own
  | @unlock t j leader rest top =>
    obtain ⟨mutation, rfl⟩ := locked.holder _ _ _ _ top rfl
    refine ⟨none, ⟨?_, fun _ => rfl⟩, .keep rfl rfl⟩
    intro t' f rest' h now held
    exfalso
    by_cases own : t' = t
    · subst own
      cases leader with
      | true =>
        simp only [drainOrWait, if_true, State.frames, Function.update_self] at now
        cases now
        cases held
      | false =>
        simp only [drainOrWait, Bool.false_eq_true, if_false] at now
        split at now
        · rw [setFrames_frames] at now
          have below := led.below top (now ▸ List.mem_cons_self)
          rw [calls_held below] at held
          cases held
        · rw [setFrames_frames] at now
          cases now
          cases held
    · rw [others t' own] at now
      have before := (locked.holder t' f rest' h now held).1
      rw [mutation] at before
      exact own (Option.some.inj before).symm
  | wake top found done =>
    refine ⟨pending, locked.idle others rfl ?_, .keep rfl rfl⟩
    exact fun f rest now => led.exposed top (setFrames_frames _) f rest now
  | retire top empty =>
    refine ⟨pending, locked.idle others rfl ?_, .keep rfl rfl⟩
    exact fun f rest now => led.exposed top (by simp [retireDrain, State.frames]) f rest now
  | unsubscribed top left =>
    refine ⟨pending, locked.idle others rfl ?_, .keep rfl rfl⟩
    exact fun f rest now => led.exposed top (setFrames_frames _) f rest now
  | subscribe idle room unused =>
    refine ⟨pending, locked.idle others rfl ?_, .keep rfl rfl⟩
    exact fun f rest now => held_of_free idle now
  | unsubscribeSelf idle held own =>
    refine ⟨pending, locked.idle others rfl ?_, .keep rfl rfl⟩
    exact fun f rest now => held_of_free idle now
  | call top =>
    refine ⟨pending, locked.idle others rfl ?_, .keep rfl rfl⟩
    intro f rest now
    simp only [State.frames, Function.update_self] at now
    cases now
    rfl
  | leave top =>
    refine ⟨pending, locked.idle others rfl ?_, .keep rfl rfl⟩
    intro f rest now
    simp only [State.frames, Function.update_self] at now
    cases now
    rfl
  | _ =>
    refine ⟨pending, locked.idle others rfl ?_, .keep rfl rfl⟩
    intro f rest now
    rw [setFrames_frames] at now
    cases now
    rfl

/-- The queue as a list, and the history it stands for. -/
structure Queued (events : History U) (s : State U) (queue : List JobRef)
    (pending : Option JobRef) : Prop where
  chain : Chain s.nextOf s.publicationHead queue
  tail : s.publicationTail = queue.getLast?
  empty : s.publicationActive = false → queue = []
  known : ∀ j, (s.jobs j).isSome = true ↔ j < s.jobCount
  loose : ∀ j, pending = some j → s.nextOf j = none
  enqueued : noted Action.enqueued? events = noted Action.popped? events ++ queue
  committed : noted Action.committed? events = List.range s.jobCount
  waiting : noted Action.enqueued? events ++ pending.toList = List.range s.jobCount

namespace Queued

variable {events : History U} {queue : List JobRef} {pending : Option JobRef}

theorem nodup (queued : Queued events s queue pending) :
    (noted Action.popped? events ++ queue ++ pending.toList).Nodup := by
  rw [← queued.enqueued, queued.waiting]
  exact List.nodup_range

theorem lt_of_mem (queued : Queued events s queue pending) {j : JobRef}
    (member : j ∈ noted Action.popped? events ++ queue ++ pending.toList) : j < s.jobCount := by
  rw [← queued.enqueued, queued.waiting] at member
  exact List.mem_range.mp member

/-- A step that leaves the queue and the jobs it can reach as they are. -/
theorem keep (queued : Queued events s queue pending) (l : Label U)
    (next : s'.nextOf = s.nextOf) (head : s'.publicationHead = s.publicationHead)
    (tail : s'.publicationTail = s.publicationTail)
    (active : s'.publicationActive = s.publicationActive) (count : s'.jobCount = s.jobCount)
    (known : ∀ j, (s'.jobs j).isSome = (s.jobs j).isSome)
    (commits : l.action.committed? = none) (enqueues : l.action.enqueued? = none)
    (pops : l.action.popped? = none) :
    Queued (events ++ [⟨s, l, s'⟩]) s' queue pending := by
  constructor
  · rw [next, head]
    exact queued.chain
  · rw [tail, queued.tail]
  · rw [active]
    exact queued.empty
  · intro j
    rw [known, count, queued.known]
  · rw [next]
    exact queued.loose
  · simp [noted_snoc, enqueues, pops, queued.enqueued]
  · simp [noted_snoc, commits, count, queued.committed]
  · simp [noted_snoc, enqueues, count, queued.waiting]

end Queued

theorem nextOf_update (j : JobRef) (job : PublicationJob U) (k : JobRef) :
    ({ s with jobs := Function.update s.jobs j (some job) } : State U).nextOf k =
      if k = j then job.next else s.nextOf k := by
  by_cases own : k = j <;> simp [State.nextOf, own]

theorem nextOf_setJob (j : JobRef) (job : PublicationJob U) (k : JobRef) :
    (s.setJob j job).nextOf k = if k = j then job.next else s.nextOf k := nextOf_update j job k

theorem setJob_same {j : JobRef} {job job' : PublicationJob U} (found : s.jobs j = some job)
    (next : job'.next = job.next) : (s.setJob j job').nextOf = s.nextOf := by
  funext k
  rw [nextOf_setJob]
  split
  · next own => simp [own, State.nextOf, found, next]
  · rfl

theorem setJob_known {j : JobRef} {job job' : PublicationJob U} (found : s.jobs j = some job)
    (k : JobRef) : ((s.setJob j job').jobs k).isSome = (s.jobs k).isSome := by
  by_cases own : k = j <;> simp [State.setJob, own, found]

namespace Queued

variable {events : History U} {queue : List JobRef} {pending : Option JobRef}

theorem commit (queued : Queued events s queue none) (t : Thread) (update : U) :
    Queued (events ++ [⟨s, ⟨t, .commit s.jobCount update⟩, commit s t update⟩])
      (commit s t update) queue (some s.jobCount) := by
  have next (k : JobRef) : (Publication.commit s t update).nextOf k =
      if k = s.jobCount then none else s.nextOf k := nextOf_update s.jobCount { update } k
  have old : ∀ k ∈ queue, k ≠ s.jobCount := by
    intro k member
    exact (queued.lt_of_mem (by simp [member])).ne
  constructor
  · apply queued.chain.congr
    intro k member
    rw [next, if_neg (old k member)]
  · exact queued.tail
  · exact queued.empty
  · intro k
    have known := queued.known k
    by_cases new : k = s.jobCount
    · simp [Publication.commit, State.setFrames, new]
    · simp only [Publication.commit, State.setFrames, Function.update_of_ne new, known]
      exact ⟨Nat.lt_succ_of_lt, fun below => (Nat.le_of_lt_succ below).lt_of_ne new⟩
  · intro k same
    cases same
    rw [next, if_pos rfl]
  · simp [noted_snoc, Action.enqueued?, Action.popped?, queued.enqueued]
  · simp [noted_snoc, Action.committed?, queued.committed, Publication.commit, State.setFrames,
      List.range_succ]
  · have waiting := queued.waiting
    simp only [Option.toList_none, List.append_nil] at waiting
    simp [noted_snoc, Action.enqueued?, waiting, Publication.commit, State.setFrames,
      List.range_succ]

/-- Linking a job behind the tail, or as the head of an empty queue. -/
theorem link {j : JobRef} (queued : Queued events s queue (some j)) :
    Chain (enqueuePublication s j).nextOf (enqueuePublication s j).publicationHead
      (queue ++ [j]) := by
  have loose := queued.loose j rfl
  have distinct := queued.nodup
  rw [List.append_assoc, List.nodup_append] at distinct
  have queueDistinct : (queue ++ [j]).Nodup := distinct.2.1
  rw [List.nodup_append] at queueDistinct
  have fresh : j ∉ queue := fun member => queueDistinct.2.2 j member j (by simp) rfl
  cases tail : s.publicationTail with
  | none =>
    have nil : queue = [] := by
      rw [queued.tail] at tail
      simpa using tail
    subst nil
    simp only [enqueuePublication, linkTail, tail]
    exact ⟨rfl, loose⟩
  | some last =>
    have last' : queue.getLast? = some last := queued.tail ▸ tail
    have linked := queued.chain.append last' queueDistinct.1 fresh loose
    have there : (s.jobs last).isSome := by
      rw [queued.known]
      exact queued.lt_of_mem (by simp [List.mem_of_getLast? last'])
    have next : (enqueuePublication s j).nextOf = Function.update s.nextOf last (some j) := by
      funext k
      obtain ⟨job, found⟩ := Option.isSome_iff_exists.mp there
      by_cases own : k = last <;>
        simp [enqueuePublication, linkTail, tail, State.nextOf, own, found]
    rw [next]
    simpa [enqueuePublication, linkTail, tail] using linked

theorem linkTail_known (j k : JobRef) : ((linkTail s j).jobs k).isSome = (s.jobs k).isSome := by
  unfold linkTail
  cases s.publicationTail with
  | none => rfl
  | some last =>
    by_cases own : k = last
    · subst own
      simp
    · simp [own]

theorem linkTail_count (j : JobRef) : (linkTail s j).jobCount = s.jobCount := by
  unfold linkTail
  split <;> rfl

theorem enqueue {j : JobRef} (queued : Queued events s queue (some j)) (t : Thread)
    (frames : List Frame) :
    Queued (events ++ [⟨s, ⟨t, .enqueue j⟩, (enqueuePublication s j).setFrames t frames⟩])
      ((enqueuePublication s j).setFrames t frames) (queue ++ [j]) none := by
  constructor
  · exact queued.link
  · simp [State.setFrames, enqueuePublication]
  · intro inactive
    cases inactive
  · intro k
    have known := queued.known k
    rw [← linkTail_known j] at known
    rw [← linkTail_count j] at known
    exact known
  · intro k same
    cases same
  · simp [noted_snoc, Action.enqueued?, Action.popped?, queued.enqueued]
  · have count : ((enqueuePublication s j).setFrames t frames).jobCount = s.jobCount :=
      linkTail_count j
    simp [noted_snoc, Action.committed?, queued.committed, count]
  · have count : ((enqueuePublication s j).setFrames t frames).jobCount = s.jobCount :=
      linkTail_count j
    have waiting := queued.waiting
    simp only [Option.toList_some] at waiting
    simp [noted_snoc, Action.enqueued?, waiting, count]

theorem pop {j : JobRef} {job : PublicationJob U} (queued : Queued events s queue pending)
    (first : s.publicationHead = some j) (found : s.jobs j = some job) (t : Thread)
    (frames : List Frame) :
    ∃ rest, queue = j :: rest ∧
      Queued (events ++ [⟨s, ⟨t, .pop j⟩, (popJob s j job).setFrames t frames⟩])
        ((popJob s j job).setFrames t frames) rest pending := by
  cases queue with
  | nil =>
    have none := queued.chain.head
    rw [first] at none
    cases none
  | cons k rest =>
    have same := queued.chain.1
    rw [first] at same
    cases same
    refine ⟨rest, rfl, ?_⟩
    have nextJ : s.nextOf j = job.next := by simp [State.nextOf, found]
    have next (k : JobRef) : ((popJob s j job).setFrames t frames).nextOf k =
        if k = j then none else s.nextOf k := nextOf_setJob j { job with next := none } k
    have fresh : j ∉ rest := by
      have distinct := queued.nodup
      rw [List.append_assoc, List.nodup_append] at distinct
      have tailDistinct := distinct.2.1
      simp only [List.cons_append, List.nodup_cons, List.mem_append, not_or] at tailDistinct
      exact tailDistinct.1.1
    have chain := queued.chain.2
    constructor
    · have chain' : Chain ((popJob s j job).setFrames t frames).nextOf (s.nextOf j) rest := by
        apply chain.congr
        intro k member
        rw [next, if_neg]
        rintro rfl
        exact fresh member
      rw [nextJ] at chain'
      exact chain'
    · have tail := queued.tail
      have head := chain.head
      rw [nextJ] at head
      cases rest with
      | nil => simp_all [State.setFrames, popJob, State.setJob]
      | cons l rest => simp_all [State.setFrames, popJob, State.setJob]
    · intro inactive
      cases queued.empty inactive
    · intro k
      have known := queued.known k
      rwa [← setJob_known found k] at known
    · intro k same
      rw [next]
      split
      · rfl
      · exact queued.loose k same
    · simp [noted_snoc, Action.enqueued?, Action.popped?, queued.enqueued]
    · simp [noted_snoc, Action.committed?, queued.committed, State.setFrames, popJob,
        State.setJob]
    · simp [noted_snoc, Action.enqueued?, queued.waiting, State.setFrames, popJob, State.setJob]

theorem retire (queued : Queued events s queue pending) (empty : s.publicationHead = none)
    (t : Thread) (p : Bool) (frames : List Frame) :
    Queued (events ++ [⟨s, ⟨t, .retire⟩, retireDrain s t p frames⟩]) (retireDrain s t p frames)
      [] pending := by
  have nil : queue = [] := by
    have head := queued.chain.head
    rw [empty] at head
    simpa using head.symm
  subst nil
  refine ⟨queued.chain, rfl, fun _ => rfl, queued.known, queued.loose, ?_, ?_, ?_⟩
  · simp [noted_snoc, Action.enqueued?, Action.popped?, queued.enqueued]
  · simp [noted_snoc, Action.committed?, queued.committed, retireDrain]
  · simp [noted_snoc, Action.enqueued?, queued.waiting, retireDrain]

theorem step {pending' : Option JobRef} (queued : Queued events s queue pending)
    (stage : Stage s pending a pending') (step : Step s ⟨t, a⟩ s') :
    ∃ queue', Queued (events ++ [⟨s, ⟨t, a⟩, s'⟩]) s' queue' pending' := by
  cases step with
  | commit update idle unlocked =>
    cases stage with
    | keep commits _ => cases commits
    | commit => exact ⟨queue, queued.commit t update⟩
  | enqueue top =>
    cases stage with
    | keep _ enqueues => cases enqueues
    | enqueue => exact ⟨_, queued.enqueue t _⟩
  | pop top first found =>
    cases stage
    obtain ⟨rest, rfl, popped⟩ := queued.pop first found t (.draining _ (.invoking _ _) :: _)
    exact ⟨rest, popped⟩
  | retire top empty =>
    cases stage
    exact ⟨[], queued.retire empty t _ _⟩
  | finalize slots top found perm =>
    cases stage
    exact ⟨queue, queued.keep _ (setJob_same found rfl) rfl rfl rfl rfl (setJob_known found)
      rfl rfl rfl⟩
  | finish top found =>
    cases stage
    exact ⟨queue, queued.keep _ (setJob_same found rfl) rfl rfl rfl rfl (setJob_known found)
      rfl rfl rfl⟩
  | @unlock t j leader rest top =>
    cases stage
    refine ⟨queue, ?_⟩
    unfold drainOrWait
    split
    · exact queued.keep _ rfl rfl rfl rfl rfl (fun _ => rfl) rfl rfl rfl
    · split <;> exact queued.keep _ rfl rfl rfl rfl rfl (fun _ => rfl) rfl rfl rfl
  | _ =>
    cases stage
    exact ⟨queue, queued.keep _ rfl rfl rfl rfl rfl (fun _ => rfl) rfl rfl rfl⟩

end Queued

end Baas.Resource.Publication
