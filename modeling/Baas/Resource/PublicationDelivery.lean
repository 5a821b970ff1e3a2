import Baas.Resource.PublicationSlots

/-! What becomes of each publication: its slots are those registered at its finalization,
each has one turn, and the callback of a turn is called when the slot is still registered
then. -/
namespace Baas.Resource.Publication

open Transition

variable {U : Type} {s s' : State U} {t : Thread} {a : Action U} {lead lead' : Lead}

/-- The frames an action can leave on top of the stack of its thread. -/
def Action.leaves : Action U → Frame → Prop
  | .commit j _, .committed k => j = k
  | .finalize j, .finalized k => j = k
  | .enqueue j, .enqueued k _ => j = k
  | .unsubscribe slot, .unsubscribing slot' => slot = slot'
  | .unlock, .waiting _ => True
  | _, .draining .. => True
  | _, _ => False

theorem calls_leaves {f : Frame} (calls : f.calls = true) : a.leaves f := by
  cases f <;> simp [Frame.calls] at calls
  cases a <;> trivial

theorem step_top (led : Led s lead) (step : Step s ⟨t, a⟩ s') {f : Frame} {rest : List Frame}
    (now : s'.frames t = f :: rest) : a.leaves f := by
  have exposed {g : Frame} {rest' : List Frame} (top : s.frames t = g :: rest')
      (same : s'.frames t = rest') : a.leaves f := by
    rw [now] at same
    exact calls_leaves (led.below top (same ▸ List.mem_cons_self))
  have idles (idle : free (s.frames t) = true) (same : s'.frames t = s.frames t) :
      a.leaves f := by
    rw [← same, now] at idle
    exact calls_leaves (free_calls idle)
  cases step with
  | wake top found done => exact exposed top (setFrames_frames _)
  | retire top empty => exact exposed top (by simp [retireDrain, State.frames])
  | unsubscribed top left => exact exposed top (setFrames_frames _)
  | subscribe idle room unused => exact idles idle rfl
  | unsubscribeSelf idle held own => exact idles idle rfl
  | call top =>
    simp only [State.frames, Function.update_self] at now
    cases now
    trivial
  | leave top =>
    simp only [State.frames, Function.update_self] at now
    cases now
    trivial
  | @unlock _ j leader rest' top =>
    cases leader with
    | true =>
      simp only [drainOrWait, if_true, State.frames, Function.update_self] at now
      cases now
      trivial
    | false =>
      by_cases drainer : (s.threads t).publicationDrainer = true
      · apply exposed top
        simp [drainOrWait, drainer]
      · have waits : (drainOrWait { s with mutation := none } t j false rest').frames t =
            .waiting j :: rest' := by
          simp [drainOrWait, drainer]
        rw [waits] at now
        cases now
        trivial
  | commit update idle unlocked =>
    rw [commit, setFrames_frames] at now
    cases now
    rfl
  | _ =>
    rw [setFrames_frames] at now
    cases now
    first | rfl | trivial

theorem closed_step (step : Step s ⟨t, a⟩ s') {slot : SlotRef} (closed : Closed s slot) :
    Closed s' slot := by
  obtain ⟨made, gone⟩ := closed
  have closes (held : SlotRef) (id : Nat) : Closed (close s held id) slot := by
    refine ⟨made, ?_⟩
    by_cases same : slot = held <;> simp [close, State.setSlot, same, gone]
  cases step with
  | subscribe idle room unused =>
    refine ⟨made.trans (Nat.lt_succ_self _), ?_⟩
    simp [subscribe, Nat.ne_of_lt made, gone]
  | unsubscribeSelf idle held own => exact closes _ _
  | @unsubscribe _ held id _ _ _ => exact closes held id
  | @enqueue _ j rest top =>
    refine ⟨(linkTail_slotCount (s := s) j).symm ▸ made, ?_⟩
    have same : (linkTail s j).subscriptions = s.subscriptions := by
      unfold linkTail
      split <;> rfl
    exact (congrFun same slot).trans gone
  | unlock top =>
    unfold drainOrWait
    split
    · exact ⟨made, gone⟩
    · split <;> exact ⟨made, gone⟩
  | _ => exact ⟨made, gone⟩

/-- A destructor that waits has closed its slot. -/
def Leaving (s : State U) : Prop :=
  ∀ t slot rest, s.frames t = .unsubscribing slot :: rest → Closed s slot

theorem Leaving.step (leaving : Leaving s) (led : Led s lead) (listed : Listed s)
    (step : Step s ⟨t, a⟩ s') : Leaving s' := by
  intro t' slot rest now
  by_cases own : t' = t
  · subst own
    have leaves := step_top led step now
    cases step with
    | unsubscribe idle held other =>
      cases leaves
      exact ⟨listed.made held, by simp [close, State.setSlot, State.setFrames]⟩
    | _ => exact leaves.elim
  · rw [step_frames_others step t' own] at now
    exact closed_step step (leaving t' slot rest now)

/-! The turns of the slots of a job and the calls that came of them. -/

def Action.turn? (job : JobRef) : Action U → Option (SlotRef × Bool)
  | .examine j slot accepted => if j = job then some (slot, accepted) else none
  | _ => none

def Action.called? (job : JobRef) : Action U → Option SlotRef
  | .call j slot => if j = job then some slot else none
  | _ => none

/-- The job whose slots are being served. -/
def Drain.job : Drain → Option JobRef
  | .top => none
  | .invoking j _ => some j
  | .entered j _ _ => some j
  | .calling j _ _ _ => some j

/-- The slots that wait for their turn. -/
def Drain.rest : Drain → List SlotRef
  | .top => []
  | .invoking _ rest => rest
  | .entered _ _ rest => rest
  | .calling _ _ rest _ => rest

section
variable (j : JobRef) (slot : SlotRef) (more : List SlotRef) (q : Option SlotRef)

@[simp] theorem job_top : Drain.top.job = none := rfl
@[simp] theorem job_invoking : (Drain.invoking j more).job = some j := rfl
@[simp] theorem job_entered : (Drain.entered j slot more).job = some j := rfl
@[simp] theorem job_calling : (Drain.calling j slot more q).job = some j := rfl
@[simp] theorem rest_invoking : (Drain.invoking j more).rest = more := rfl
@[simp] theorem rest_entered : (Drain.entered j slot more).rest = more := rfl
@[simp] theorem rest_calling : (Drain.calling j slot more q).rest = more := rfl

end

def Lead.drain : Lead → Drain
  | some (_, .draining _ drain) => drain
  | _ => .top

@[simp] theorem drain_draining (t : Thread) (p : Bool) (drain : Drain) :
    Lead.drain (some (t, .draining p drain)) = drain := rfl

def Lead.job (lead : Lead) : Option JobRef := lead.drain.job

def Lead.rest (lead : Lead) : List SlotRef := lead.drain.rest

def Lead.remaining (lead : Lead) (j : JobRef) : List SlotRef :=
  if lead.job = some j then lead.rest else []

def Lead.due (lead : Lead) (j : JobRef) : List SlotRef :=
  if lead.job = some j then lead.entering.toList else []

structure Serving (events : History U) (s : State U) (lead : Lead) : Prop where
  current : ∀ j, lead.job = some j → (noted Action.popped? events).getLast? = some j
  unpopped : ∀ j, j ∉ noted Action.popped? events → noted (Action.turn? j) events = []
  served : ∀ j ∈ noted Action.popped? events,
    (noted (Action.turn? j) events).map Prod.fst ++ lead.remaining j = s.slotsOf j
  called : ∀ j, noted (Action.called? j) events ++ lead.due j =
    ((noted (Action.turn? j) events).filter Prod.snd).map Prod.fst

namespace Serving

variable {events : History U}

/-- An action that pops, examines and calls nothing. -/
theorem keep (serving : Serving events s lead) (popped : a.popped? = none)
    (turn : ∀ j, a.turn? j = none) (called : ∀ j, a.called? j = none)
    (job : ∀ j, lead'.job = some j → lead.job = some j)
    (remaining : lead'.remaining = lead.remaining) (due : lead'.due = lead.due)
    (slots : ∀ j ∈ noted Action.popped? events, s'.slotsOf j = s.slotsOf j) :
    Serving (events ++ [⟨s, ⟨t, a⟩, s'⟩]) s' lead' := by
  constructor
  · intro j first
    rw [noted_snoc, popped]
    simpa using serving.current j (job j first)
  · intro j fresh
    rw [noted_snoc, popped] at fresh
    rw [noted_snoc, turn]
    simpa using serving.unpopped j (by simpa using fresh)
  · intro j member
    rw [noted_snoc, popped] at member
    rw [noted_snoc, turn, remaining]
    have old : j ∈ noted Action.popped? events := by simpa using member
    rw [slots j old]
    simpa using serving.served j old
  · intro j
    rw [noted_snoc, noted_snoc, turn, called, due]
    simpa using serving.called j

theorem pop {p : Bool} {j : JobRef} (serving : Serving events s (some (t, .draining p .top)))
    (fresh : j ∉ noted Action.popped? events) (slots : ∀ k, s'.slotsOf k = s.slotsOf k) :
    Serving (events ++ [⟨s, ⟨t, .pop j⟩, s'⟩]) s'
      (some (t, .draining p (.invoking j (s.slotsOf j)))) := by
  constructor
  · intro k first
    cases first
    simp [noted_snoc, Action.popped?]
  · intro k absent
    simp only [noted_snoc, Action.popped?, Option.toList_some, List.mem_append,
      List.mem_singleton, not_or] at absent
    simpa [noted_snoc, Action.turn?] using serving.unpopped k absent.1
  · intro k member
    simp only [noted_snoc, Action.popped?, Option.toList_some, List.mem_append,
      List.mem_singleton] at member
    by_cases own : k = j
    · subst own
      simp [noted_snoc, Action.turn?, serving.unpopped k fresh, Lead.remaining, Lead.job,
        Lead.rest, slots]
    · have before := serving.served k (by simpa [own] using member)
      simpa [noted_snoc, Action.turn?, Lead.remaining, Lead.job, Ne.symm own, slots]
        using before
  · intro k
    have before := serving.called k
    simpa [noted_snoc, Action.turn?, Action.called?, Lead.due, Lead.job, Lead.entering]
      using before

/-- The slot whose turn has come is examined. -/
theorem examine {p : Bool} {j : JobRef} {slot : SlotRef} {more : List SlotRef} (accepted : Bool)
    {drain : Drain} (serving : Serving events s (some (t, .draining p (.invoking j (slot :: more)))))
    (job : drain.job = some j) (rest : drain.rest = more)
    (entering : (Lead.entering (some (t, .draining p drain))).toList =
      if accepted then [slot] else [])
    (slots : ∀ k, s'.slotsOf k = s.slotsOf k) :
    Serving (events ++ [⟨s, ⟨t, .examine j slot accepted⟩, s'⟩]) s'
      (some (t, .draining p drain)) := by
  have popped : noted Action.popped? (events ++ [⟨s, ⟨t, .examine j slot accepted⟩, s'⟩]) =
      noted Action.popped? events := by simp [noted_snoc, Action.popped?]
  have last := serving.current j rfl
  constructor
  · intro k first
    rw [Lead.job, drain_draining, job] at first
    cases first
    rw [popped, last]
  · intro k absent
    rw [popped] at absent
    have apart : j ≠ k := by
      rintro rfl
      exact absent (List.mem_of_getLast? last)
    simpa [noted_snoc, Action.turn?, apart] using serving.unpopped k absent
  · intro k member
    rw [popped] at member
    have before := serving.served k member
    rw [slots]
    by_cases own : j = k
    · subst own
      simpa [noted_snoc, Action.turn?, Lead.remaining, Lead.job, Lead.rest, job, rest]
        using before
    · simpa [noted_snoc, Action.turn?, Lead.remaining, Lead.job, job, own] using before
  · intro k
    have before := serving.called k
    by_cases own : j = k
    · subst own
      have now : Lead.due (some (t, .draining p drain)) j = if accepted then [slot] else [] := by
        simp [Lead.due, Lead.job, job, entering]
      have none : Lead.due (some (t, .draining p (.invoking j (slot :: more)))) j = [] := by
        simp [Lead.due, Lead.entering]
      rw [none, List.append_nil] at before
      rw [now]
      cases accepted <;> simp [noted_snoc, Action.turn?, Action.called?, before]
    · simpa [noted_snoc, Action.turn?, Action.called?, Lead.due, Lead.job, job, own]
        using before

theorem call {p : Bool} {j : JobRef} {slot : SlotRef} {more : List SlotRef} {q : Option SlotRef}
    (serving : Serving events s (some (t, .draining p (.entered j slot more))))
    (slots : ∀ k, s'.slotsOf k = s.slotsOf k) :
    Serving (events ++ [⟨s, ⟨t, .call j slot⟩, s'⟩]) s'
      (some (t, .draining p (.calling j slot more q))) := by
  constructor
  · intro k first
    cases first
    simpa [noted_snoc, Action.popped?] using serving.current j rfl
  · intro k absent
    simp only [noted_snoc, Action.popped?, Option.toList_none, List.append_nil] at absent
    simpa [noted_snoc, Action.turn?] using serving.unpopped k absent
  · intro k member
    simp only [noted_snoc, Action.popped?, Option.toList_none, List.append_nil] at member
    have before := serving.served k member
    simpa [noted_snoc, Action.turn?, Lead.remaining, Lead.job, Lead.rest, slots] using before
  · intro k
    have before := serving.called k
    by_cases own : j = k
    · subst own
      simpa [noted_snoc, Action.turn?, Action.called?, Lead.due, Lead.job, Lead.entering]
        using before
    · simpa [noted_snoc, Action.turn?, Action.called?, Lead.due, Lead.job, Lead.entering, own]
        using before

end Serving

/-- The job whose slots an action writes. -/
def Action.writes? : Action U → Option JobRef
  | .commit j _ => some j
  | .finalize j => some j
  | _ => none

theorem slotsOf_setJob {j : JobRef} {job : PublicationJob U} (found : s.jobs j = some job)
    (job' : PublicationJob U) (same : job'.slots = job.slots) (k : JobRef) : (s.setJob j job').slotsOf k = s.slotsOf k := by
  by_cases own : k = j <;> simp [State.slotsOf, State.setJob, own, found, same]

theorem linkTail_slotsOf (j k : JobRef) : (linkTail s j).slotsOf k = s.slotsOf k := by
  unfold linkTail
  cases s.publicationTail with
  | none => rfl
  | some last =>
    by_cases own : k = last
    · subst own
      cases found : s.jobs k <;> simp [State.slotsOf, found]
    · simp [State.slotsOf, own]

theorem slotsOf_step (step : Step s ⟨t, a⟩ s') {k : JobRef} (other : a.writes? ≠ some k) :
    s'.slotsOf k = s.slotsOf k := by
  cases step with
  | commit update idle unlocked =>
    have apart : k ≠ s.jobCount := by
      rintro rfl
      exact other rfl
    simp [commit, State.setFrames, State.slotsOf, apart]
  | @finalize _ j job rest slots top found perm =>
    have apart : k ≠ j := by
      rintro rfl
      exact other rfl
    simp [State.setFrames, State.setJob, State.slotsOf, apart]
  | @pop _ p j job rest top first found =>
    exact slotsOf_setJob found { job with next := none } rfl k
  | @finish _ p j job rest top found => exact slotsOf_setJob found { job with done := true } rfl k
  | enqueue top => exact linkTail_slotsOf _ k
  | unlock top =>
    unfold drainOrWait
    split
    · rfl
    · split <;> rfl
  | _ => rfl

theorem quiet_silent (quiet : a.quiet = true) :
    a.popped? = none ∧ (∀ j, a.turn? j = none) ∧ ∀ j, a.called? j = none := by
  cases a <;> simp_all [Action.quiet, Action.popped?, Action.turn?, Action.called?]

/-- A job that was enqueued is not written any more. -/
theorem writes_apart {events : History U} {queue : List JobRef} {pending : Option JobRef}
    (queued : Queued events s queue pending) (locked : Locked s pending)
    (step : Step s ⟨t, a⟩ s') :
    ∀ j ∈ noted Action.enqueued? events, a.writes? ≠ some j := by
  intro j enqueued writes
  have distinct := queued.nodup
  rw [← queued.enqueued, List.nodup_append] at distinct
  rw [queued.enqueued] at enqueued
  cases step with
  | commit update idle unlocked =>
    cases writes
    exact absurd (queued.lt_of_mem (List.mem_append_left _ enqueued)) (lt_irrefl _)
  | finalize slots top found perm =>
    cases writes
    obtain ⟨-, rfl⟩ := locked.holder _ _ _ _ top rfl
    exact distinct.2.2 j (queued.enqueued ▸ enqueued) j (by simp) rfl
  | _ => cases writes

theorem Serving.step {events : History U} {queue : List JobRef} {pending : Option JobRef}
    (serving : Serving events s lead) (queued : Queued events s queue pending)
    (locked : Locked s pending) (turn : Turn s t lead a lead') (step : Step s ⟨t, a⟩ s') :
    Serving (events ++ [⟨s, ⟨t, a⟩, s'⟩]) s' lead' := by
  have slots : ∀ j ∈ noted Action.popped? events, s'.slotsOf j = s.slotsOf j :=
    fun j member => slotsOf_step step
      (writes_apart queued locked step j (queued.enqueued ▸ List.mem_append_left _ member))
  cases turn with
  | keep quiet =>
    obtain ⟨popped, turns, calls⟩ := quiet_silent quiet
    exact serving.keep popped turns calls (fun _ first => first) rfl rfl slots
  | elect => exact serving.keep rfl (fun _ => rfl) (fun _ => rfl) nofun rfl rfl slots
  | begin p => exact serving.keep rfl (fun _ => rfl) (fun _ => rfl) nofun rfl rfl slots
  | retire _ => exact serving.keep rfl (fun _ => rfl) (fun _ => rfl) nofun rfl rfl slots
  | leave =>
    exact serving.keep rfl (fun _ => rfl) (fun _ => rfl) (fun _ first => first) rfl rfl slots
  | finish =>
    refine serving.keep rfl (fun _ => rfl) (fun _ => rfl) nofun ?_ ?_ slots
    · funext k
      simp [Lead.remaining, Lead.job, Lead.rest]
    · funext k
      simp [Lead.due, Lead.entering]
  | pop head =>
    cases step with
    | pop top first found =>
      obtain ⟨rest, rfl, -⟩ := queued.pop first found t []
      have distinct := queued.nodup
      rw [List.append_assoc, List.nodup_append] at distinct
      apply serving.pop (fun popped => distinct.2.2 _ popped _ (by simp) rfl)
      exact fun k => slotsOf_step (.pop top first found) nofun
  | skip refused =>
    exact serving.examine false rfl rfl rfl (fun _ => slotsOf_step step nofun)
  | enter accepted =>
    exact serving.examine true rfl rfl rfl (fun _ => slotsOf_step step nofun)
  | call => exact serving.call (fun _ => slotsOf_step step nofun)

/-! The slots of a job are the ones registered at its finalization. -/

/-- The event that finalized a job, and the slots it gave it. -/
def FinalAt (events : History U) (s : State U) (j : JobRef) : Prop :=
  ∃ e ∈ events, e.label.action = .finalize j ∧ (s.slotsOf j).Nodup ∧
    ∀ slot, slot ∈ s.slotsOf j ↔ Registered e.source slot

theorem FinalAt.keep {events : History U} {j : JobRef} (final : FinalAt events s j)
    (same : s'.slotsOf j = s.slotsOf j) (later : History U) : FinalAt (events ++ later) s' j := by
  obtain ⟨e, member, action, distinct, slots⟩ := final
  refine ⟨e, List.mem_append_left _ member, action, ?_, ?_⟩
  · rwa [same]
  · rwa [same]

structure Finalized (events : History U) (s : State U) : Prop where
  frame : ∀ t j rest, s.frames t = .finalized j :: rest → FinalAt events s j
  enqueued : ∀ j ∈ noted Action.enqueued? events, FinalAt events s j

theorem Finalized.step {events : History U} {queue : List JobRef} {pending : Option JobRef}
    (finalized : Finalized events s) (queued : Queued events s queue pending)
    (locked : Locked s pending) (listed : Listed s) (led : Led s lead)
    (step : Step s ⟨t, a⟩ s') : Finalized (events ++ [⟨s, ⟨t, a⟩, s'⟩]) s' := by
  have apart := writes_apart queued locked step
  constructor
  · intro t' j rest now
    by_cases own : t' = t
    · subst own
      have leaves := step_top led step now
      cases step with
      | @finalize _ k job rest' slots top found perm =>
        cases leaves
        have given : ((s.setJob j { job with slots }).setFrames t'
            (.finalized j :: rest')).slotsOf j = slots := by
          simp [State.slotsOf, State.setJob, State.setFrames]
        refine ⟨_, List.mem_append_right _ (List.mem_singleton_self _), rfl, ?_, ?_⟩
        · rw [given]
          exact perm.nodup_iff.mpr listed.accepting_nodup
        · intro slot
          rw [given, perm.mem_iff]
          exact listed.mem_accepting slot
      | _ => exact leaves.elim
    · rw [step_frames_others step t' own] at now
      have holder := (locked.holder t' _ rest _ now rfl).1
      apply (finalized.frame t' j rest now).keep
      apply slotsOf_step step
      intro writes
      cases step with
      | commit update idle unlocked =>
        rw [unlocked] at holder
        cases holder
      | finalize slots top found perm =>
        have other := (locked.holder _ _ _ _ top rfl).1
        rw [holder] at other
        exact own (Option.some.inj other)
      | _ => cases writes
  · intro j member
    rw [noted_snoc, List.mem_append] at member
    obtain old | new := member
    · exact (finalized.enqueued j old).keep (slotsOf_step step (apart j old)) _
    · cases step with
      | enqueue top =>
        cases List.mem_singleton.mp new
        exact (finalized.frame _ _ _ top).keep (slotsOf_step (.enqueue top) (by rintro ⟨⟩)) _
      | _ => cases new

/-! No callback starts after the destructor of its subscription has returned. -/

structure Silenced (events : History U) (s : State U) (lead : Lead) : Prop where
  returned : ∀ e ∈ events, ∀ slot, e.label.action = .unsubscribed slot →
    Closed s slot ∧ lead.entering ≠ some slot
  silent : events.Pairwise (fun e later => ∀ slot j, e.label.action = .unsubscribed slot →
    later.label.action ≠ .call j slot)

theorem turn_entering (turn : Turn s t lead a lead') {slot : SlotRef}
    (entering : lead'.entering = some slot) :
    lead.entering = some slot ∨ (s.slots slot).accepting = true := by
  cases turn with
  | keep quiet => exact .inl entering
  | enter accepted =>
    cases entering
    exact .inr accepted
  | _ => cases entering

theorem callback_not_entering {slot : SlotRef} (calling : lead.callbackOf t = some slot) :
    lead.entering = none := by
  unfold Lead.callbackOf at calling
  split at calling
  · rfl
  · cases calling

theorem Silenced.step {events : History U} (silenced : Silenced events s lead)
    (listed : Listed s) (inside : Inside s lead) (leaving : Leaving s)
    (turn : Turn s t lead a lead') (step : Step s ⟨t, a⟩ s') :
    Silenced (events ++ [⟨s, ⟨t, a⟩, s'⟩]) s' lead' := by
  constructor
  · intro e member slot unsubscribed
    obtain old | new := List.mem_append.mp member
    · obtain ⟨closed, quiet⟩ := silenced.returned e old slot unsubscribed
      refine ⟨closed_step step closed, ?_⟩
      intro entering
      obtain same | accepts := turn_entering turn entering
      · exact quiet same
      · rw [listed.accepts, closed.2] at accepts
        cases accepts
    · cases List.mem_singleton.mp new
      cases step with
      | unsubscribeSelf idle held own =>
        cases unsubscribed
        cases turn
        refine ⟨⟨listed.made held, by simp [close, State.setSlot]⟩, ?_⟩
        -- The thread is in the callback of the slot, so nobody is about to enter one.
        intro entering
        rw [callback_not_entering (own ▸ (inside.callback t).symm)] at entering
        cases entering
      | unsubscribed top left =>
        cases unsubscribed
        cases turn
        refine ⟨leaving _ _ _ top, ?_⟩
        intro entering
        have count := inside.entered slot
        have within : lead.inside = some slot := by
          unfold Lead.entering at entering
          split at entering
          · exact entering
          · cases entering
        rw [left, within] at count
        simp at count
      | _ => cases unsubscribed
  · rw [List.pairwise_append]
    refine ⟨silenced.silent, List.pairwise_singleton _ _, ?_⟩
    intro e member later last slot j unsubscribed calls
    cases List.mem_singleton.mp last
    have quiet := (silenced.returned e member slot unsubscribed).2
    cases calls
    cases turn with
    | keep noisy => cases noisy
    | call => exact quiet rfl

end Baas.Resource.Publication
