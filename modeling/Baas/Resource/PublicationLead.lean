import Baas.Resource.Publication

/-! One thread leads the drain while `publication_active` is set, and no other frame on any
stack drains. -/
namespace Baas.Resource.Publication

open Transition

variable {U : Type} {s s' : State U} {t : Thread} {a : Action U}

def Frame.calls : Frame → Bool
  | .draining _ (.calling ..) => true
  | _ => false

/-- A frame that has taken the lead and not given it back. -/
def Frame.leads : Frame → Bool
  | .enqueued _ leader => leader
  | .draining .. => true
  | _ => false

abbrev Lead := Option (Thread × Frame)

def Lead.framesOf (lead : Lead) (t : Thread) : List Frame :=
  match lead with
  | none => []
  | some (t', f) => if t' = t then [f] else []

@[simp] theorem framesOf_none (t : Thread) : Lead.framesOf none t = [] := rfl

@[simp] theorem framesOf_self (t : Thread) (f : Frame) : Lead.framesOf (some (t, f)) t = [f] := by
  simp [Lead.framesOf]

theorem framesOf_other {t t' : Thread} (other : t ≠ t') (f : Frame) :
    Lead.framesOf (some (t, f)) t' = [] := by
  simp [Lead.framesOf, other]

structure Led (s : State U) (lead : Lead) : Prop where
  /-- Only a callback has a call above it. -/
  stacked : ∀ t f rest, s.frames t = f :: rest → ∀ g ∈ rest, g.calls = true
  leads : ∀ t, (s.frames t).filter Frame.leads = lead.framesOf t
  active : s.publicationActive = lead.isSome

theorem calls_leads {f : Frame} (calls : f.calls = true) : f.leads = true := by
  cases f <;> simp_all [Frame.calls, Frame.leads]

theorem free_calls {f : Frame} {rest : List Frame} (idle : free (f :: rest) = true) :
    f.calls = true := by
  cases f with
  | draining p drain => cases drain <;> simp_all [free, Frame.calls]
  | _ => simp [free] at idle

namespace Led

variable {lead : Lead} {f g : Frame} {rest : List Frame}

theorem below (led : Led s lead) (top : s.frames t = f :: rest) (member : g ∈ rest) :
    g.calls = true :=
  led.stacked t f rest top g member

/-- The frames under a leading one do not lead, and nothing else does. -/
theorem unique (led : Led s lead) (top : s.frames t = f :: rest) (first : f.leads = true) :
    lead = some (t, f) ∧ rest = [] := by
  have here := led.leads t
  rw [top, List.filter_cons_of_pos first] at here
  cases lead with
  | none => simp [Lead.framesOf] at here
  | some pair =>
    obtain ⟨t', g⟩ := pair
    by_cases same : t' = t
    · subst same
      simp only [framesOf_self, List.cons.injEq, List.filter_eq_nil_iff] at here
      obtain ⟨rfl, clear⟩ := here
      refine ⟨rfl, ?_⟩
      apply List.eq_nil_iff_forall_not_mem.mpr
      intro g member
      exact clear g member (calls_leads (led.below top member))
    · simp [framesOf_other same] at here

/-- A thread that calls from a callback is the one that leads. -/
theorem of_free (led : Led s lead) (idle : free (s.frames t) = true) :
    s.frames t = [] ∨ ∃ f, f.calls = true ∧ s.frames t = [f] ∧ lead = some (t, f) := by
  cases top : s.frames t with
  | nil => exact .inl rfl
  | cons f rest =>
    rw [top] at idle
    have calls := free_calls idle
    obtain ⟨first, rfl⟩ := led.unique top (calls_leads calls)
    exact .inr ⟨f, calls, rfl, first⟩

/-- A step that pushes or changes a frame that does not lead. -/
theorem quiet (led : Led s lead) (others : ∀ t', t' ≠ t → s'.frames t' = s.frames t')
    (stacked : ∀ f rest, s'.frames t = f :: rest → ∀ g ∈ rest, g.calls = true)
    (same : (s'.frames t).filter Frame.leads = (s.frames t).filter Frame.leads)
    (active : s'.publicationActive = s.publicationActive) : Led s' lead := by
  constructor
  · intro t' f rest top
    by_cases own : t' = t
    · subst own
      exact stacked f rest top
    · rw [others t' own] at top
      exact led.stacked t' f rest top
  · intro t'
    by_cases own : t' = t
    · subst own
      rw [same, led.leads]
    · rw [others t' own, led.leads]
  · rw [active, led.active]

/-- A step that changes the frame that leads. -/
theorem swap (led : Led s lead) (top : s.frames t = f :: rest) (first : f.leads = true)
    (others : ∀ t', t' ≠ t → s'.frames t' = s.frames t') (now : s'.frames t = g :: rest)
    (still : g.leads = true) (active : s'.publicationActive = s.publicationActive) :
    Led s' (some (t, g)) := by
  obtain ⟨rfl, rfl⟩ := led.unique top first
  constructor
  · intro t' f' rest' top'
    by_cases own : t' = t
    · subst own
      rw [now] at top'
      cases top'
      nofun
    · rw [others t' own] at top'
      exact led.stacked t' f' rest' top'
  · intro t'
    by_cases own : t' = t
    · subst own
      simp [now, still]
    · have here := led.leads t'
      rw [others t' own, here, framesOf_other (Ne.symm own), framesOf_other (Ne.symm own)]
  · rw [active, led.active]
    rfl

end Led

/-! What each section leaves alone. -/

@[simp] theorem linkTail_threads (j : JobRef) : (linkTail s j).threads = s.threads := by
  unfold linkTail
  split <;> rfl

@[simp] theorem enqueuePublication_threads (j : JobRef) :
    (enqueuePublication s j).threads = s.threads := linkTail_threads j

@[simp] theorem setFrames_frames (frames : List Frame) : (s.setFrames t frames).frames t = frames := by
  simp [State.setFrames, State.frames]

theorem setFrames_threads_ne (frames : List Frame) {t' : Thread} (other : t' ≠ t) :
    (s.setFrames t frames).threads t' = s.threads t' := by
  simp [State.setFrames, other]

theorem drainOrWait_threads_ne (j : JobRef) (leader : Bool) (rest : List Frame) {t' : Thread}
    (other : t' ≠ t) : (drainOrWait s t j leader rest).threads t' = s.threads t' := by
  unfold drainOrWait
  split
  · simp [other]
  · split <;> rw [setFrames_threads_ne _ other]

theorem step_others (step : Step s ⟨t, a⟩ s') (t' : Thread) (other : t' ≠ t) :
    s'.threads t' = s.threads t' := by
  cases step with
  | unlock top => rw [drainOrWait_threads_ne _ _ _ other]
  | retire top empty => simp [retireDrain, other]
  | call top => simp [other]
  | leave top => simp [other]
  | subscribe => rfl
  | unsubscribeSelf => rfl
  | enqueue top => rw [setFrames_threads_ne _ other, enqueuePublication_threads]
  | _ => exact setFrames_threads_ne _ other

theorem step_frames_others (step : Step s ⟨t, a⟩ s') (t' : Thread) (other : t' ≠ t) :
    s'.frames t' = s.frames t' := by
  unfold State.frames
  rw [step_others step t' other]

/-! The drain by itself: how the lead moves with each action. -/

/-- The slots a job was finalized with. -/
def State.slotsOf (s : State U) (j : JobRef) : List SlotRef :=
  ((s.jobs j).map PublicationJob.slots).getD []

def Action.quiet : Action U → Bool
  | .pop _ => false
  | .retire => false
  | .examine .. => false
  | .call .. => false
  | .leave => false
  | .finish _ => false
  | _ => true

inductive Turn (s : State U) (t : Thread) : Lead → Action U → Lead → Prop
  | keep {lead : Lead} {a : Action U} : a.quiet = true → Turn s t lead a lead
  | elect {j : JobRef} : Turn s t none (.enqueue j) (some (t, .enqueued j true))
  | begin {j : JobRef} (p : Bool) :
      Turn s t (some (t, .enqueued j true)) .unlock (some (t, .draining p .top))
  | pop {p : Bool} {j : JobRef} : s.publicationHead = some j →
      Turn s t (some (t, .draining p .top)) (.pop j)
        (some (t, .draining p (.invoking j (s.slotsOf j))))
  | retire {p : Bool} : s.publicationHead = none →
      Turn s t (some (t, .draining p .top)) .retire none
  | skip {p : Bool} {j : JobRef} {slot : SlotRef} {more : List SlotRef} :
      (s.slots slot).accepting = false →
      Turn s t (some (t, .draining p (.invoking j (slot :: more)))) (.examine j slot false)
        (some (t, .draining p (.invoking j more)))
  | enter {p : Bool} {j : JobRef} {slot : SlotRef} {more : List SlotRef} :
      (s.slots slot).accepting = true →
      Turn s t (some (t, .draining p (.invoking j (slot :: more)))) (.examine j slot true)
        (some (t, .draining p (.entered j slot more)))
  | call {p : Bool} {j : JobRef} {slot : SlotRef} {more : List SlotRef} :
      Turn s t (some (t, .draining p (.entered j slot more))) (.call j slot)
        (some (t, .draining p (.calling j slot more (s.threads t).callbackSlot)))
  | leave {p : Bool} {j : JobRef} {slot : SlotRef} {more : List SlotRef}
      {previous : Option SlotRef} :
      Turn s t (some (t, .draining p (.calling j slot more previous))) .leave
        (some (t, .draining p (.invoking j more)))
  | finish {p : Bool} {j : JobRef} :
      Turn s t (some (t, .draining p (.invoking j []))) (.finish j) (some (t, .draining p .top))

@[simp] theorem linkTail_active (j : JobRef) :
    (linkTail s j).publicationActive = s.publicationActive := by
  unfold linkTail
  split <;> rfl

theorem drainOrWait_active (j : JobRef) (leader : Bool) (rest : List Frame) :
    (drainOrWait s t j leader rest).publicationActive = s.publicationActive := by
  unfold drainOrWait
  split
  · rfl
  · split <;> rfl

/-- A call from a free thread that is pushed on its stack. -/
theorem Led.push {lead : Lead} (led : Led s lead) (idle : free (s.frames t) = true) {f : Frame}
    (others : ∀ t', t' ≠ t → s'.frames t' = s.frames t') (now : s'.frames t = f :: s.frames t)
    (follows : f.leads = false) (active : s'.publicationActive = s.publicationActive) :
    Led s' lead := by
  apply led.quiet others _ _ active
  · intro g rest top g' member
    rw [now] at top
    cases top
    obtain none | ⟨c, calls, only, -⟩ := led.of_free idle
    · simp [none] at member
    · rw [only, List.mem_singleton] at member
      exact member ▸ calls
  · rw [now, List.filter_cons_of_neg (by simp [follows])]

/-- A frame that does not lead is left or changed. -/
theorem Led.pass {lead : Lead} (led : Led s lead) {f : Frame} {rest : List Frame}
    (top : s.frames t = f :: rest) (follows : f.leads = false)
    (others : ∀ t', t' ≠ t → s'.frames t' = s.frames t')
    (now : s'.frames t = rest ∨ ∃ g : Frame, s'.frames t = g :: rest ∧ g.leads = false)
    (active : s'.publicationActive = s.publicationActive) : Led s' lead := by
  have below : ∀ g ∈ rest, g.calls = true := fun g member => led.below top member
  apply led.quiet others _ _ active
  · intro g rest' top' g' member
    obtain now | ⟨h, now, -⟩ := now
    · rw [top'] at now
      exact below g' (now ▸ List.mem_cons_of_mem _ member)
    · rw [top'] at now
      cases now
      exact below g' member
  · rw [top, List.filter_cons_of_neg (by simp [follows])]
    obtain now | ⟨h, now, still⟩ := now
    · rw [now]
    · rw [now, List.filter_cons_of_neg (by simp [still])]

theorem Led.elect {lead : Lead} (led : Led s lead) (inactive : s.publicationActive = false)
    {f g : Frame} {rest : List Frame} (top : s.frames t = f :: rest)
    (others : ∀ t', t' ≠ t → s'.frames t' = s.frames t') (now : s'.frames t = g :: rest)
    (first : g.leads = true) (active : s'.publicationActive = true) :
    lead = none ∧ Led s' (some (t, g)) := by
  have none : lead = none := by
    have here := led.active
    rw [inactive] at here
    simpa using here.symm
  subst none
  have clear : rest.filter Frame.leads = [] := by
    have here := led.leads t
    rw [top] at here
    by_cases f.leads = true <;> simp_all
  refine ⟨rfl, ?_, ?_, active⟩
  · intro t' f' rest' top'
    by_cases own : t' = t
    · subst own
      rw [now] at top'
      cases top'
      exact fun g' member => led.below top member
    · rw [others t' own] at top'
      exact led.stacked t' f' rest' top'
  · intro t'
    by_cases own : t' = t
    · subst own
      rw [now, List.filter_cons_of_pos first, clear, framesOf_self]
    · rw [others t' own, led.leads, framesOf_other (Ne.symm own), framesOf_none]

theorem Led.resign {lead : Lead} (led : Led s lead) {f : Frame} {rest : List Frame}
    (top : s.frames t = f :: rest) (first : f.leads = true)
    (others : ∀ t', t' ≠ t → s'.frames t' = s.frames t') (now : s'.frames t = rest)
    (active : s'.publicationActive = false) : Led s' none := by
  obtain ⟨rfl, rfl⟩ := led.unique top first
  refine ⟨?_, ?_, active⟩
  · intro t' f' rest' top'
    by_cases own : t' = t
    · subst own
      rw [now] at top'
      cases top'
    · rw [others t' own] at top'
      exact led.stacked t' f' rest' top'
  · intro t'
    by_cases own : t' = t
    · subst own
      simp [now]
    · rw [others t' own, led.leads, framesOf_other (Ne.symm own), framesOf_none]

theorem slotsOf_some {j : JobRef} {job : PublicationJob U} (found : s.jobs j = some job) :
    s.slotsOf j = job.slots := by
  simp [State.slotsOf, found]

/-- Every step moves the lead as the drain allows, or leaves it where it is. -/
theorem Led.step {lead : Lead} (led : Led s lead) (step : Step s ⟨t, a⟩ s') :
    ∃ lead', Led s' lead' ∧ Turn s t lead a lead' := by
  have others := step_frames_others step
  cases step with
  | commit update idle unlocked =>
    exact ⟨lead, led.push idle others (setFrames_frames _) rfl rfl, .keep rfl⟩
  | finalize slots top found perm =>
    exact ⟨lead, led.pass top rfl others (.inr ⟨_, setFrames_frames _, rfl⟩) rfl, .keep rfl⟩
  | enqueue top =>
    cases active : s.publicationActive with
    | true =>
      rw [active] at others
      refine ⟨lead, ?_, .keep rfl⟩
      exact led.pass top rfl others (.inr ⟨_, setFrames_frames _, rfl⟩) active.symm
    | false =>
      rw [active] at others
      obtain ⟨rfl, elected⟩ := led.elect active top others (setFrames_frames _) rfl rfl
      exact ⟨_, elected, .elect⟩
  | @unlock t j leader rest top =>
    cases leader with
    | true =>
      obtain ⟨rfl, rfl⟩ := led.unique top rfl
      refine ⟨some (t, .draining (s.threads t).publicationDrainer .top), ?_, .begin _⟩
      exact led.swap top rfl others (by simp [drainOrWait, State.frames]) rfl
        (drainOrWait_active _ _ _)
    | false =>
      refine ⟨lead, led.pass top rfl others ?_ (drainOrWait_active _ _ _), .keep rfl⟩
      simp only [drainOrWait, Bool.false_eq_true, if_false]
      split
      · exact .inl (setFrames_frames _)
      · exact .inr ⟨_, setFrames_frames _, rfl⟩
  | wake top found done =>
    exact ⟨lead, led.pass top rfl others (.inl (setFrames_frames _)) rfl, .keep rfl⟩
  | pop top first found =>
    obtain ⟨rfl, rfl⟩ := led.unique top rfl
    refine ⟨_, led.swap top rfl others (setFrames_frames _) rfl rfl, ?_⟩
    rw [← slotsOf_some found]
    exact .pop first
  | retire top empty =>
    obtain ⟨rfl, rfl⟩ := led.unique top rfl
    refine ⟨none, led.resign top rfl others ?_ rfl, .retire empty⟩
    simp [retireDrain, State.frames]
  | skip top refused =>
    obtain ⟨rfl, rfl⟩ := led.unique top rfl
    exact ⟨_, led.swap top rfl others (setFrames_frames _) rfl rfl, .skip refused⟩
  | enter top accepted =>
    obtain ⟨rfl, rfl⟩ := led.unique top rfl
    exact ⟨_, led.swap top rfl others (setFrames_frames _) rfl rfl, .enter accepted⟩
  | call top =>
    obtain ⟨rfl, rfl⟩ := led.unique top rfl
    refine ⟨_, led.swap top rfl others ?_ rfl rfl, .call⟩
    simp [State.frames]
  | leave top =>
    obtain ⟨rfl, rfl⟩ := led.unique top rfl
    refine ⟨_, led.swap top rfl others ?_ rfl rfl, .leave⟩
    simp [State.frames]
  | finish top found =>
    obtain ⟨rfl, rfl⟩ := led.unique top rfl
    exact ⟨_, led.swap top rfl others (setFrames_frames _) rfl rfl, .finish⟩
  | subscribe idle room unused =>
    exact ⟨lead, led.quiet others (fun f rest top => led.stacked t f rest top) rfl rfl, .keep rfl⟩
  | unsubscribeSelf idle held own =>
    exact ⟨lead, led.quiet others (fun f rest top => led.stacked t f rest top) rfl rfl, .keep rfl⟩
  | unsubscribe idle held other =>
    exact ⟨lead, led.push idle others (setFrames_frames _) rfl rfl, .keep rfl⟩
  | unsubscribed top left =>
    exact ⟨lead, led.pass top rfl others (.inl (setFrames_frames _)) rfl, .keep rfl⟩

end Baas.Resource.Publication
