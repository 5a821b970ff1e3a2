import Mathlib.Algebra.GroupWithZero.Nat
import Baas.Resource.PublicationDelivery

/-! Whole runs of the delivery of updates. -/
namespace Baas.Resource.Publication

open Transition

variable {U : Type} {s s' : State U} {t : Thread} {a : Action U} {lead lead' : Lead}
  {events : History U} {queue : List JobRef} {pending : Option JobRef}

def Action.finished? : Action U → Option JobRef
  | .finish j => some j
  | _ => none

def Action.calledJob? : Action U → Option JobRef
  | .call j _ => some j
  | _ => none

/-- Jobs that are popped are finished before the next one, and callbacks come in the order
of the jobs. -/
structure Ordered (events : History U) (lead : Lead) : Prop where
  finished : noted Action.finished? events ++ lead.job.toList = noted Action.popped? events
  known : ∀ j ∈ noted Action.calledJob? events, j ∈ noted Action.popped? events
  sorted : (noted Action.calledJob? events).Pairwise (· ≤ ·)

/-- The jobs popped so far are numbered in the order of their commits. -/
theorem popped_sorted (queued : Queued events s queue pending) :
    (noted Action.popped? events).Pairwise (· < ·) := by
  have whole : (noted Action.popped? events ++ queue ++ pending.toList).Pairwise (· < ·) := by
    rw [← queued.enqueued, queued.waiting]
    exact List.pairwise_lt_range
  rw [List.append_assoc, List.pairwise_append] at whole
  exact whole.1

theorem le_of_getLast? {l : List Nat} {last j : Nat} (sorted : l.Pairwise (· < ·))
    (final : l.getLast? = some last) (member : j ∈ l) : j ≤ last := by
  obtain ⟨front, rfl⟩ := List.getLast?_eq_some_iff.mp final
  rw [List.pairwise_append] at sorted
  obtain old | new := List.mem_append.mp member
  · exact (sorted.2.2 j old last (by simp)).le
  · exact (List.mem_singleton.mp new).le

theorem Ordered.keep (ordered : Ordered events lead) (finished : a.finished? = none)
    (popped : a.popped? = none) (calls : a.calledJob? = none) (job : lead'.job = lead.job) :
    Ordered (events ++ [⟨s, ⟨t, a⟩, s'⟩]) lead' := by
  constructor
  · simp [noted_snoc, finished, popped, job, ordered.finished]
  · simpa [noted_snoc, popped, calls] using ordered.known
  · simpa [noted_snoc, calls] using ordered.sorted

theorem Ordered.step (ordered : Ordered events lead) (serving : Serving events s lead)
    (queued : Queued events s queue pending) (turn : Turn s t lead a lead') :
    Ordered (events ++ [⟨s, ⟨t, a⟩, s'⟩]) lead' := by
  cases turn with
  | keep quiet =>
    apply ordered.keep _ _ _ rfl <;> cases a <;> first | rfl | cases quiet
  | elect => exact ordered.keep rfl rfl rfl rfl
  | begin p => exact ordered.keep rfl rfl rfl rfl
  | retire _ => exact ordered.keep rfl rfl rfl rfl
  | skip _ => exact ordered.keep rfl rfl rfl rfl
  | enter _ => exact ordered.keep rfl rfl rfl rfl
  | leave => exact ordered.keep rfl rfl rfl rfl
  | @pop p j _ =>
    constructor
    · have before := ordered.finished
      simp only [Lead.job, drain_draining, job_top, Option.toList_none, List.append_nil] at before
      simp [noted_snoc, Action.finished?, Action.popped?, Lead.job, before]
    · intro k member
      simp only [noted_snoc, Action.calledJob?, Option.toList_none, List.append_nil] at member
      simp [noted_snoc, Action.popped?, ordered.known k member]
    · simpa [noted_snoc, Action.calledJob?] using ordered.sorted
  | @finish p j =>
    constructor
    · have before := ordered.finished
      simp only [Lead.job, drain_draining, job_invoking, Option.toList_some] at before
      simp [noted_snoc, Action.finished?, Action.popped?, Lead.job, before]
    · simpa [noted_snoc, Action.popped?, Action.calledJob?] using ordered.known
    · simpa [noted_snoc, Action.calledJob?] using ordered.sorted
  | @call p j slot more =>
    have last := serving.current j rfl
    constructor
    · simpa [noted_snoc, Action.finished?, Action.popped?, Lead.job] using ordered.finished
    · intro k member
      simp only [noted_snoc, Action.calledJob?, Option.toList_some, List.mem_append,
        List.mem_singleton] at member
      simp only [noted_snoc, Action.popped?, Option.toList_none, List.append_nil]
      obtain old | rfl := member
      · exact ordered.known k old
      · exact List.mem_of_getLast? last
    · simp only [noted_snoc, Action.calledJob?, Option.toList_some]
      rw [List.pairwise_append]
      refine ⟨ordered.sorted, List.pairwise_singleton _ _, ?_⟩
      intro k member l new
      cases List.mem_singleton.mp new
      exact le_of_getLast? (popped_sorted queued) last (ordered.known k member)

structure Inv (events : History U) (s : State U) (lead : Lead) (queue : List JobRef)
    (pending : Option JobRef) : Prop where
  led : Led s lead
  locked : Locked s pending
  queued : Queued events s queue pending
  listed : Listed s
  inside : Inside s lead
  leaving : Leaving s
  serving : Serving events s lead
  finalized : Finalized events s
  silenced : Silenced events s lead
  ordered : Ordered events lead

theorem Inv.step (inv : Inv events s lead queue pending) (step : Step s ⟨t, a⟩ s') :
    ∃ lead' queue' pending', Inv (events ++ [⟨s, ⟨t, a⟩, s'⟩]) s' lead' queue' pending' ∧
      Turn s t lead a lead' := by
  obtain ⟨lead', led, turn⟩ := inv.led.step step
  obtain ⟨pending', locked, stage⟩ := inv.locked.step inv.led step
  obtain ⟨queue', queued⟩ := inv.queued.step stage step
  refine ⟨lead', queue', pending', ?_, turn⟩
  exact ⟨led, locked, queued, inv.listed.step step,
    inv.inside.step inv.listed inv.led turn step, inv.leaving.step inv.led inv.listed step,
    inv.serving.step inv.queued inv.locked turn step,
    inv.finalized.step inv.queued inv.locked inv.listed inv.led step,
    inv.silenced.step inv.listed inv.inside inv.leaving turn step,
    inv.ordered.step inv.serving inv.queued turn⟩

theorem Inv.start (maximum : Nat) : Inv [] ({ maximum } : State U) none [] none where
  led := ⟨fun _ _ _ top => (by cases top), fun _ => rfl, rfl⟩
  locked := ⟨fun _ _ _ _ top => (by cases top), fun _ => rfl⟩
  queued := ⟨rfl, rfl, fun _ => rfl, by simp, fun _ same => (by cases same), rfl, rfl, rfl⟩
  listed := ⟨by simp, fun _ => rfl, fun _ _ => rfl⟩
  inside := ⟨fun _ => by simp [Lead.inside], fun _ => rfl, fun _ _ _ _ _ _ same => (by cases same),
    fun _ same => (by cases same)⟩
  leaving := fun _ _ _ top => (by cases top)
  serving := ⟨fun _ same => (by cases same), fun _ _ => rfl, by simp, fun _ => rfl⟩
  finalized := ⟨fun _ _ _ top => (by cases top), by simp⟩
  silenced := ⟨by simp, .nil⟩
  ordered := ⟨rfl, by simp, .nil⟩

theorem run_inv (run : Run (deliverySystem U) events s) :
    ∃ lead queue pending, Inv events s lead queue pending := by
  induction run with
  | start initial =>
    obtain ⟨maximum, rfl⟩ := initial
    exact ⟨none, [], none, Inv.start maximum⟩
  | @step es s t l prior step ih =>
    obtain ⟨lead, queue, pending, inv⟩ := ih
    obtain ⟨lead', queue', pending', next, -⟩ := inv.step step
    exact ⟨lead', queue', pending', next⟩

/-! A job in the queue is popped after a bounded number of steps of the drain. -/

def Drain.steps : Drain → Nat
  | .top => 0
  | .invoking _ rest => 3 * rest.length + 1
  | .entered _ _ rest => 3 * rest.length + 3
  | .calling _ _ rest _ => 3 * rest.length + 2

def State.jobSteps (s : State U) (j : JobRef) : Nat := 3 * (s.slotsOf j).length + 2

/-- The steps the drain takes before it comes to `j`. -/
def distance (s : State U) (lead : Lead) (queue : List JobRef) (j : JobRef) : Nat :=
  lead.drain.steps + ((queue.takeWhile (· ≠ j)).map s.jobSteps).sum

theorem ahead_same {j : JobRef} (same : ∀ k ∈ queue, s'.slotsOf k = s.slotsOf k) :
    ((queue.takeWhile (· ≠ j)).map s'.jobSteps).sum =
      ((queue.takeWhile (· ≠ j)).map s.jobSteps).sum := by
  congr 1
  apply List.map_congr_left
  intro k member
  simp [State.jobSteps, same k ((List.takeWhile_sublist _).subset member)]

theorem takeWhile_append_mem {j : JobRef} (member : j ∈ queue) (more : List JobRef) :
    (queue ++ more).takeWhile (· ≠ j) = queue.takeWhile (· ≠ j) := by
  induction queue with
  | nil => cases member
  | cons k rest ih =>
    by_cases own : k = j
    · simp [own]
    · have later : j ∈ rest := by simpa [Ne.symm own] using member
      rw [List.cons_append, List.takeWhile_cons_of_pos (by simp [own]), ih later,
        List.takeWhile_cons_of_pos (by simp [own])]

theorem distance_step {queue' : List JobRef} {pending' : Option JobRef}
    (inv : Inv events s lead queue pending)
    (next : Inv (events ++ [⟨s, ⟨t, a⟩, s'⟩]) s' lead' queue' pending')
    (turn : Turn s t lead a lead') (step : Step s ⟨t, a⟩ s') {j : JobRef} (waits : j ∈ queue) :
    j ∈ noted Action.popped? (events ++ [⟨s, ⟨t, a⟩, s'⟩]) ∨
      (j ∈ queue' ∧ distance s' lead' queue' j + (if a.quiet then 0 else 1) ≤
        distance s lead queue j) := by
  have slots : ∀ k ∈ queue, s'.slotsOf k = s.slotsOf k := by
    intro k member
    apply slotsOf_step step (writes_apart inv.queued inv.locked step k _)
    rw [inv.queued.enqueued]
    exact List.mem_append_right _ member
  have history := next.queued.enqueued
  rw [noted_snoc, noted_snoc, inv.queued.enqueued] at history
  have still (enqueues : a.enqueued? = none) (pops : a.popped? = none) : queue' = queue := by
    simpa [enqueues, pops] using history.symm
  have ahead := ahead_same (j := j) slots
  have quietly (quiet : a.quiet = true) (drain : lead'.drain.steps = lead.drain.steps) :
      j ∈ queue' ∧ distance s' lead' queue' j + 0 ≤ distance s lead queue j := by
    have pops := (quiet_silent quiet).1
    simp only [pops, Option.toList_none, List.append_nil, List.append_assoc,
      List.append_cancel_left_eq] at history
    rw [← history]
    refine ⟨by simp [waits], ?_⟩
    rw [distance, takeWhile_append_mem waits, ahead, drain]
    exact le_rfl
  cases turn with
  | keep quiet =>
    rw [if_pos quiet]
    exact .inr (quietly quiet rfl)
  | elect => exact .inr (quietly rfl rfl)
  | begin p => exact .inr (quietly rfl rfl)
  | retire empty =>
    have none := inv.queued.chain.head
    rw [empty] at none
    cases queue with
    | nil => cases waits
    | cons k rest => cases none
  | @pop p k head =>
    have shift : queue = k :: queue' := by simpa [Action.enqueued?, Action.popped?] using history
    by_cases own : k = j
    · left
      simp [noted_snoc, Action.popped?, own]
    · right
      subst shift
      have later : j ∈ queue' := by simpa [Ne.symm own] using waits
      refine ⟨later, ?_⟩
      simp only [List.takeWhile_cons, ne_eq, own, not_false_eq_true, decide_true, if_true,
        List.map_cons, List.sum_cons] at ahead
      have size := slots k (by simp)
      simp [distance, Drain.steps, State.jobSteps, size, own, Action.quiet] at ahead ⊢
      omega
  | @skip p k slot more _ =>
    obtain rfl := still rfl rfl
    exact .inr ⟨waits, by simp [distance, Drain.steps, Action.quiet] at ahead ⊢; omega⟩
  | @enter p k slot more _ =>
    obtain rfl := still rfl rfl
    exact .inr ⟨waits, by simp [distance, Drain.steps, Action.quiet] at ahead ⊢; omega⟩
  | @call p k slot more =>
    obtain rfl := still rfl rfl
    exact .inr ⟨waits, by simp [distance, Drain.steps, Action.quiet] at ahead ⊢; omega⟩
  | @leave p k slot more _ =>
    obtain rfl := still rfl rfl
    exact .inr ⟨waits, by simp [distance, Drain.steps, Action.quiet] at ahead ⊢; omega⟩
  | @finish p k =>
    obtain rfl := still rfl rfl
    exact .inr ⟨waits, by simp [distance, Drain.steps, Action.quiet] at ahead ⊢; omega⟩

/-- The steps of the drain in a history. -/
def drainSteps (events : History U) : Nat :=
  (events.filter (fun e => !e.label.action.quiet)).length

theorem same_end (run : Run (deliverySystem U) events s) (run' : Run (deliverySystem U) events s')
    (inv : Inv events s lead queue pending) {j : JobRef} (waits : j ∈ queue) : s = s' := by
  obtain nil | ⟨front, e, rfl⟩ := events.eq_nil_or_concat
  · subst nil
    have enqueued := inv.queued.enqueued
    simp only [noted_nil, List.nil_append] at enqueued
    rw [← enqueued] at waits
    cases waits
  · rw [List.concat_eq_append] at run run'
    rw [run.last.2.2, run'.last.2.2]

theorem popped_within (inv : Inv events s lead queue pending)
    (run : Run (deliverySystem U) events s) {j : JobRef} (waits : j ∈ queue)
    (later : History U) {s' : State U} (run' : Run (deliverySystem U) (events ++ later) s') :
    j ∈ noted Action.popped? (events ++ later) ∨
      drainSteps later ≤ distance s lead queue j := by
  have stronger : ∃ lead' queue' pending', Inv (events ++ later) s' lead' queue' pending' ∧
      (j ∈ noted Action.popped? (events ++ later) ∨
        (j ∈ queue' ∧ distance s' lead' queue' j + drainSteps later ≤
          distance s lead queue j)) := by
    induction later using List.reverseRecOn generalizing s' with
    | nil =>
      rw [List.append_nil] at run'
      obtain rfl := same_end run run' inv waits
      refine ⟨lead, queue, pending, by simpa using inv, .inr ⟨waits, ?_⟩⟩
      simp [drainSteps]
    | append_singleton later e ih =>
      rw [← List.append_assoc] at run'
      obtain ⟨prior, step, rfl⟩ := run'.last
      obtain ⟨lead₁, queue₁, pending₁, inv₁, before⟩ := ih prior
      obtain ⟨lead₂, queue₂, pending₂, inv₂, turn⟩ := inv₁.step step
      rw [List.append_assoc] at inv₂
      refine ⟨lead₂, queue₂, pending₂, inv₂, ?_⟩
      obtain popped | ⟨waits₁, near⟩ := before
      · left
        rw [← List.append_assoc, noted_append]
        exact List.mem_append_left _ popped
      · have next := distance_step inv₁ (by rwa [List.append_assoc]) turn step waits₁
        rw [List.append_assoc] at next
        obtain popped | ⟨waits₂, closer⟩ := next
        · exact .inl popped
        · refine .inr ⟨waits₂, ?_⟩
          change distance e.target lead₂ queue₂ j + (if e.label.action.quiet then 0 else 1) ≤ _
            at closer
          have count : drainSteps (later ++ [e]) =
              drainSteps later + (if e.label.action.quiet then 0 else 1) := by
            cases quiet : e.label.action.quiet <;> simp [drainSteps, quiet]
          omega
  obtain ⟨lead', queue', pending', -, popped | ⟨-, near⟩⟩ := stronger
  · exact .inl popped
  · exact .inr (by omega)

/-- What a job was delivered to: the slots registered at its finalization, each in one turn
that called its callback if it was registered then. -/
def Delivered (events : History U) (job : JobRef) : Prop :=
  ∃ e ∈ events, e.label.action = .finalize job ∧ ∀ slot,
    (¬Registered e.source slot → slot ∉ noted (Action.called? job) events) ∧
    (Registered e.source slot → ∃ turn ∈ events, ∃ accepted,
      turn.label.action = .examine job slot accepted ∧
      (accepted = true ↔ Registered turn.source slot) ∧
      (noted (Action.called? job) events).count slot = if accepted then 1 else 0)

theorem count_called {turns : List (SlotRef × Bool)} (distinct : (turns.map Prod.fst).Nodup)
    {slot : SlotRef} {accepted : Bool} (member : (slot, accepted) ∈ turns) :
    ((turns.filter Prod.snd).map Prod.fst).count slot = if accepted then 1 else 0 := by
  have sub : ((turns.filter Prod.snd).map Prod.fst).Sublist (turns.map Prod.fst) :=
    List.filter_sublist.map _
  cases accepted with
  | true =>
    apply List.count_eq_one_of_mem (distinct.sublist sub)
    exact List.mem_map.mpr ⟨(slot, true), List.mem_filter.mpr ⟨member, rfl⟩, rfl⟩
  | false =>
    apply List.count_eq_zero_of_not_mem
    intro there
    obtain ⟨⟨slot', b⟩, kept, rfl⟩ := List.mem_map.mp there
    obtain ⟨first, accepted⟩ := List.mem_filter.mp kept
    have same := List.inj_on_of_nodup_map distinct member first rfl
    cases same
    cases accepted

theorem mem_noted {β : Type} {of : Action U → Option β} {x : β} :
    x ∈ noted of events ↔ ∃ e ∈ events, of e.label.action = some x := by
  simp [noted]

theorem Inv.mem_enqueued (inv : Inv events s lead queue pending) {job : JobRef}
    (popped : job ∈ noted Action.popped? events) : job ∈ noted Action.enqueued? events := by
  rw [inv.queued.enqueued]
  exact List.mem_append_left _ popped

theorem Inv.turns_nodup (inv : Inv events s lead queue pending) (job : JobRef) :
    ((noted (Action.turn? job) events).map Prod.fst).Nodup := by
  by_cases popped : job ∈ noted Action.popped? events
  · obtain ⟨_, _, _, distinct, _⟩ := inv.finalized.enqueued job (inv.mem_enqueued popped)
    rw [← inv.serving.served job popped] at distinct
    exact (List.nodup_append.mp distinct).1
  · simp [inv.serving.unpopped job popped]

theorem Inv.called_sublist (inv : Inv events s lead queue pending) (job : JobRef) :
    (noted (Action.called? job) events).Sublist
      ((noted (Action.turn? job) events).map Prod.fst) := by
  have called := inv.serving.called job
  have left := List.sublist_append_left (noted (Action.called? job) events) (lead.due job)
  rw [called] at left
  exact left.trans (List.filter_sublist.map _)

/-- A slot that was called was registered when the job was finalized. -/
theorem Inv.recipient (inv : Inv events s lead queue pending) {job : JobRef} {slot : SlotRef}
    (called : slot ∈ noted (Action.called? job) events) :
    job ∈ noted Action.popped? events ∧ slot ∈ s.slotsOf job := by
  have turned := (inv.called_sublist job).subset called
  by_cases popped : job ∈ noted Action.popped? events
  · refine ⟨popped, ?_⟩
    rw [← inv.serving.served job popped]
    exact List.mem_append_left _ turned
  · rw [inv.serving.unpopped job popped] at turned
    cases turned

theorem listed_of_mem (run : Run (deliverySystem U) events s) {e : Event (State U) (Label U)}
    (member : e ∈ events) : Listed e.source ∧ Step e.source e.label e.target := by
  obtain ⟨step, prior, reached⟩ := run.of_mem member
  obtain ⟨_, _, _, inv⟩ := run_inv reached
  exact ⟨inv.listed, step⟩

theorem examined_registered (run : Run (deliverySystem U) events s)
    {turn : Event (State U) (Label U)} (member : turn ∈ events) {job : JobRef} {slot : SlotRef}
    {accepted : Bool} (examines : turn.label.action = .examine job slot accepted) :
    accepted = true ↔ Registered turn.source slot := by
  obtain ⟨source, ⟨t, a⟩, target⟩ := turn
  cases examines
  obtain ⟨listed, step⟩ := listed_of_mem run member
  change Step source ⟨t, .examine job slot accepted⟩ target at step
  change accepted = true ↔ Registered source slot
  rw [← listed.accepting_iff]
  cases step with
  | skip top refused => simp [refused]
  | enter top accepts => simp [accepts]

theorem Inv.delivered (inv : Inv events s lead queue pending)
    (run : Run (deliverySystem U) events s) {job : JobRef}
    (finished : job ∈ noted Action.finished? events) : Delivered events job := by
  have popped : job ∈ noted Action.popped? events := by
    rw [← inv.ordered.finished]
    exact List.mem_append_left _ finished
  have past : lead.job ≠ some job := by
    intro current
    have distinct : (noted Action.popped? events).Nodup := (popped_sorted inv.queued).nodup
    rw [← inv.ordered.finished, List.nodup_append] at distinct
    exact distinct.2.2 job finished job (by simp [current]) rfl
  have served := inv.serving.served job popped
  have called := inv.serving.called job
  simp only [Lead.remaining, Lead.due, past, if_false, List.append_nil] at served called
  obtain ⟨e, member, action, distinct, slots⟩ := inv.finalized.enqueued job (inv.mem_enqueued popped)
  refine ⟨e, member, action, fun slot => ⟨?_, ?_⟩⟩
  · intro unregistered there
    exact unregistered ((slots slot).mp (inv.recipient there).2)
  · intro registered
    have turned := (slots slot).mpr registered
    rw [← served] at turned
    obtain ⟨⟨slot', accepted⟩, noted, rfl⟩ := List.mem_map.mp turned
    obtain ⟨turn, there, examines⟩ := mem_noted.mp noted
    have action : turn.label.action = .examine job slot' accepted := by
      cases act : turn.label.action <;> simp_all [Action.turn?]
    refine ⟨turn, there, accepted, action, examined_registered run there action, ?_⟩
    rw [called]
    exact count_called (served ▸ distinct) noted

/-- The steps of the drain itself. -/
def Drains (s : State U) (t : Thread) : Prop :=
  ∃ a s', Step s ⟨t, a⟩ s' ∧ (a = .unlock ∨ a.quiet = false)

/-- The thread that leads is in a callback or can take its next step. -/
theorem Inv.attended (inv : Inv events s lead queue pending) (active : s.publicationActive = true) :
    ∃ t f, f ∈ s.frames t ∧ f.leads = true ∧ (f.calls = true ∨ Drains s t) := by
  have held := inv.led.active
  rw [active] at held
  obtain ⟨⟨t, f⟩, rfl⟩ := Option.isSome_iff_exists.mp held.symm
  have here := inv.led.leads t
  rw [framesOf_self] at here
  have member : f ∈ (s.frames t).filter Frame.leads := by simp [here]
  obtain ⟨there, first⟩ := List.mem_filter.mp member
  refine ⟨t, f, there, first, ?_⟩
  cases calls : f.calls with
  | true => exact .inl rfl
  | false =>
    right
    obtain ⟨rest, top⟩ : ∃ rest, s.frames t = f :: rest := by
      cases stack : s.frames t with
      | nil => simp [stack] at there
      | cons g rest =>
        rw [stack, List.mem_cons] at there
        obtain rfl | below := there
        · exact ⟨rest, rfl⟩
        · rw [inv.led.below stack below] at calls
          cases calls
    have known {j : JobRef} (popped : j ∈ noted Action.popped? events) :
        ∃ job, s.jobs j = some job := by
      apply Option.isSome_iff_exists.mp
      rw [inv.queued.known]
      exact inv.queued.lt_of_mem (by simp [popped])
    cases f with
    | enqueued j leader => exact ⟨_, _, .unlock top, .inl rfl⟩
    | draining p drain =>
      cases drain with
      | top =>
        cases head : s.publicationHead with
        | none => exact ⟨_, _, .retire top head, .inr rfl⟩
        | some j =>
          have waits : j ∈ queue := by
            have first := inv.queued.chain.head
            rw [head] at first
            exact List.mem_of_head? first.symm
          have made : (s.jobs j).isSome := by
            rw [inv.queued.known]
            exact inv.queued.lt_of_mem (by simp [waits])
          obtain ⟨job, found⟩ := Option.isSome_iff_exists.mp made
          exact ⟨_, _, .pop top head found, .inr rfl⟩
      | invoking j slots =>
        cases slots with
        | nil =>
          obtain ⟨job, found⟩ := known (List.mem_of_getLast? (inv.serving.current j rfl))
          exact ⟨_, _, .finish top found, .inr rfl⟩
        | cons slot more =>
          cases accepts : (s.slots slot).accepting with
          | true => exact ⟨_, _, .enter top accepts, .inr rfl⟩
          | false => exact ⟨_, _, .skip top accepts, .inr rfl⟩
      | entered j slot more => exact ⟨_, _, .call top, .inr rfl⟩
      | calling => cases calls
    | _ => cases first

/-- What holds in every state of every run. Jobs are numbered in the order of the commits
they announce. -/
structure Orderly (events : History U) (s : State U) : Prop where
  committed : noted Action.committed? events = List.range s.jobCount
  enqueued : noted Action.enqueued? events <+: noted Action.committed? events
  popped : noted Action.popped? events <+: noted Action.enqueued? events
  /-- Callbacks come in the order of the jobs, one at a time. -/
  sorted : (noted Action.calledJob? events).Pairwise (· ≤ ·)
  single : ∀ t t' f f', f ∈ s.frames t → f' ∈ s.frames t' → f.calls = true → f'.calls = true →
    t = t' ∧ f = f'
  delivered : ∀ job ∈ noted Action.finished? events, Delivered events job
  at_most_once : ∀ job, (noted (Action.called? job) events).Nodup
  recipients : ∀ job, ∀ slot ∈ noted (Action.called? job) events,
    ∃ e ∈ events, e.label.action = .finalize job ∧ Registered e.source slot
  /-- No call of a slot comes after the return of its destructor. -/
  silent : events.Pairwise (fun e later => ∀ slot j, e.label.action = .unsubscribed slot →
    later.label.action ≠ .call j slot)
  drained : s.publicationActive = false →
    noted Action.finished? events = noted Action.enqueued? events
  attended : s.publicationActive = true →
    ∃ t f, f ∈ s.frames t ∧ f.leads = true ∧ (f.calls = true ∨ Drains s t)
  /-- Enough steps of the drain pop every job. -/
  eventually : ∀ job ∈ noted Action.enqueued? events, ∃ n, ∀ later s',
    Run (deliverySystem U) (events ++ later) s' →
      job ∈ noted Action.popped? (events ++ later) ∨ drainSteps later ≤ n

theorem Led.single (led : Led s lead) {t t' : Thread} {f f' : Frame} (here : f ∈ s.frames t)
    (there : f' ∈ s.frames t') (first : f.leads = true) (second : f'.leads = true) :
    t = t' ∧ f = f' := by
  have one : f ∈ lead.framesOf t := by
    rw [← led.leads]
    exact List.mem_filter.mpr ⟨here, first⟩
  have other : f' ∈ lead.framesOf t' := by
    rw [← led.leads]
    exact List.mem_filter.mpr ⟨there, second⟩
  unfold Lead.framesOf at one other
  split at one
  · cases one
  · split at one <;> split at other <;> simp_all

theorem publications_orderly (run : Run (deliverySystem U) events s) : Orderly events s := by
  obtain ⟨lead, queue, pending, inv⟩ := run_inv run
  have queued := inv.queued
  constructor
  · exact queued.committed
  · rw [queued.committed, ← queued.waiting]
    exact List.prefix_append _ _
  · rw [queued.enqueued]
    exact List.prefix_append _ _
  · exact inv.ordered.sorted
  · intro t t' f f' here there first second
    exact inv.led.single here there (calls_leads first) (calls_leads second)
  · exact fun job finished => inv.delivered run finished
  · intro job
    exact (inv.turns_nodup job).sublist (inv.called_sublist job)
  · intro job slot called
    obtain ⟨popped, there⟩ := inv.recipient called
    obtain ⟨e, member, action, -, slots⟩ := inv.finalized.enqueued job (inv.mem_enqueued popped)
    exact ⟨e, member, action, (slots slot).mp there⟩
  · exact inv.silenced.silent
  · intro inactive
    have idle : lead = none := by
      have active := inv.led.active
      rw [inactive] at active
      simpa using active.symm
    have finished := inv.ordered.finished
    subst idle
    rw [queued.enqueued, queued.empty inactive, ← finished]
    simp [Lead.job, Lead.drain]
  · exact inv.attended
  · intro job enqueued
    refine ⟨distance s lead queue job, fun later s' run' => ?_⟩
    rw [queued.enqueued] at enqueued
    obtain popped | waits := List.mem_append.mp enqueued
    · left
      rw [noted_append]
      exact List.mem_append_left _ popped
    · exact popped_within inv run waits later run'

/-- One subscriber, one publication, drained by the thread that made it. -/
theorem publications_orderly_played : ∃ (events : History Unit) (s : State Unit),
    Orderly events s ∧ noted (Action.called? 0) events = [0] := by
  have start : Run (deliverySystem Unit) [] { maximum := 1 } := .start ⟨1, rfl⟩
  have subscribed := start.step (Step.subscribe (t := 0) rfl Nat.one_pos rfl)
  have committed := subscribed.step (Step.commit (t := 0) () rfl rfl)
  have finalized := committed.step (Step.finalize (t := 0) [0] rfl rfl (.refl _))
  have enqueued := finalized.step (Step.enqueue (t := 0) rfl)
  have unlocked := enqueued.step (Step.unlock (t := 0) rfl)
  have popped := unlocked.step (Step.pop (t := 0) rfl rfl rfl)
  have entered := popped.step (Step.enter (t := 0) rfl rfl)
  have called := entered.step (Step.call (t := 0) rfl)
  exact ⟨_, _, publications_orderly called, rfl⟩

end Baas.Resource.Publication
