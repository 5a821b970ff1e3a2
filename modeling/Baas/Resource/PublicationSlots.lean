import Baas.Resource.PublicationQueue

/-! Subscribers: a slot accepts exactly while its subscription is in the map, and the
thread that drains is the only one inside a callback. -/
namespace Baas.Resource.Publication

open Transition

variable {U : Type} {s s' : State U} {t : Thread} {a : Action U} {lead lead' : Lead}

def Registered (s : State U) (slot : SlotRef) : Prop :=
  ∃ id, s.registered.find? id = some slot

/-- The slot past the entry of its callback and not back. -/
def Lead.inside : Lead → Option SlotRef
  | some (_, .draining _ (.entered _ slot _)) => some slot
  | some (_, .draining _ (.calling _ slot _ _)) => some slot
  | _ => none

/-- The slot whose callback is about to be called. -/
def Lead.entering : Lead → Option SlotRef
  | some (_, .draining _ (.entered _ slot _)) => some slot
  | _ => none

/-- The slot whose callback a thread runs. -/
def Lead.callbackOf (lead : Lead) (t : Thread) : Option SlotRef :=
  match lead with
  | some (t', .draining _ (.calling _ slot _ _)) => if t' = t then some slot else none
  | _ => none

/-- The slot was made and its subscription is gone. -/
def Closed (s : State U) (slot : SlotRef) : Prop :=
  slot < s.slotCount ∧ s.subscriptions slot = none

theorem unusedId_unused {registered : OrderedMap Nat SlotRef} {attempts first id : Nat}
    (unused : unusedId registered attempts first = some id) : registered.find? id = none := by
  induction attempts generalizing first with
  | zero => cases unused
  | succ attempts ih =>
    unfold unusedId at unused
    split at unused
    · exact ih unused
    · next absent =>
      cases unused
      simpa [OrderedMap.contains] using absent

/-- The map, the subscriptions and the slots agree. -/
structure Listed (s : State U) : Prop where
  ids : ∀ id slot, s.registered.find? id = some slot ↔ s.subscriptions slot = some id
  accepts : ∀ slot, (s.slots slot).accepting = (s.subscriptions slot).isSome
  unmade : ∀ slot, s.slotCount ≤ slot → s.subscriptions slot = none

namespace Listed

theorem accepting_iff (listed : Listed s) (slot : SlotRef) :
    (s.slots slot).accepting = true ↔ Registered s slot := by
  rw [listed.accepts, Option.isSome_iff_exists]
  exact exists_congr (fun id => (listed.ids id slot).symm)

theorem made (listed : Listed s) {slot : SlotRef} {id : Nat}
    (held : s.subscriptions slot = some id) : slot < s.slotCount := by
  by_contra beyond
  rw [listed.unmade slot (Nat.le_of_not_lt beyond)] at held
  cases held

theorem mem_accepting (listed : Listed s) (slot : SlotRef) :
    slot ∈ acceptingSlots s ↔ Registered s slot := by
  constructor
  · intro member
    exact (listed.accepting_iff slot).mp (by simpa using (List.mem_filter.mp member).2)
  · rintro ⟨id, found⟩
    have accepting := (listed.accepting_iff slot).mpr ⟨id, found⟩
    refine List.mem_filter.mpr ⟨?_, by simpa using accepting⟩
    exact List.mem_map.mpr ⟨(id, slot), OrderedMap.mem_toList_iff.mpr found, rfl⟩

/-- Two ids never name one slot. -/
theorem accepting_nodup (listed : Listed s) : (acceptingSlots s).Nodup := by
  apply List.Nodup.filter
  unfold List.Nodup
  rw [List.pairwise_map]
  apply s.registered.sorted.imp_of_mem
  rintro ⟨id, slot⟩ ⟨id', slot'⟩ here there below rfl
  have first := (listed.ids id slot).mp (OrderedMap.mem_toList_iff.mp here)
  have second := (listed.ids id' slot).mp (OrderedMap.mem_toList_iff.mp there)
  rw [first] at second
  cases second
  exact absurd below (lt_irrefl _)

theorem keep (listed : Listed s) (registered : s'.registered = s.registered)
    (subscriptions : s'.subscriptions = s.subscriptions) (count : s'.slotCount = s.slotCount)
    (accepting : ∀ slot, (s'.slots slot).accepting = (s.slots slot).accepting) : Listed s' := by
  constructor
  · rw [registered, subscriptions]
    exact listed.ids
  · intro slot
    rw [accepting, subscriptions, listed.accepts]
  · rw [count, subscriptions]
    exact listed.unmade

theorem subscribe (listed : Listed s) {id : Nat} (unused : s.registered.find? id = none) :
    Listed (subscribe s id) := by
  have fresh := listed.unmade s.slotCount le_rfl
  constructor
  · intro id' slot
    by_cases new : slot = s.slotCount
    · subst new
      by_cases same : id' = id
      · simp [Publication.subscribe, same]
      · have absent : s.registered.find? id' ≠ some s.slotCount := by
          intro found
          rw [listed.ids, fresh] at found
          cases found
        simp [Publication.subscribe, OrderedMap.find?_insert_ne _ _ (Ne.symm same), absent,
          Ne.symm same]
    · by_cases same : id' = id
      · subst same
        have absent : s.subscriptions slot ≠ some id' := by
          rw [ne_eq, ← listed.ids, unused]
          nofun
        simp [Publication.subscribe, new, Ne.symm new, absent]
      · simp [Publication.subscribe, new, OrderedMap.find?_insert_ne _ _ (Ne.symm same),
          listed.ids]
  · intro slot
    by_cases new : slot = s.slotCount <;> simp [Publication.subscribe, new, listed.accepts]
  · intro slot beyond
    have above : s.slotCount < slot := beyond
    simp [Publication.subscribe, above.ne', listed.unmade slot above.le]

theorem close (listed : Listed s) {slot : SlotRef} {id : Nat}
    (held : s.subscriptions slot = some id) : Listed (close s slot id) := by
  constructor
  · intro id' slot'
    by_cases gone : id' = id
    · subst gone
      by_cases same : slot' = slot
      · simp [Publication.close, State.setSlot, same]
      · have absent : s.subscriptions slot' ≠ some id' := by
          rw [ne_eq, ← listed.ids, (listed.ids id' slot).mpr held]
          simpa using Ne.symm same
        simp [Publication.close, State.setSlot, same, absent]
    · by_cases same : slot' = slot
      · subst same
        have absent : s.registered.find? id' ≠ some slot' := by
          rw [ne_eq, listed.ids, held]
          simpa using Ne.symm gone
        simp [Publication.close, State.setSlot, OrderedMap.find?_erase_ne _ (Ne.symm gone), absent]
      · simp [Publication.close, State.setSlot, same, OrderedMap.find?_erase_ne _ (Ne.symm gone),
          listed.ids]
  · intro slot'
    by_cases same : slot' = slot <;>
      simp [Publication.close, State.setSlot, same, listed.accepts]
  · intro slot' beyond
    have apart : slot' ≠ slot := by
      rintro rfl
      exact absurd (listed.made held) (Nat.not_lt.mpr beyond)
    simp [Publication.close, State.setSlot, apart, listed.unmade slot' beyond]

theorem linkTail (listed : Listed s) (j : JobRef) : Listed (linkTail s j) := by
  unfold Publication.linkTail
  split <;> exact listed.keep rfl rfl rfl (fun _ => rfl)

theorem step (listed : Listed s) (step : Step s ⟨t, a⟩ s') : Listed s' := by
  cases step with
  | subscribe idle room unused => exact listed.subscribe (unusedId_unused unused)
  | unsubscribeSelf idle held own => exact listed.close held
  | unsubscribe idle held other =>
    exact (listed.close held).keep rfl rfl rfl (fun _ => rfl)
  | @enter _ _ _ slot _ _ top accepted =>
    refine listed.keep rfl rfl rfl (fun slot' => ?_)
    by_cases same : slot' = slot <;> simp [State.setSlot, State.setFrames, same]
  | @leave _ _ _ slot _ _ _ top =>
    refine listed.keep rfl rfl rfl (fun slot' => ?_)
    by_cases same : slot' = slot <;> simp [State.setSlot, same]
  | enqueue top => exact (listed.linkTail _).keep rfl rfl rfl (fun _ => rfl)
  | unlock top =>
    unfold drainOrWait
    split
    · exact listed.keep rfl rfl rfl (fun _ => rfl)
    · split <;> exact listed.keep rfl rfl rfl (fun _ => rfl)
  | _ => exact listed.keep rfl rfl rfl (fun _ => rfl)

end Listed

theorem linkTail_slots (j : JobRef) : (linkTail s j).slots = s.slots := by
  unfold linkTail
  split <;> rfl

theorem linkTail_slotCount (j : JobRef) : (linkTail s j).slotCount = s.slotCount := by
  unfold linkTail
  split <;> rfl

/-- Who is inside a callback. -/
structure Inside (s : State U) (lead : Lead) : Prop where
  entered : ∀ slot, (s.slots slot).entered = if lead.inside = some slot then 1 else 0
  callback : ∀ t, (s.threads t).callbackSlot = lead.callbackOf t
  restored : ∀ t p j slot more q, lead = some (t, .draining p (.calling j slot more q)) → q = none
  made : ∀ slot, lead.inside = some slot → slot < s.slotCount

namespace Inside

variable {p : Bool} {j : JobRef} {slot : SlotRef} {more : List SlotRef} {q : Option SlotRef}

/-- A step that enters and leaves no callback. -/
theorem keep (inside : Inside s lead) (lead' : Lead) (slots : ∀ slot, (s'.slots slot).entered =
    (s.slots slot).entered) (own : (s'.threads t).callbackSlot = (s.threads t).callbackSlot)
    (others : ∀ t', t' ≠ t → s'.threads t' = s.threads t') (same : lead'.inside = lead.inside)
    (callback : lead'.callbackOf = lead.callbackOf)
    (restored : ∀ t p j slot more q,
      lead' = some (t, .draining p (.calling j slot more q)) → lead' = lead)
    (count : s.slotCount ≤ s'.slotCount) : Inside s' lead' := by
  constructor
  · intro slot
    rw [slots, same, inside.entered]
  · intro t'
    rw [callback, ← inside.callback]
    by_cases here : t' = t
    · subst here
      exact own
    · rw [others t' here]
  · intro t p j slot more q calling
    exact inside.restored t p j slot more q ((restored t p j slot more q calling) ▸ calling)
  · rw [same]
    exact fun slot here => (inside.made slot here).trans_le count

theorem enter (inside : Inside s (some (t, .draining p (.invoking j (slot :: more)))))
    (made : slot < s.slotCount) (rest : List Frame) :
    Inside ((s.setSlot slot { s.slots slot with entered := (s.slots slot).entered + 1 }).setFrames
      t (.draining p (.entered j slot more) :: rest))
      (some (t, .draining p (.entered j slot more))) := by
  constructor
  · intro slot'
    have before := inside.entered slot'
    by_cases same : slot' = slot
    · subst same
      simp_all [State.setSlot, State.setFrames, Lead.inside]
    · simp_all [State.setSlot, State.setFrames, Lead.inside, Ne.symm same]
  · intro t'
    have before := inside.callback t'
    by_cases same : t' = t
    · subst same
      simpa [State.setSlot, State.setFrames, Lead.callbackOf] using before
    · simpa [State.setSlot, State.setFrames, Lead.callbackOf, same] using before
  · intro _ _ _ _ _ _ same
    cases same
  · intro slot' here
    cases here
    exact made

theorem leave (inside : Inside s (some (t, .draining p (.calling j slot more q))))
    (rest : List Frame) :
    Inside { s.setSlot slot { s.slots slot with entered := (s.slots slot).entered - 1 } with
      threads := Function.update s.threads t
        { s.threads t with frames := .draining p (.invoking j more) :: rest, callbackSlot := q } }
      (some (t, .draining p (.invoking j more))) := by
  constructor
  · intro slot'
    have before := inside.entered slot'
    by_cases same : slot' = slot
    · subst same
      simp_all [State.setSlot, Lead.inside]
    · simp_all [State.setSlot, Lead.inside, Ne.symm same]
  · intro t'
    have before := inside.callback t'
    by_cases same : t' = t
    · subst same
      simp [Lead.callbackOf, inside.restored _ _ _ _ _ _ rfl]
    · simpa [Lead.callbackOf, same, Ne.symm same] using before
  · nofun
  · nofun

theorem call (inside : Inside s (some (t, .draining p (.entered j slot more))))
    (rest : List Frame) :
    Inside { s with
      threads := Function.update s.threads t
        { s.threads t with
          frames := .draining p (.calling j slot more (s.threads t).callbackSlot) :: rest
          callbackSlot := some slot } }
      (some (t, .draining p (.calling j slot more (s.threads t).callbackSlot))) := by
  constructor
  · intro slot'
    exact inside.entered slot'
  · intro t'
    have before := inside.callback t'
    by_cases same : t' = t
    · subst same
      simp [Lead.callbackOf]
    · simpa [Lead.callbackOf, same, Ne.symm same] using before
  · intro t' p' j' slot' more' q calling
    simp only [Option.some.injEq, Prod.mk.injEq, Frame.draining.injEq, Drain.calling.injEq]
      at calling
    obtain ⟨rfl, rfl, rfl, rfl, rfl, rfl⟩ := calling
    exact inside.callback t
  · exact inside.made

theorem idle (inside : Inside s lead) (none : lead.inside = none) (slot : SlotRef) :
    (s.slots slot).entered = 0 := by
  simp [inside.entered, none]

theorem subscribe (inside : Inside s lead) (id : Nat) : Inside (subscribe s id) lead := by
  constructor
  · intro slot
    by_cases new : slot = s.slotCount
    · subst new
      have apart : lead.inside ≠ some s.slotCount :=
        fun here => absurd (inside.made _ here) (lt_irrefl _)
      simp [Publication.subscribe, apart]
    · simp [Publication.subscribe, new, inside.entered]
  · exact inside.callback
  · exact inside.restored
  · exact fun slot here => (inside.made slot here).trans (Nat.lt_succ_self _)

theorem close_entered (slot : SlotRef) (id : Nat) (slot' : SlotRef) :
    ((close s slot id).slots slot').entered = (s.slots slot').entered := by
  by_cases same : slot' = slot <;> simp [close, State.setSlot, same]

theorem step (inside : Inside s lead) (listed : Listed s) (led : Led s lead)
    (turn : Turn s t lead a lead') (step : Step s ⟨t, a⟩ s') : Inside s' lead' := by
  have others := step_others step
  cases step with
  | enter top accepted =>
    obtain ⟨rfl, rfl⟩ := led.unique top rfl
    cases turn with
    | keep noisy => cases noisy
    | enter _ =>
      have listening := listed.accepts _ ▸ accepted
      obtain ⟨id, held⟩ := Option.isSome_iff_exists.mp listening
      exact inside.enter (listed.made held) _
  | call top =>
    obtain ⟨rfl, rfl⟩ := led.unique top rfl
    cases turn with
    | keep noisy => cases noisy
    | call => exact inside.call _
  | leave top =>
    obtain ⟨rfl, rfl⟩ := led.unique top rfl
    cases turn with
    | keep noisy => cases noisy
    | leave => exact inside.leave _
  | @pop _ p j job rest top first found =>
    obtain ⟨rfl, rfl⟩ := led.unique top rfl
    cases turn with
    | keep noisy => cases noisy
    | pop _ =>
      exact inside.keep _ (fun _ => rfl) (by simp [State.setFrames, popJob, State.setJob]) others
        rfl rfl (by rintro _ _ _ _ _ _ ⟨⟩) le_rfl
  | finish top found =>
    obtain ⟨rfl, rfl⟩ := led.unique top rfl
    cases turn with
    | keep noisy => cases noisy
    | finish =>
      exact inside.keep _ (fun _ => rfl) (by simp [State.setFrames, State.setJob]) others
        rfl rfl (by rintro _ _ _ _ _ _ ⟨⟩) le_rfl
  | skip top refused =>
    obtain ⟨rfl, rfl⟩ := led.unique top rfl
    cases turn with
    | keep noisy => cases noisy
    | skip _ =>
      exact inside.keep _ (fun _ => rfl) (by simp [State.setFrames]) others rfl rfl (by rintro _ _ _ _ _ _ ⟨⟩) le_rfl
  | retire top empty =>
    obtain ⟨rfl, rfl⟩ := led.unique top rfl
    cases turn with
    | keep noisy => cases noisy
    | retire _ =>
      exact inside.keep _ (fun _ => rfl) (by simp [retireDrain]) others rfl rfl (by rintro _ _ _ _ _ _ ⟨⟩) le_rfl
  | subscribe idle room unused =>
    cases turn
    exact inside.subscribe _
  | unsubscribeSelf idle held own =>
    cases turn
    exact inside.keep (t := t) lead (close_entered _ _) rfl others rfl rfl (fun _ _ _ _ _ _ _ => rfl)
      le_rfl
  | unsubscribe idle held other =>
    cases turn
    exact inside.keep lead (close_entered _ _) (by simp [State.setFrames, close, State.setSlot])
      others rfl rfl (fun _ _ _ _ _ _ _ => rfl) le_rfl
  | commit update idle unlocked =>
    cases turn
    exact inside.keep lead (fun _ => rfl) (by simp [commit, State.setFrames]) others rfl rfl
      (fun _ _ _ _ _ _ _ => rfl) le_rfl
  | finalize slots top found perm =>
    cases turn
    exact inside.keep lead (fun _ => rfl) (by simp [State.setFrames, State.setJob]) others rfl rfl
      (fun _ _ _ _ _ _ _ => rfl) le_rfl
  | wake top found done =>
    cases turn
    exact inside.keep lead (fun _ => rfl) (by simp [State.setFrames]) others rfl rfl
      (fun _ _ _ _ _ _ _ => rfl) le_rfl
  | unsubscribed top left =>
    cases turn
    exact inside.keep lead (fun _ => rfl) (by simp [State.setFrames]) others rfl rfl
      (fun _ _ _ _ _ _ _ => rfl) le_rfl
  | @enqueue _ j rest top =>
    have slots := linkTail_slots (s := s) j
    have count := (linkTail_slotCount (s := s) j).ge
    cases turn with
    | keep _ =>
      exact inside.keep lead (fun slot => by rw [← slots]; rfl) (by simp [State.setFrames]) others
        rfl rfl (fun _ _ _ _ _ _ _ => rfl) count
    | elect =>
      exact inside.keep _ (fun slot => by rw [← slots]; rfl) (by simp [State.setFrames]) others
        rfl rfl (by rintro _ _ _ _ _ _ ⟨⟩) count
  | @unlock _ j leader rest top =>
    have quiet (lead' : Lead) (same : lead'.inside = lead.inside)
        (callback : lead'.callbackOf = lead.callbackOf)
        (restored : ∀ t p j slot more q,
          lead' = some (t, .draining p (.calling j slot more q)) → lead' = lead) :
        Inside (drainOrWait { s with mutation := none } t j leader rest) lead' := by
      refine inside.keep lead' ?_ ?_ others same callback restored ?_ <;> unfold drainOrWait
      · intro slot
        split
        · rfl
        · split <;> rfl
      · split
        · simp
        · split <;> simp [State.setFrames]
      · split
        · exact le_rfl
        · split <;> exact le_rfl
    cases turn with
    | keep _ => exact quiet lead rfl rfl (fun _ _ _ _ _ _ _ => rfl)
    | begin p => exact quiet _ rfl rfl (by rintro _ _ _ _ _ _ ⟨⟩)

end Inside

end Baas.Resource.Publication
