import Mathlib.Algebra.Order.BigOperators.Group.List
import Mathlib.Algebra.Order.Ring.Nat
import Mathlib.Data.List.Induction
import Baas.Scheduler.Validity

/-! What is planned: the inventory that the first events freeze, and one plan for each due
event, in the order of priorities. -/
namespace Baas.Scheduler

/-- The documents of one scheduler, the first at construction and the others at reloads. -/
def inventoryAfter : List SchedulerDocument → Option FunctionInventory
  | [] => none
  | first :: reloads =>
    (snapshotFunctionInventory first).bind (fun inventory =>
      reloads.foldlM refreshFunctionInventory inventory)

/-- The functions of the first document with events. -/
def frozen (documents : List SchedulerDocument) : FunctionInventory :=
  match documents.find? (fun document => !document.events.isEmpty) with
  | some document => ⟨document.events.map SchedulerEvent.functionName, true⟩
  | none => ⟨[], false⟩

/-- Enabled, its tick reached, and the local time outside every disabled range. -/
def Due (now : EvaluationTime) (event : SchedulerEvent) : Prop :=
  event.enabled = true ∧ event.nextTick ≤ now.unixSeconds ∧
    ∀ range ∈ event.disabledTimeRanges,
      ¬ (range.start.secondsSinceMidnight ≤ now.localSecondsSinceMidnight ∧
        now.localSecondsSinceMidnight ≤ range.finish.secondsSinceMidnight)

/-- Ascending priority, equal priorities in the order of the document. -/
def PlannedBefore (a b : ScheduledPlan) : Prop :=
  a.priority < b.priority ∨ a.priority = b.priority ∧ a.eventIndex < b.eventIndex

structure PlansExact (document : SchedulerDocument) (functions : List Text)
    (now : EvaluationTime) (plans : List ScheduledPlan) : Prop where
  due : ∀ index, index ∈ plans.map ScheduledPlan.eventIndex ↔
    ∃ event, document.events[index]? = some event ∧ Due now event
  once : (plans.map ScheduledPlan.eventIndex).Nodup
  ordered : plans.Pairwise PlannedBefore
  contents : ∀ p ∈ plans, ∃ event, document.events[p.eventIndex]? = some event ∧
    p.eventName = event.eventName ∧ p.currentTask = event.functionName ∧
      p.priority = event.priority ∧
      p.serialInvocations =
        (event.preTasks.filter (· ∈ functions)).map (⟨.preTask, ·⟩) ++
          ⟨.currentTask, event.functionName⟩ ::
          (event.postTasks.filter (· ∈ functions)).map (⟨.postTask, ·⟩)

/-! Insertion is stable: it sorts by the key, and equal keys keep their places. -/

section Stable

variable {α κ : Type} [LinearOrder κ] (key : α → κ) (place : α → Nat)

def Before (a b : α) : Prop := key a < key b ∨ key a = key b ∧ place a < place b

theorem insert_stable {a : α} {l : List α} (ordered : l.Pairwise (Before key place))
    (first : ∀ b ∈ l, place a < place b) :
    (l.orderedInsert (fun left right => key left ≤ key right) a).Pairwise (Before key place) := by
  induction l with
  | nil => exact List.pairwise_singleton _ a
  | cons b rest ih =>
    obtain ⟨head, tail⟩ := List.pairwise_cons.mp ordered
    rw [List.orderedInsert_cons]
    by_cases least : key a ≤ key b
    · rw [if_pos least]
      have leads (c : α) (member : c ∈ b :: rest) (below : key a ≤ key c) : Before key place a c :=
        (lt_or_eq_of_le below).imp_right (fun same => ⟨same, first c member⟩)
      refine List.pairwise_cons.mpr ⟨fun c member => ?_, ordered⟩
      rcases List.mem_cons.mp member with rfl | later
      · exact leads c member least
      · have above : key b ≤ key c := (head c later).elim le_of_lt (fun same => le_of_eq same.1)
        exact leads c member (le_trans least above)
    · rw [if_neg least]
      refine List.pairwise_cons.mpr ⟨fun c member => ?_,
        ih tail (fun c member => first c (List.mem_cons_of_mem b member))⟩
      rcases (List.mem_orderedInsert _).mp member with rfl | later
      · exact .inl (lt_of_not_ge least)
      · exact head c later

theorem sort_stable {l : List α} (places : l.Pairwise (fun a b => place a < place b)) :
    (l.insertionSort (fun left right => key left ≤ key right)).Pairwise (Before key place) := by
  induction l with
  | nil => exact List.Pairwise.nil
  | cons a rest ih =>
    obtain ⟨head, tail⟩ := List.pairwise_cons.mp places
    rw [List.insertionSort_cons]
    refine insert_stable key place (ih tail) (fun b member => head b ?_)
    exact (List.mem_insertionSort _).mp member

end Stable

/-! The inventory. -/

/-- The names of a valid document make a valid inventory. -/
theorem names_valid {document : SchedulerDocument} (valid : validDocument document = true) :
    validInventory ⟨document.events.map SchedulerEvent.functionName, !document.events.isEmpty⟩ =
      true := by
  obtain ⟨few, sound, bytes⟩ := validDocument_iff.mp valid
  have named (event : SchedulerEvent) : event.functionName ∈ event.strings := by
    simp [SchedulerEvent.strings]
  refine validInventory_iff.mpr ⟨by simpa using few, ?_, ?_, ?_⟩
  · cases document.events with
    | nil => simp
    | cons event rest => simp
  · intro text member
    obtain ⟨event, here, rfl⟩ := List.mem_map.mp member
    exact (sound event here).strings _ (named event)
  · refine Nat.le_trans ?_ bytes
    simp only [stringBytes, eventsBytes, List.map_map]
    refine List.sum_le_sum (fun event _ => ?_)
    exact List.le_sum_of_mem (List.mem_map_of_mem (named event))

theorem snapshot_eq {document : SchedulerDocument} (valid : validDocument document = true) :
    snapshotFunctionInventory document =
      some ⟨document.events.map SchedulerEvent.functionName, !document.events.isEmpty⟩ :=
  if_neg (by simp [valid])

theorem refresh_eq {inventory : FunctionInventory} {document : SchedulerDocument}
    (known : validInventory inventory = true) (valid : validDocument document = true) :
    refreshFunctionInventory inventory document =
      some (if inventory.initialized || document.events.isEmpty then inventory
        else ⟨document.events.map SchedulerEvent.functionName, true⟩) := by
  unfold refreshFunctionInventory
  rw [if_neg (by simp [known, valid])]
  by_cases keep : (inventory.initialized || document.events.isEmpty) = true
  · rw [if_pos keep, if_pos keep]
  · rw [if_neg keep, if_neg keep, snapshot_eq valid]
    have filled : document.events.isEmpty = false := by simp at keep; simp [keep]
    rw [filled]
    rfl

/-- One more document at the end. -/
theorem frozen_append (documents : List SchedulerDocument) (document : SchedulerDocument) :
    frozen (documents ++ [document]) =
      if (frozen documents).initialized || document.events.isEmpty then frozen documents
      else ⟨document.events.map SchedulerEvent.functionName, true⟩ := by
  unfold frozen
  rw [List.find?_append]
  cases documents.find? (fun document => !document.events.isEmpty) with
  | some first => rfl
  | none =>
    cases filled : document.events.isEmpty with
    | true => simp [filled]
    | false => simp [filled]

theorem frozen_valid {documents : List SchedulerDocument}
    (valid : ∀ document ∈ documents, validDocument document = true) :
    validInventory (frozen documents) = true := by
  unfold frozen
  cases found : documents.find? (fun document => !document.events.isEmpty) with
  | none => exact (by decide : validInventory ⟨[], false⟩ = true)
  | some first =>
    have filled := List.find?_some found
    have kept := names_valid (valid first (List.mem_of_find?_eq_some found))
    rw [filled] at kept
    exact kept

/-- The inventory is the one of the first document with events, at every later reload. -/
theorem inventory_frozen {documents : List SchedulerDocument} (some : documents ≠ [])
    (valid : ∀ document ∈ documents, validDocument document = true) :
    inventoryAfter documents = .some (frozen documents) := by
  induction documents using List.reverseRecOn with
  | nil => exact absurd rfl some
  | append_singleton documents document ih =>
    have last := valid document (by simp)
    cases documents with
    | nil =>
      show (snapshotFunctionInventory document).bind .some = _
      rw [snapshot_eq last]
      unfold frozen
      cases filled : document.events.isEmpty with
      | true => simp_all
      | false => simp [filled]
    | cons first reloads =>
      have before : ∀ document ∈ first :: reloads, validDocument document = true :=
        fun other member => valid other (List.mem_append_left _ member)
      have earlier := ih (List.cons_ne_nil _ _) before
      have split : inventoryAfter (first :: reloads ++ [document]) =
          (inventoryAfter (first :: reloads)).bind (refreshFunctionInventory · document) := by
        show (snapshotFunctionInventory first).bind (fun inventory =>
          (reloads ++ [document]).foldlM refreshFunctionInventory inventory) = _
        unfold inventoryAfter
        rw [Option.bind_assoc]
        simp only [List.foldlM_append, List.foldlM_cons, List.foldlM_nil, bind_pure]
        rfl
      rw [split, earlier, frozen_append]
      exact refresh_eq (frozen_valid before) last

/-! The plans. -/

theorem dueNow_iff {now : EvaluationTime} {event : SchedulerEvent} :
    dueNow now event = true ↔ Due now event := by
  simp only [dueNow, disabledNow, Due, Bool.and_eq_true, decide_eq_true_eq, Bool.not_eq_true',
    List.any_eq_false, and_assoc]

theorem invocations_eq (functions : List Text) (event : SchedulerEvent) :
    invocations functions event =
      (event.preTasks.filter (· ∈ functions)).map (⟨.preTask, ·⟩) ++
        ⟨.currentTask, event.functionName⟩ ::
        (event.postTasks.filter (· ∈ functions)).map (⟨.postTask, ·⟩) := by
  simp only [invocations, List.contains_eq_mem, List.append_assoc, List.singleton_append]

theorem dueEvents_mem {document : SchedulerDocument} {now : EvaluationTime}
    {entry : SchedulerEvent × Nat} : entry ∈ dueEvents document now ↔
      document.events[entry.2]? = some entry.1 ∧ Due now entry.1 := by
  rw [dueEvents, List.mem_filter, dueNow_iff, List.mem_zipIdx_iff_getElem?]

theorem dueEvents_places (document : SchedulerDocument) (now : EvaluationTime) :
    (dueEvents document now).Pairwise (fun a b => a.2 < b.2) := by
  have all : document.events.zipIdx.Pairwise (fun a b => a.2 < b.2) := by
    refine List.pairwise_map.mp ?_
    rw [List.zipIdx_map_snd]
    exact List.pairwise_lt_range'
  exact all.filter _

/-- One plan a due event, in the order of priorities. -/
theorem plans_exact (document : SchedulerDocument) (functions : List Text) (now : EvaluationTime) :
    PlansExact document functions now
      (((dueEvents document now).insertionSort
        (fun left right => left.1.priority ≤ right.1.priority)).map (plan functions)) := by
  have sorted := sort_stable (fun entry : SchedulerEvent × Nat => entry.1.priority.toInt) Prod.snd
    (dueEvents_places document now)
  simp only [← Int32.le_iff_toInt_le] at sorted
  generalize listed : (dueEvents document now).insertionSort
    (fun left right => left.1.priority ≤ right.1.priority) = entries at sorted ⊢
  have member (entry : SchedulerEvent × Nat) : entry ∈ entries ↔
      document.events[entry.2]? = some entry.1 ∧ Due now entry.1 := by
    rw [← listed, List.mem_insertionSort, dueEvents_mem]
  have apart : (entries.map Prod.snd).Nodup := by
    have places : (dueEvents document now).Pairwise (fun a b => a.2 ≠ b.2) :=
      (dueEvents_places document now).imp Nat.ne_of_lt
    have first : ((dueEvents document now).map Prod.snd).Nodup := List.pairwise_map.mpr places
    exact ((listed ▸ List.perm_insertionSort _ _).map Prod.snd).nodup_iff.mpr first
  have indices : (entries.map (plan functions)).map ScheduledPlan.eventIndex =
      entries.map Prod.snd := by
    rw [List.map_map]
    rfl
  refine ⟨fun index => ?_, indices ▸ apart, ?_, ?_⟩
  · rw [indices, List.mem_map]
    constructor
    · rintro ⟨entry, here, rfl⟩
      exact ⟨entry.1, (member entry).mp here⟩
    · rintro ⟨event, here⟩
      exact ⟨(event, index), (member _).mpr here, rfl⟩
  · refine List.pairwise_map.mpr (sorted.imp (fun {a b} before => ?_))
    rcases before with less | ⟨same, place⟩
    · exact .inl (Int32.lt_iff_toInt_lt.mpr less)
    · exact .inr ⟨Int32.toInt_inj.mp same, place⟩
  · intro p here
    obtain ⟨entry, listed', rfl⟩ := List.mem_map.mp here
    exact ⟨entry.1, ((member entry).mp listed').1, rfl, rfl, rfl, invocations_eq functions entry.1⟩

theorem frozen_stays {documents : List SchedulerDocument}
    (ready : (frozen documents).initialized = true) (more : List SchedulerDocument) :
    frozen (documents ++ more) = frozen documents := by
  unfold frozen at ready ⊢
  rw [List.find?_append]
  cases found : documents.find? (fun document => !document.events.isEmpty) with
  | some first => rfl
  | none =>
    rw [found] at ready
    cases ready

/-- The first events freeze the inventory, and every later document is planned against it. -/
theorem plans_frozen {documents : List SchedulerDocument} (some : documents ≠ [])
    (valid : ∀ document ∈ documents, validDocument document = true) :
    inventoryAfter documents = .some (frozen documents) ∧
      ((frozen documents).initialized = true → ∀ more,
        (∀ document ∈ more, validDocument document = true) →
        inventoryAfter (documents ++ more) = .some (frozen documents)) ∧
      ∀ later now, validDocument later = true → validEvaluationTime now = true →
        ((frozen documents).initialized = true ∨ later.events = []) →
        ∃ plans, planDueEvents later (frozen documents) now = .some plans ∧
          PlansExact later (frozen documents).functionNames now plans := by
  refine ⟨inventory_frozen some valid, fun ready more others => ?_,
    fun later now good time known => ⟨_, ?_, plans_exact _ _ _⟩⟩
  · rw [← frozen_stays ready more]
    refine inventory_frozen (fun none => some (List.append_eq_nil_iff.mp none).1) ?_
    intro document member
    rcases List.mem_append.mp member with before | after
    · exact valid document before
    · exact others document after
  · have inventory := frozen_valid valid
    unfold planDueEvents
    rw [if_neg]
    rcases known with ready | empty
    · simp [good, time, inventory, ready]
    · simp [good, time, inventory, empty]

def namedEvent (name : UInt8) (priority : Int32) (pre : List Text) : SchedulerEvent where
  enabled := true
  priority := priority
  intervalSeconds := 0
  dailyResets := []
  nextTick := 10
  eventName := [name]
  functionName := [name]
  disabledTimeRanges := []
  preTasks := pre
  postTasks := [[97]]

/-- An empty start, then a helper; a reload that adds an event cannot name it. -/
theorem plans_frozen_reloaded :
    let first : SchedulerDocument := ⟨[namedEvent 97 2 []]⟩
    let later : SchedulerDocument := ⟨[namedEvent 97 2 [], namedEvent 98 1 [[98], [97], [97]]]⟩
    planDueEvents later (frozen [⟨[]⟩, first]) ⟨86500, 0, 100⟩ =
        some [⟨1, [98], [98], 1, [⟨.preTask, [97]⟩, ⟨.preTask, [97]⟩, ⟨.currentTask, [98]⟩,
            ⟨.postTask, [97]⟩]⟩,
          ⟨0, [97], [97], 2, [⟨.currentTask, [97]⟩, ⟨.postTask, [97]⟩]⟩] ∧
      inventoryAfter [⟨[]⟩, first] = some ⟨[[97]], true⟩ := by
  have ready : ([⟨[]⟩, ⟨[namedEvent 97 2 []]⟩] : List SchedulerDocument) ≠ [] := by decide
  exact ⟨by decide, (plans_frozen ready (by decide)).1⟩

end Baas.Scheduler
