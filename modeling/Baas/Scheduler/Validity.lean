import Mathlib.Algebra.GroupWithZero.Nat
import Baas.Scheduler.Policy

/-! What the checks of documents and inventories amount to. -/
namespace Baas.Scheduler

def GoodString (text : Text) : Prop := text ≠ [] ∧ text.length ≤ hardMaximumStringBytes

def stringBytes (texts : List Text) : Nat := (texts.map List.length).sum

/-- An event that keeps every bound of its own. -/
structure SchedulerEvent.Sound (event : SchedulerEvent) : Prop where
  bounds : event.inBounds = true
  strings : ∀ text ∈ event.strings, GoodString text
  times : event.timesValid = true

def SchedulerEvent.bytes (event : SchedulerEvent) : Nat := stringBytes event.strings

theorem countString_eq {total final : Nat} {text : Text}
    (within : total ≤ hardMaximumTotalStringBytes) :
    countString total text = some final ↔
      GoodString text ∧ final = total + text.length ∧ final ≤ hardMaximumTotalStringBytes := by
  unfold countString GoodString
  constructor
  · intro counted
    split at counted
    · cases counted
    · rename_i good
      rw [not_or, not_or] at good
      cases Option.some.inj counted
      exact ⟨⟨good.1, by omega⟩, rfl, by omega⟩
  · rintro ⟨⟨filled, short⟩, rfl, most⟩
    rw [if_neg]
    rintro (empty | long | much)
    · exact filled empty
    · omega
    · omega

/-- A fold that adds up sizes under a limit and fails on the first bad element. -/
theorem foldlM_sizes {α : Type} {f : Nat → α → Option Nat} {good : α → Prop} {size : α → Nat}
    {limit : Nat} (step : ∀ total final a, total ≤ limit →
      (f total a = some final ↔ good a ∧ final = total + size a ∧ final ≤ limit))
    {l : List α} {total final : Nat} (within : total ≤ limit) :
    l.foldlM f total = some final ↔
      (∀ a ∈ l, good a) ∧ final = total + (l.map size).sum ∧ final ≤ limit := by
  induction l generalizing total with
  | nil =>
    simp only [List.foldlM_nil, List.map_nil, List.sum_nil, List.not_mem_nil, false_imp_iff,
      implies_true, true_and, Nat.add_zero]
    constructor
    · intro same
      cases Option.some.inj same
      exact ⟨rfl, within⟩
    · rintro ⟨rfl, -⟩
      rfl
  | cons a rest ih =>
    rw [List.foldlM_cons, List.map_cons, List.sum_cons]
    constructor
    · intro passed
      cases first : f total a with
      | none =>
        rw [first] at passed
        cases passed
      | some next =>
        rw [first] at passed
        obtain ⟨here, rfl, most⟩ := (step total next a within).mp first
        obtain ⟨others, rfl, all⟩ := (ih most).mp passed
        refine ⟨fun other member => ?_, Nat.add_assoc _ _ _, all⟩
        rcases List.mem_cons.mp member with rfl | later
        · exact here
        · exact others other later
    · rintro ⟨all, rfl, most⟩
      have next : total + size a ≤ limit := by omega
      have first : f total a = some (total + size a) :=
        (step total _ a within).mpr ⟨all a List.mem_cons_self, rfl, next⟩
      rw [first]
      refine (ih next).mpr ⟨fun other member => all other (List.mem_cons_of_mem a member), ?_, most⟩
      exact (Nat.add_assoc _ _ _).symm

theorem countStrings_eq {texts : List Text} {total final : Nat}
    (within : total ≤ hardMaximumTotalStringBytes) :
    texts.foldlM countString total = some final ↔ (∀ text ∈ texts, GoodString text) ∧
      final = total + stringBytes texts ∧ final ≤ hardMaximumTotalStringBytes := by
  have step (total final : Nat) (text : Text) (within : total ≤ hardMaximumTotalStringBytes) :
      countString total text = some final ↔
        GoodString text ∧ final = total + text.length ∧ final ≤ hardMaximumTotalStringBytes :=
    countString_eq within
  exact foldlM_sizes step within

theorem validEvent_eq {event : SchedulerEvent} {total final : Nat}
    (within : total ≤ hardMaximumTotalStringBytes) :
    validEvent total event = some final ↔
      event.Sound ∧ final = total + event.bytes ∧ final ≤ hardMaximumTotalStringBytes := by
  unfold validEvent
  constructor
  · intro passed
    split at passed
    · cases passed
    rename_i bounds
    split at passed
    · cases passed
    rename_i next counted
    split at passed
    · rename_i times
      cases Option.some.inj passed
      obtain ⟨good, same, most⟩ := (countStrings_eq within).mp counted
      exact ⟨⟨by simpa using bounds, good, times⟩, same, most⟩
    · cases passed
  · rintro ⟨sound, same, most⟩
    have counted := (countStrings_eq within).mpr ⟨sound.strings, same, most⟩
    simp only [sound.bounds, counted, sound.times, Bool.not_true, Bool.false_eq_true, if_false,
      if_true]

def eventsBytes (events : List SchedulerEvent) : Nat := (events.map SchedulerEvent.bytes).sum

theorem validEvents_eq {events : List SchedulerEvent} {total final : Nat}
    (within : total ≤ hardMaximumTotalStringBytes) :
    events.foldlM validEvent total = some final ↔ (∀ event ∈ events, event.Sound) ∧
      final = total + eventsBytes events ∧ final ≤ hardMaximumTotalStringBytes := by
  have step (total final : Nat) (event : SchedulerEvent)
      (within : total ≤ hardMaximumTotalStringBytes) : validEvent total event = some final ↔
        event.Sound ∧ final = total + event.bytes ∧ final ≤ hardMaximumTotalStringBytes :=
    validEvent_eq within
  exact foldlM_sizes step within

/-- A valid document: few events, each sound, and not too many bytes of text in all. -/
theorem validDocument_iff {document : SchedulerDocument} : validDocument document = true ↔
    document.events.length ≤ hardMaximumEvents ∧ (∀ event ∈ document.events, event.Sound) ∧
      eventsBytes document.events ≤ hardMaximumTotalStringBytes := by
  simp only [validDocument, Bool.and_eq_true, decide_eq_true_eq, Option.isSome_iff_exists,
    validEvents_eq (Nat.zero_le _), Nat.zero_add]
  constructor
  · rintro ⟨few, final, sound, rfl, most⟩
    exact ⟨few, sound, most⟩
  · rintro ⟨few, sound, most⟩
    exact ⟨few, _, sound, rfl, most⟩

theorem validInventory_iff {inventory : FunctionInventory} : validInventory inventory = true ↔
    inventory.functionNames.length ≤ hardMaximumEvents ∧
      (inventory.initialized = true ↔ inventory.functionNames ≠ []) ∧
      (∀ text ∈ inventory.functionNames, GoodString text) ∧
      stringBytes inventory.functionNames ≤ hardMaximumTotalStringBytes := by
  have counted : (inventory.functionNames.foldlM countString 0).isSome = true ↔
      (∀ text ∈ inventory.functionNames, GoodString text) ∧
        stringBytes inventory.functionNames ≤ hardMaximumTotalStringBytes := by
    simp only [Option.isSome_iff_exists, countStrings_eq (Nat.zero_le _), Nat.zero_add]
    constructor
    · rintro ⟨final, good, rfl, most⟩
      exact ⟨good, most⟩
    · rintro ⟨good, most⟩
      exact ⟨_, good, rfl, most⟩
  unfold validInventory
  by_cases many : inventory.functionNames.length > hardMaximumEvents
  · rw [if_pos many]
    exact ⟨nofun, fun valid => absurd valid.1 (Nat.not_le.mpr many)⟩
  rw [if_neg many, ← counted]
  have few := Nat.not_lt.mp many
  cases inventory.initialized with
  | true =>
    cases named : inventory.functionNames with
    | nil => simp
    | cons name rest =>
      rw [named] at few
      simp [-List.length_cons, few]
  | false =>
    cases inventory.functionNames with
    | nil => simp
    | cons name rest => simp

end Baas.Scheduler
