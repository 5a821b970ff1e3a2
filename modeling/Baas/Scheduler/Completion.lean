import Baas.Scheduler.Validity

/-! When a completed event runs again: the least of what its interval and its daily resets
offer within the supported time. -/
namespace Baas.Scheduler

/-- Some instant with the reset's time of day. -/
def OccursAt (reset : TimeOfDay) (tick : Int) : Prop :=
  tick % secondsPerDay = reset.secondsSinceMidnight

/-- The first occurrence that is not in the past. -/
def NextOccurrence (reset : TimeOfDay) (now tick : Int) : Prop :=
  OccursAt reset tick ∧ now ≤ tick ∧ ∀ other, OccursAt reset other → now ≤ other → tick ≤ other

/-- What the event offers as its next tick, in or out of range. -/
def Offers (event : SchedulerEvent) (now tick : Int) : Prop :=
  tick = now + effectiveInterval event ∨
    ∃ reset ∈ event.dailyResets, NextOccurrence reset now tick

/-- The least element of a set of ticks that is in range, or none. -/
def LeastInRange (L : Int → Prop) : Option Int → Prop
  | none => ∀ tick, L tick → maximumUnixSeconds < tick
  | some tick => L tick ∧ tick ≤ maximumUnixSeconds ∧ ∀ other, L other → tick ≤ other

/-- The next tick of a successful completion. -/
def NextTick (event : SchedulerEvent) (now : Int) (delay : Option Int)
    (tick : Int) : Prop :=
  (∃ seconds, delay = some seconds ∧ 0 < seconds ∧ tick = now + seconds) ∨
    ((∀ seconds, delay = some seconds → seconds ≤ 0) ∧ LeastInRange (Offers event now) (some tick))

/-- What `apply_completion` gives on a valid document at a valid time. -/
structure CompletionRule (document : SchedulerDocument) (eventIndex : Nat)
    (outcome : CompletionOutcome) (now : EvaluationTime) (delay : Option Int)
    (result : CompletionTransform) : Prop where
  refused : result.error ≠ .none → result.document = document ∧ result.persistRequired = false
  failed : outcome = .failure → result.document = document ∧ result.persistRequired = false
  completed : outcome = .success → result.error = .none → ∃ event tick,
    document.events[eventIndex]? = some event ∧ NextTick event now.unixSeconds delay tick ∧
      result.document.events = document.events.set eventIndex { event with nextTick := tick } ∧
      result.nextTick = some tick ∧
      now.unixSeconds ≤ tick ∧ tick ≤ maximumUnixSeconds ∧
      (tick = now.unixSeconds →
        ∃ reset ∈ event.dailyResets, reset.secondsSinceMidnight = now.utcSecondsSinceMidnight)
  completes : outcome = .success → ∀ event, document.events[eventIndex]? = some event →
    delayInvalid delay = false →
    (∃ tick, NextTick event now.unixSeconds delay tick ∧ tick ≤ maximumUnixSeconds) →
    result.error = .none

theorem maximum_eq : maximumUnixSeconds = 253402300799 := rfl

theorem day_eq : secondsPerDay = 86400 := rfl

/-- A valid time as numbers. -/
theorem valid_time {now : EvaluationTime} (valid : validEvaluationTime now = true) :
    0 ≤ now.unixSeconds ∧ now.unixSeconds ≤ 253402300799 ∧
      now.utcSecondsSinceMidnight < 86400 ∧
      now.unixSeconds % 86400 = now.utcSecondsSinceMidnight := by
  simp only [validEvaluationTime, Bool.and_eq_true, decide_eq_true_eq] at valid
  exact ⟨valid.1.1.1.1, valid.1.1.1.2, valid.1.2, valid.2⟩

theorem checkedAdd_eq {left right : Int} (positive : 0 ≤ right) :
    checkedAdd left right =
      if left + right ≤ maximumUnixSeconds then some (left + right) else none := by
  unfold checkedAdd
  by_cases within : left + right ≤ maximumUnixSeconds
  · rw [if_pos within, if_neg (by omega)]
  · rw [if_neg within, if_pos (by omega)]

theorem seconds_lt {reset : TimeOfDay} (valid : reset.valid = true) :
    reset.secondsSinceMidnight < 86400 := by
  simp only [TimeOfDay.valid, Bool.not_eq_true', Bool.or_eq_false_iff, decide_eq_false_iff_not,
    UInt8.not_lt] at valid
  obtain ⟨⟨hour, minute⟩, second⟩ := valid
  have hours : reset.hour.toNat ≤ 23 := UInt8.le_iff_toNat_le.mp hour
  have minutes : reset.minute.toNat ≤ 59 := UInt8.le_iff_toNat_le.mp minute
  have seconds : reset.second.toNat ≤ 59 := UInt8.le_iff_toNat_le.mp second
  unfold TimeOfDay.secondsSinceMidnight
  omega

/-- The second, where it is no later than the first. -/
def earlier (a : Option Int) : Option Int → Option Int
  | none => a
  | some tick => if a.all (· ≥ tick) then some tick else a

theorem least_or {L M : Int → Prop} {a b : Option Int} (ha : LeastInRange L a)
    (hb : LeastInRange M b) :
    LeastInRange (fun tick => L tick ∨ M tick) (earlier a b) := by
  cases b with
  | none =>
    cases a with
    | none =>
      rintro tick (left | right)
      · exact ha tick left
      · exact hb tick right
    | some x =>
      refine ⟨.inl ha.1, ha.2.1, fun other member => ?_⟩
      rcases member with left | right
      · exact ha.2.2 other left
      · have small := ha.2.1
        have large := hb other right
        omega
  | some y =>
    cases a with
    | none =>
      refine ⟨.inr hb.1, hb.2.1, fun other member => ?_⟩
      rcases member with left | right
      · have small := hb.2.1
        have large := ha other left
        omega
      · exact hb.2.2 other right
    | some x =>
      by_cases later : x ≥ y
      · simp only [earlier, Option.all_some, decide_eq_true_eq, if_pos later]
        refine ⟨.inr hb.1, hb.2.1, fun other member => ?_⟩
        rcases member with left | right
        · exact Int.le_trans later (ha.2.2 other left)
        · exact hb.2.2 other right
      · simp only [earlier, Option.all_some, decide_eq_true_eq, if_neg later]
        refine ⟨.inl ha.1, ha.2.1, fun other member => ?_⟩
        rcases member with left | right
        · exact ha.2.2 other left
        · have below := hb.2.2 other right
          omega

theorem least_congr {L M : Int → Prop} (same : ∀ tick, L tick ↔ M tick)
    {a : Option Int} (least : LeastInRange L a) : LeastInRange M a := by
  have equal : L = M := funext (fun tick => propext (same tick))
  exact equal ▸ least

/-! One reset, all resets, and the interval. -/

theorem nextOccurrence_iff {reset : TimeOfDay} {now tick : Int} (occurs : OccursAt reset tick)
    (future : now ≤ tick) (near : tick < now + 86400) (other : Int) :
    NextOccurrence reset now other ↔ other = tick := by
  unfold OccursAt at occurs
  rw [day_eq] at occurs
  constructor
  · rintro ⟨same, later, least⟩
    have below := least tick occurs future
    unfold OccursAt at same
    rw [day_eq] at same
    omega
  · rintro rfl
    refine ⟨occurs, future, fun other same later => ?_⟩
    unfold OccursAt at same
    rw [day_eq] at same
    omega

/-- The tick a reset would have without the end of time. -/
def firstOccurrence (reset : TimeOfDay) (now : EvaluationTime) : Int :=
  now.unixSeconds - now.utcSecondsSinceMidnight + reset.secondsSinceMidnight +
    if now.utcSecondsSinceMidnight > reset.secondsSinceMidnight then 86400 else 0

theorem firstOccurrence_near {now : EvaluationTime} (valid : validEvaluationTime now = true)
    {reset : TimeOfDay} (time : reset.valid = true) :
    OccursAt reset (firstOccurrence reset now) ∧ now.unixSeconds ≤ firstOccurrence reset now ∧
      firstOccurrence reset now < now.unixSeconds + 86400 := by
  obtain ⟨least, most, day, same⟩ := valid_time valid
  have short := seconds_lt time
  unfold OccursAt firstOccurrence
  rw [day_eq]
  split
  · omega
  · omega

theorem resetTick_eq {now : EvaluationTime} (valid : validEvaluationTime now = true)
    {reset : TimeOfDay} (time : reset.valid = true) :
    resetTick now reset =
      if firstOccurrence reset now ≤ maximumUnixSeconds then some (firstOccurrence reset now)
      else none := by
  obtain ⟨least, most, day, same⟩ := valid_time valid
  have short := seconds_lt time
  unfold resetTick firstOccurrence
  rw [checkedAdd_eq (Int.natCast_nonneg _), maximum_eq]
  by_cases past : now.utcSecondsSinceMidnight > reset.secondsSinceMidnight
  · rw [if_pos past, if_pos (by omega)]
    simp only [if_pos past]
    rw [checkedAdd_eq (Int.natCast_nonneg _), maximum_eq, day_eq]
    rfl
  · rw [if_neg past, Int.add_zero]
    by_cases within : now.unixSeconds - now.utcSecondsSinceMidnight +
        reset.secondsSinceMidnight ≤ 253402300799
    · rw [if_pos within]
      exact if_neg past
    · rw [if_neg within]

theorem least_single {tick : Int} {L : Int → Prop} (only : ∀ other, L other ↔ other = tick) :
    LeastInRange L (if tick ≤ maximumUnixSeconds then some tick else none) := by
  by_cases within : tick ≤ maximumUnixSeconds
  · rw [if_pos within]
    exact ⟨(only tick).mpr rfl, within, fun other member => Int.le_of_eq ((only other).mp member).symm⟩
  · rw [if_neg within]
    intro other member
    rw [(only other).mp member]
    exact Int.not_le.mp within

theorem resetTick_least {now : EvaluationTime} (valid : validEvaluationTime now = true)
    {reset : TimeOfDay} (time : reset.valid = true) :
    LeastInRange (NextOccurrence reset now.unixSeconds) (resetTick now reset) := by
  obtain ⟨occurs, future, near⟩ := firstOccurrence_near valid time
  rw [resetTick_eq valid time]
  exact least_single (nextOccurrence_iff occurs future near)

/-- The step of the loop, as the nearer of two. -/
theorem nearer_eq (now : EvaluationTime) (nearest : Option Int) (reset : TimeOfDay) :
    nearer now nearest reset = earlier (resetTick now reset) nearest := by
  unfold nearer
  cases resetTick now reset with
  | none =>
    cases nearest with
    | none => rfl
    | some tick => rfl
  | some found =>
    cases nearest with
    | none => rfl
    | some tick =>
      simp only [earlier, Option.all_some, decide_eq_true_eq]
      by_cases before : found < tick
      · rw [if_pos before, if_neg (by omega)]
      · rw [if_neg before, if_pos (by omega)]

theorem nearest_least {now : EvaluationTime} (valid : validEvaluationTime now = true)
    (resets : List TimeOfDay) (times : ∀ reset ∈ resets, reset.valid = true)
    {L : Int → Prop} {nearest : Option Int} (least : LeastInRange L nearest) :
    LeastInRange (fun tick => L tick ∨ ∃ reset ∈ resets, NextOccurrence reset now.unixSeconds tick)
      (resets.foldl (nearer now) nearest) := by
  induction resets generalizing L nearest with
  | nil => exact least_congr (fun tick => by simp) least
  | cons reset rest ih =>
    have one := least_or (resetTick_least valid (times reset List.mem_cons_self)) least
    rw [← nearer_eq] at one
    have all := ih (fun other member => times other (List.mem_cons_of_mem reset member)) one
    refine least_congr (fun tick => ?_) all
    simp only [List.mem_cons, exists_eq_or_imp]
    constructor
    · rintro ((here | before) | later)
      · exact .inr (.inl here)
      · exact .inl before
      · exact .inr (.inr later)
    · rintro (before | here | later)
      · exact .inl (.inr before)
      · exact .inl (.inl here)
      · exact .inr later

theorem nearestReset_least {now : EvaluationTime} (valid : validEvaluationTime now = true)
    {resets : List TimeOfDay} (times : ∀ reset ∈ resets, reset.valid = true) :
    LeastInRange (fun tick => ∃ reset ∈ resets, NextOccurrence reset now.unixSeconds tick)
      (nearestReset now resets) := by
  have none : LeastInRange (fun _ => False) none := fun _ impossible => impossible.elim
  exact least_congr (fun tick => by simp) (nearest_least valid resets times none)

theorem effectiveInterval_pos (event : SchedulerEvent) : 0 < effectiveInterval event := by
  unfold effectiveInterval
  split
  · assumption
  · exact (by decide : (0 : Int) < (secondsPerDay : Nat))

theorem undelayedTick_least {now : EvaluationTime} (valid : validEvaluationTime now = true)
    {event : SchedulerEvent} (times : ∀ reset ∈ event.dailyResets, reset.valid = true) :
    LeastInRange (Offers event now.unixSeconds) (undelayedTick now event) := by
  have interval : LeastInRange (· = now.unixSeconds + effectiveInterval event)
      (checkedAdd now.unixSeconds (effectiveInterval event)) := by
    rw [checkedAdd_eq (Int.le_of_lt (effectiveInterval_pos event))]
    exact least_single (fun _ => Iff.rfl)
  have both := least_or interval (nearestReset_least valid times)
  have same : undelayedTick now event =
      earlier (checkedAdd now.unixSeconds (effectiveInterval event))
        (nearestReset now event.dailyResets) := by
    unfold undelayedTick
    cases nearestReset now event.dailyResets with
    | none => rfl
    | some reset => rfl
  exact same ▸ both

/-! The completion. -/

theorem times_of_valid {document : SchedulerDocument} (valid : validDocument document = true)
    {event : SchedulerEvent} (member : event ∈ document.events) :
    ∀ reset ∈ event.dailyResets, reset.valid = true := by
  have times := ((validDocument_iff.mp valid).2.1 event member).times
  unfold SchedulerEvent.timesValid at times
  rw [Bool.and_eq_true, List.all_eq_true] at times
  exact times.1

/-- The tick of a completion, or none where it would be out of range. -/
theorem nextTickAfter_least {now : EvaluationTime} (valid : validEvaluationTime now = true)
    {event : SchedulerEvent} (times : ∀ reset ∈ event.dailyResets, reset.valid = true)
    (delay : Option Int) :
    match nextTickAfter now event delay with
    | some tick => NextTick event now.unixSeconds delay tick ∧ tick ≤ maximumUnixSeconds
    | none => ∀ tick, NextTick event now.unixSeconds delay tick → maximumUnixSeconds < tick := by
  have least := undelayedTick_least valid times
  have undelayed (never : ∀ seconds, delay = some seconds → seconds ≤ 0) :
      match undelayedTick now event with
      | some tick => NextTick event now.unixSeconds delay tick ∧ tick ≤ maximumUnixSeconds
      | none => ∀ tick, NextTick event now.unixSeconds delay tick → maximumUnixSeconds < tick := by
    cases found : undelayedTick now event with
    | some tick =>
      rw [found] at least
      exact ⟨.inr ⟨never, least⟩, least.2.1⟩
    | none =>
      rw [found] at least
      rintro tick (⟨seconds, same, positive, -⟩ | ⟨-, offered, -⟩)
      · have negative := never seconds same
        omega
      · exact least tick offered
  cases delay with
  | none => exact undelayed nofun
  | some seconds =>
    by_cases positive : seconds > 0
    · have chosen : nextTickAfter now event (some seconds) =
          if now.unixSeconds + seconds ≤ maximumUnixSeconds then some (now.unixSeconds + seconds)
          else none := by
        rw [← checkedAdd_eq (Int.le_of_lt positive)]
        exact if_pos positive
      rw [chosen]
      by_cases within : now.unixSeconds + seconds ≤ maximumUnixSeconds
      · rw [if_pos within]
        exact ⟨.inl ⟨seconds, rfl, positive, rfl⟩, within⟩
      · rw [if_neg within]
        rintro tick (⟨other, same, -, rfl⟩ | ⟨never, -⟩)
        · cases same
          exact Int.not_le.mp within
        · exact absurd positive (Int.not_lt.mpr (never seconds rfl))
    · have chosen : nextTickAfter now event (some seconds) = undelayedTick now event :=
        if_neg positive
      rw [chosen]
      refine undelayed (fun other same => ?_)
      cases same
      exact Int.not_lt.mp positive

/-- A tick lies ahead, except where a reset falls on this very instant. -/
theorem nextTick_ahead {now : EvaluationTime} (valid : validEvaluationTime now = true)
    {event : SchedulerEvent} {delay : Option Int} {tick : Int}
    (next : NextTick event now.unixSeconds delay tick) : now.unixSeconds ≤ tick ∧
      (tick = now.unixSeconds →
        ∃ reset ∈ event.dailyResets, reset.secondsSinceMidnight = now.utcSecondsSinceMidnight) := by
  obtain ⟨-, -, -, day⟩ := valid_time valid
  rcases next with ⟨seconds, -, positive, rfl⟩ | ⟨-, offered | ⟨reset, member, occurs, future, -⟩, -⟩
  · exact ⟨by omega, fun same => by omega⟩
  · have positive := effectiveInterval_pos event
    exact ⟨by omega, fun same => by omega⟩
  · refine ⟨future, fun same => ⟨reset, member, ?_⟩⟩
    unfold OccursAt at occurs
    rw [day_eq, same] at occurs
    omega

/-- A refusal, where no completion was possible. -/
theorem refusal_follows_rule {document : SchedulerDocument} {eventIndex : Nat}
    {outcome : CompletionOutcome} {now : EvaluationTime} {delay : Option Int}
    {error : TransformError} (reported : error ≠ .none)
    (impossible : ∀ event, document.events[eventIndex]? = some event →
      delayInvalid delay = false → ∀ tick, NextTick event now.unixSeconds delay tick →
        maximumUnixSeconds < tick) :
    CompletionRule document eventIndex outcome now delay { document, error } where
  refused _ := ⟨rfl, rfl⟩
  failed _ := ⟨rfl, rfl⟩
  completed _ done := absurd done reported
  completes _ event here allowed := by
    rintro ⟨tick, next, within⟩
    exact absurd (impossible event here allowed tick next) (Int.not_lt.mpr within)

/-- A completion follows the rule, whatever the index, the outcome and the delay. -/
theorem completion_follows_rule {document : SchedulerDocument} {now : EvaluationTime}
    (valid : validDocument document = true) (time : validEvaluationTime now = true)
    (eventIndex : Nat) (outcome : CompletionOutcome) (delay : Option Int) :
    CompletionRule document eventIndex outcome now delay
      (applyCompletion document eventIndex outcome now delay) := by
  unfold applyCompletion
  rw [if_neg (by simp [valid]), if_neg (by simp [time])]
  cases found : document.events[eventIndex]? with
  | none =>
    refine refusal_follows_rule (by decide) (fun event here => ?_)
    rw [found] at here
    cases here
  | some event =>
    simp only
    by_cases late : delayInvalid delay = true
    · rw [if_pos late]
      exact refusal_follows_rule (by decide)
        (fun _ _ allowed => absurd (late.symm.trans allowed) (by decide))
    rw [if_neg late]
    cases outcome with
    | failure =>
      refine ⟨fun _ => ⟨rfl, rfl⟩, fun _ => ⟨rfl, rfl⟩, ?_, ?_⟩
      · intro same
        cases same
      · intro same
        cases same
    | success =>
      rw [if_neg (by decide)]
      have least := nextTickAfter_least time
        (times_of_valid valid (List.mem_of_getElem? found)) delay
      cases chosen : nextTickAfter now event delay with
      | none =>
        rw [chosen] at least
        refine refusal_follows_rule (by decide) (fun other here _ => ?_)
        rw [found] at here
        cases here
        exact least
      | some tick =>
        rw [chosen] at least
        obtain ⟨next, within⟩ := least
        obtain ⟨future, present⟩ := nextTick_ahead time next
        refine ⟨fun refused => absurd rfl refused, ?_, ?_, fun _ _ _ _ _ => rfl⟩
        · intro same
          cases same
        · exact fun _ _ => ⟨event, tick, found, next, rfl, rfl, future, within, present⟩

def sampleEvent : SchedulerEvent where
  enabled := true
  priority := 0
  intervalSeconds := 10800
  dailyResets := [⟨7, 0, 0⟩, ⟨19, 0, 0⟩]
  nextTick := 100
  eventName := [97]
  functionName := [98]
  disabledTimeRanges := []
  preTasks := []
  postTasks := []

/-- At five in the afternoon the reset at seven in the evening is nearer than the interval. -/
theorem completion_follows_rule_reset :
    (applyCompletion ⟨[sampleEvent]⟩ 0 .success ⟨1728061200, 10800, 61200⟩).nextTick =
        some 1728068400 ∧
      CompletionRule ⟨[sampleEvent]⟩ 0 .success ⟨1728061200, 10800, 61200⟩ none
        (applyCompletion ⟨[sampleEvent]⟩ 0 .success ⟨1728061200, 10800, 61200⟩) :=
  ⟨by decide, completion_follows_rule (by decide) (by decide) 0 .success none⟩

/-- A reset that falls on the completion itself is taken at once: the event stays due. -/
theorem completed_on_reset :
    let now : EvaluationTime := ⟨1728068400, 0, 68400⟩
    let result := applyCompletion ⟨[sampleEvent]⟩ 0 .success now
    validDocument ⟨[sampleEvent]⟩ = true ∧ validEvaluationTime now = true ∧
      result.error = .none ∧ result.nextTick = some now.unixSeconds ∧
      (result.document.events.map (dueNow now)) = [true] := by
  decide

end Baas.Scheduler
