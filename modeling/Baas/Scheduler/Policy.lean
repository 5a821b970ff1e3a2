import Mathlib.Data.List.Sort
import Baas.Lib.ByteOrder

/-! The scheduler policy: which events of `event.json` are due, in what order their tasks
run, and when a completed event runs again. Nothing here reads a clock or a file. -/
namespace Baas.Scheduler

abbrev Text := List UInt8

def maximumUnixSeconds : Int := 253402300799
def maximumIntervalSeconds : Int := 315360000

def hardMaximumJsonBytes : Nat := 4 * 1024 * 1024
def hardMaximumDepth : Nat := 16
def hardMaximumNodes : Nat := 65536
def hardMaximumEvents : Nat := 1024
def hardMaximumItemsPerEvent : Nat := 256
def hardMaximumStringBytes : Nat := 1024
def hardMaximumTotalStringBytes : Nat := 512 * 1024
def secondsPerDay : Nat := 86400

structure TimeOfDay where
  hour : UInt8 := 0
  minute : UInt8 := 0
  second : UInt8 := 0
deriving DecidableEq

def TimeOfDay.secondsSinceMidnight (time : TimeOfDay) : Nat :=
  time.hour.toNat * 3600 + time.minute.toNat * 60 + time.second.toNat

structure DisabledTimeRange where
  start : TimeOfDay
  finish : TimeOfDay
deriving DecidableEq

/-- The 64-bit fields are integers here; the checks reject whatever does not fit. -/
structure SchedulerEvent where
  enabled : Bool
  priority : Int32
  intervalSeconds : Int
  dailyResets : List TimeOfDay
  nextTick : Int
  eventName : Text
  functionName : Text
  disabledTimeRanges : List DisabledTimeRange
  preTasks : List Text
  postTasks : List Text
deriving DecidableEq

structure SchedulerDocument where
  events : List SchedulerEvent
deriving DecidableEq

/-- The instant, and its place in the local and in the UTC day. -/
structure EvaluationTime where
  unixSeconds : Int
  localSecondsSinceMidnight : Nat
  utcSecondsSinceMidnight : Nat
deriving DecidableEq

inductive InvocationRole
  | preTask | currentTask | postTask
deriving DecidableEq

structure PlannedInvocation where
  role : InvocationRole
  functionName : Text
deriving DecidableEq

structure ScheduledPlan where
  eventIndex : Nat
  eventName : Text
  currentTask : Text
  priority : Int32
  serialInvocations : List PlannedInvocation
deriving DecidableEq

structure FunctionInventory where
  functionNames : List Text := []
  initialized : Bool := false
deriving DecidableEq

inductive CompletionOutcome
  | success | failure
deriving DecidableEq

inductive TransformError
  | none | invalidDocument | invalidTime | invalidEventIndex | invalidDelay | timestampOverflow
deriving DecidableEq

structure CompletionTransform where
  document : SchedulerDocument := ⟨[]⟩
  persistRequired : Bool := false
  nextTick : Option Int := none
  error : TransformError := .none
deriving DecidableEq

/-! What is accepted. -/

def validEvaluationTime (now : EvaluationTime) : Bool :=
  0 ≤ now.unixSeconds && now.unixSeconds ≤ maximumUnixSeconds &&
    now.localSecondsSinceMidnight < secondsPerDay &&
    now.utcSecondsSinceMidnight < secondsPerDay &&
    now.unixSeconds % secondsPerDay = now.utcSecondsSinceMidnight

/-- The bytes of all strings so far, unless the next one is empty, too long or too much. -/
def countString (total : Nat) (text : Text) : Option Nat :=
  if text = [] ∨ text.length > hardMaximumStringBytes ∨
      text.length > hardMaximumTotalStringBytes - total then none
  else some (total + text.length)

def TimeOfDay.valid (time : TimeOfDay) : Bool :=
  !(time.hour > 23 || time.minute > 59 || time.second > 59)

def SchedulerEvent.inBounds (event : SchedulerEvent) : Bool :=
  !(event.eventName.isEmpty || event.functionName.isEmpty ||
    event.eventName.length > hardMaximumStringBytes ||
    event.functionName.length > hardMaximumStringBytes ||
    event.intervalSeconds < -maximumIntervalSeconds ||
    event.intervalSeconds > maximumIntervalSeconds ||
    event.nextTick < 0 || event.nextTick > maximumUnixSeconds ||
    event.dailyResets.length > hardMaximumItemsPerEvent ||
    event.disabledTimeRanges.length > hardMaximumItemsPerEvent ||
    event.preTasks.length > hardMaximumItemsPerEvent ||
    event.postTasks.length > hardMaximumItemsPerEvent)

/-- The strings of an event in the order they are counted. -/
def SchedulerEvent.strings (event : SchedulerEvent) : List Text :=
  event.eventName :: event.functionName :: (event.preTasks ++ event.postTasks)

def SchedulerEvent.timesValid (event : SchedulerEvent) : Bool :=
  event.dailyResets.all TimeOfDay.valid &&
    event.disabledTimeRanges.all (fun range => range.start.valid && range.finish.valid)

def validEvent (total : Nat) (event : SchedulerEvent) : Option Nat :=
  if !event.inBounds then none
  else
    match event.strings.foldlM countString total with
    | none => none
    | some total => if event.timesValid then some total else none

def validDocument (document : SchedulerDocument) : Bool :=
  document.events.length ≤ hardMaximumEvents && (document.events.foldlM validEvent 0).isSome

def validInventory (inventory : FunctionInventory) : Bool :=
  if inventory.functionNames.length > hardMaximumEvents then false
  else if !inventory.initialized && !inventory.functionNames.isEmpty then false
  else if inventory.initialized && inventory.functionNames.isEmpty then false
  else (inventory.functionNames.foldlM countString 0).isSome

/-! The functions a task may name. -/

def snapshotFunctionInventory (document : SchedulerDocument) : Option FunctionInventory :=
  if !validDocument document then none
  else some ⟨document.events.map SchedulerEvent.functionName, !document.events.isEmpty⟩

def refreshFunctionInventory (inventory : FunctionInventory) (document : SchedulerDocument) :
    Option FunctionInventory :=
  if !validInventory inventory || !validDocument document then none
  else if inventory.initialized || document.events.isEmpty then some inventory
  else snapshotFunctionInventory document

/-! What is due. -/

/-- A reverse range is empty; it does not wrap midnight. -/
def disabledNow (event : SchedulerEvent) (localSeconds : Nat) : Bool :=
  event.disabledTimeRanges.any (fun range =>
    range.start.secondsSinceMidnight ≤ localSeconds &&
      localSeconds ≤ range.finish.secondsSinceMidnight)

def dueNow (now : EvaluationTime) (event : SchedulerEvent) : Bool :=
  event.enabled && event.nextTick ≤ now.unixSeconds &&
    !disabledNow event now.localSecondsSinceMidnight

/-- The due events with their places in the document. -/
def dueEvents (document : SchedulerDocument) (now : EvaluationTime) :
    List (SchedulerEvent × Nat) :=
  document.events.zipIdx.filter (fun entry => dueNow now entry.1)

def invocations (knownFunctions : List Text) (event : SchedulerEvent) : List PlannedInvocation :=
  (event.preTasks.filter (knownFunctions.contains ·)).map (⟨.preTask, ·⟩) ++
    [⟨.currentTask, event.functionName⟩] ++
    (event.postTasks.filter (knownFunctions.contains ·)).map (⟨.postTask, ·⟩)

def plan (knownFunctions : List Text) (entry : SchedulerEvent × Nat) : ScheduledPlan :=
  ⟨entry.2, entry.1.eventName, entry.1.functionName, entry.1.priority,
    invocations knownFunctions entry.1⟩

def planDueEvents (document : SchedulerDocument) (inventory : FunctionInventory)
    (now : EvaluationTime) : Option (List ScheduledPlan) :=
  if !validEvaluationTime now || !validDocument document || !validInventory inventory ||
      (!inventory.initialized && !document.events.isEmpty) then none
  else
    -- `std::stable_sort`: insertion keeps the order of equal priorities
    some (((dueEvents document now).insertionSort
      (fun left right => left.1.priority ≤ right.1.priority)).map (plan inventory.functionNames))

/-! When a completed event runs again. -/

def checkedAdd (left : Int) (right : Int) : Option Int :=
  if right < 0 ∨ left > maximumUnixSeconds - right then none else some (left + right)

/-- The tick of one daily reset, in range. -/
def resetTick (now : EvaluationTime) (reset : TimeOfDay) : Option Int :=
  match checkedAdd (now.unixSeconds - now.utcSecondsSinceMidnight) reset.secondsSinceMidnight with
  | none => none
  | some tick =>
    if now.utcSecondsSinceMidnight > reset.secondsSinceMidnight then checkedAdd tick secondsPerDay
    else some tick

def nearer (now : EvaluationTime) (nearest : Option Int) (reset : TimeOfDay) :
    Option Int :=
  match resetTick now reset with
  | none => nearest
  | some tick => if nearest.all (tick < ·) then some tick else nearest

def nearestReset (now : EvaluationTime) (resets : List TimeOfDay) : Option Int :=
  resets.foldl (nearer now) none

def effectiveInterval (event : SchedulerEvent) : Int :=
  if event.intervalSeconds > 0 then event.intervalSeconds else secondsPerDay

def undelayedTick (now : EvaluationTime) (event : SchedulerEvent) : Option Int :=
  let intervalTick := checkedAdd now.unixSeconds (effectiveInterval event)
  match nearestReset now event.dailyResets with
  | none => intervalTick
  | some reset => if intervalTick.all (· ≥ reset) then some reset else intervalTick

def nextTickAfter (now : EvaluationTime) (event : SchedulerEvent)
    (requestedDelaySeconds : Option Int) : Option Int :=
  match requestedDelaySeconds with
  | some delay =>
    if delay > 0 then checkedAdd now.unixSeconds delay else undelayedTick now event
  | none => undelayedTick now event

def delayInvalid (requestedDelaySeconds : Option Int) : Bool :=
  requestedDelaySeconds.any (fun delay =>
    delay < -maximumIntervalSeconds || delay > maximumIntervalSeconds)

def applyCompletion (document : SchedulerDocument) (eventIndex : Nat)
    (outcome : CompletionOutcome) (now : EvaluationTime)
    (requestedDelaySeconds : Option Int := none) : CompletionTransform :=
  if !validDocument document then { error := .invalidDocument }
  else if !validEvaluationTime now then { document, error := .invalidTime }
  else
    match document.events[eventIndex]? with
    | none => { document, error := .invalidEventIndex }
    | some event =>
      if delayInvalid requestedDelaySeconds then { document, error := .invalidDelay }
      else if outcome = .failure then { document }
      else
        match nextTickAfter now event requestedDelaySeconds with
        | none => { document, error := .timestampOverflow }
        | some tick =>
          { document := ⟨document.events.set eventIndex { event with nextTick := tick }⟩
            persistRequired := true
            nextTick := some tick }

end Baas.Scheduler
