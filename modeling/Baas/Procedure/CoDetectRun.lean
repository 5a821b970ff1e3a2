import Mathlib.Data.List.Basic
import Baas.Procedure.CoDetect

/-! The iteration rule of the `co_detect` engine, and that the executor keeps to it.
The rule has no variables: it decides an iteration by the iterations before it. -/
namespace Baas.Procedure

open CoDetect

/-! The rule. -/

/-- What an iteration selected, when no end did. -/
inductive Selected
  | reaction | popup | nothing
deriving DecidableEq

/-- An iteration that is over: when it began, whether it checked the foreground, what it
selected, and the click it left behind with its feature and time. -/
structure Iteration where
  time : Nat
  foreground : Bool
  selected : Selected
  click : Option (String × CoDetectClick × Nat)
deriving DecidableEq

/-- The iterations so far, the latest first. -/
abbrev Past := List Iteration

namespace Past

def featureLast (start : Nat) (past : Past) : Nat :=
  ((past.find? (fun i => i.selected = .reaction)).map Iteration.time).getD start

def foregroundLast (start : Nat) (past : Past) : Nat :=
  ((past.find? (fun i => i.foreground)).map Iteration.time).getD start

/-- The failures since the last reaction. -/
def failures (past : Past) : Nat :=
  (past.takeWhile (fun i => i.selected ≠ .reaction)).countP (fun i => i.selected = .nothing)

def lastClick (past : Past) : Option (String × CoDetectClick × Nat) := past.findSome? Iteration.click

end Past

/-- What is looked for in a frame. -/
inductive Probe
  | endRgb (feature : String)
  | endImage (item : CoDetectImageFeature)
  | reaction (reaction : CoDetectReaction) (image : Bool)
  | popup (reaction : CoDetectReaction) (image : Bool)

/-- Ends, then reactions, then popups, each class in the order of the definition. -/
def CoDetectDefinition.priority (d : CoDetectDefinition) (profile : CoDetectProfile) :
    List Probe :=
  let those (reactions : List CoDetectReaction) := reactions.filter (applicable · profile)
  d.endsRgb.map .endRgb ++ (d.endsImage.map .endImage ++
    ((those d.reactionsRgb).map (.reaction · false) ++
    ((those d.reactionsRgbProfiled).map (.reaction · false) ++
    ((those d.reactionsImage).map (.reaction · true) ++
    ((those d.reactionsImageProfiled).map (.reaction · true) ++
    ((those d.popupsRgb).map (.popup · false) ++
    (those d.popupsProfiledImage).map (.popup · true)))))))

namespace Probe

def matched (control : RequestControl) (frame : CoDetectFrame) : Probe → CoDetect Bool
  | endRgb feature => matchRgb control frame feature
  | endImage item => matchImage control frame item.feature item.imageMatch
  | reaction r image | popup r image =>
    if image then matchImage control frame r.feature r.imageMatch
    else matchRgb control frame r.feature

def firstMatch (control : RequestControl) (frame : CoDetectFrame) :
    List Probe → CoDetect (Option Probe)
  | [] => pure none
  | probe :: rest => do
    let found ← probe.matched control frame
    if found then pure (some probe) else firstMatch control frame rest

end Probe

/-- Where an iteration stands: before its frame, or with a frame that may be a loading one. -/
inductive Moment
  | opening (past : Past)
  | framed (past : Past) (time : Nat) (foreground : Bool) (frame : CoDetectFrame)

namespace CoDetectExecutor

variable (executor : CoDetectExecutor)

/-- A success, unless the last poll forbids it. -/
def succeed {α : Type} (control : RequestControl) (source : String) : CoDetect α := do
  control.poll
  .stop (.success ((terminalOf executor.terminals source).getD "") [])

/-- Step 2: only the first iteration may go on with the frame the session has. -/
def frameOf (control : RequestControl) (past : Past) : CoDetect CoDetectFrame :=
  if past.isEmpty && executor.definition.loop.skipFirstScreenshot then executor.recentFrame
  else executor.capture control

/-- Steps 1 to 5. -/
def openRule (control : RequestControl) (past : Past) : CoDetect Moment := do
  control.poll
  let time : Nat ← ask .monotonicMs
  let frame ← executor.frameOf control past
  let check := executor.definition.foregroundCheck
  if (check.androidOnly = false ∨ executor.isAndroid = true) ∧
      check.idleFeatureMs < time - past.featureLast control.start ∧
      check.intervalMs < time - past.foregroundLast control.start then do
    let matched : Bool ← invokeEffect control .foregroundCheck (ask .foregroundMatches)
    if matched = false then .stop (failure .foregroundPackageMismatch true .call .none)
    else pure (.framed past time true frame)
  else pure (.framed past time false frame)

/-- Step 15. The decision for an image is made at the clock of its moment; with
`atIterationTime` it would be made at the time of the iteration. -/
def reactionRule (atIterationTime : Bool) (control : RequestControl) (past : Past) (time : Nat)
    (reaction : CoDetectReaction) (image : Bool) :
    CoDetect (Option (String × CoDetectClick × Nat)) := do
  let now ← decisionTime image time
  let decided := if atIterationTime then time else now
  let duplicate := past.lastClick.any (fun (feature, click, at') =>
    feature = reaction.feature && click = reaction.click &&
      decided - at' ≤ executor.definition.loop.duplicateClickWindowMs)
  if reaction.click.matchOnly || duplicate then pure none
  else
    issueClick control reaction.click
    pure (some (reaction.feature, reaction.click, time))

/-- Step 16. -/
def popupRule (control : RequestControl) (reaction : CoDetectReaction) :
    CoDetect (Option (String × CoDetectClick × Nat)) := do
  if reaction.click.matchOnly then pure none
  else
    issueClick control reaction.click
    let now : Nat ← ask .monotonicMs
    pure (some (reaction.feature, reaction.click, now))

/-- Step 17. -/
def failureRule (control : RequestControl) (past : Past) : CoDetect Unit :=
  let tentative := executor.definition.loop.tentative
  if tentative.enabled = true ∧ tentative.afterFailedCycles < past.failures + 1 then
    executor.tentativeClick control
  else pure ()

/-- Steps 7 to 17. -/
def decideRule (atIterationTime : Bool) (control : RequestControl) (past : Past) (time : Nat)
    (foreground : Bool) (frame : CoDetectFrame) : CoDetect Moment := do
  match ← Probe.firstMatch control frame (executor.definition.priority executor.profile) with
  | some (.endRgb feature) => executor.succeed control feature
  | some (.endImage item) => executor.succeed control item.feature
  | some (.reaction r image) =>
    let click ← executor.reactionRule atIterationTime control past time r image
    pure (.opening (⟨time, foreground, .reaction, click⟩ :: past))
  | some (.popup r _) =>
    let click ← popupRule control r
    pure (.opening (⟨time, foreground, .popup, click⟩ :: past))
  | none =>
    executor.failureRule control past
    pure (.opening (⟨time, foreground, .nothing, none⟩ :: past))

/-- Step 6, and then the others. -/
def frameRule (atIterationTime : Bool) (control : RequestControl) (past : Past) (time : Nat)
    (foreground : Bool) (frame : CoDetectFrame) : CoDetect Moment := do
  let all ← allLoading control frame executor.definition.loadingAllRgb
  if all then
    let frame ← executor.capture control
    wait control (ask .screenshotIntervalMs)
    pure (.framed past time foreground frame)
  else executor.decideRule atIterationTime control past time foreground frame

def rule (atIterationTime : Bool) (control : RequestControl) : Moment → CoDetect Moment
  | .opening past => executor.openRule control past
  | .framed past time foreground frame =>
    executor.frameRule atIterationTime control past time foreground frame

/-- The rule from the start of a call, for so many turns. -/
def followRule (atIterationTime : Bool) (turns : Nat) : CoDetect Moment := do
  let accepts : Bool ← ask .accepts
  if accepts = false then .stop (failure .invalidRequest false .call .none)
  else
    let start : Nat ← ask .monotonicMs
    let control := executor.control start
    control.poll
    Interaction.repeated (executor.rule atIterationTime control) turns (.opening [])

end CoDetectExecutor

/-! The loops of the executor look for the probes in the order of the rule. -/

theorem firstMatch_append (control : RequestControl) (frame : CoDetectFrame)
    (first rest : List Probe) {β : Type} (g : Option Probe → CoDetect β) :
    (Probe.firstMatch control frame (first ++ rest) >>= g) =
      Probe.firstMatch control frame first >>= fun found =>
        match found with
        | some probe => g (some probe)
        | none => Probe.firstMatch control frame rest >>= g := by
  induction first with
  | nil => rfl
  | cons probe others ih =>
    simp only [List.cons_append, Probe.firstMatch, Interaction.bind_assoc]
    congr 1
    funext found
    cases found with
    | true => rfl
    | false => exact ih

namespace CoDetectExecutor

variable {executor : CoDetectExecutor} {control : RequestControl} {frame : CoDetectFrame}

theorem terminal_bind {source : String} (bound : (terminalOf executor.terminals source).isSome)
    {β : Type} (g : Unit → CoDetect β) :
    (executor.terminal control source >>= g) = executor.succeed control source := by
  obtain ⟨id, found⟩ := Option.isSome_iff_exists.mp bound
  simp only [CoDetectExecutor.terminal, CoDetectExecutor.succeed, Interaction.bind_assoc, found]
  rfl

theorem endsRgb_bind {features : List String}
    (bound : ∀ source ∈ features, (terminalOf executor.terminals source).isSome) {β : Type}
    {rest : CoDetect β} {g : Option Probe → CoDetect β}
    (ends : ∀ feature, g (some (.endRgb feature)) = executor.succeed control feature)
    (none' : g none = rest) :
    (executor.endsRgb control frame features >>= fun _ => rest) =
      Probe.firstMatch control frame (features.map .endRgb) >>= g := by
  induction features with
  | nil => exact none'.symm
  | cons feature others ih =>
    simp only [CoDetectExecutor.endsRgb, List.map_cons, Probe.firstMatch, Probe.matched,
      Interaction.bind_assoc]
    congr 1
    funext found
    cases found with
    | true =>
      refine Eq.trans ?_ (ends feature).symm
      exact terminal_bind (bound feature List.mem_cons_self) _
    | false => exact ih (fun source there => bound source (List.mem_cons_of_mem _ there))

theorem endsImage_bind {items : List CoDetectImageFeature}
    (bound : ∀ item ∈ items, (terminalOf executor.terminals item.feature).isSome) {β : Type}
    {rest : CoDetect β} {g : Option Probe → CoDetect β}
    (ends : ∀ item, g (some (.endImage item)) = executor.succeed control item.feature)
    (none' : g none = rest) :
    (executor.endsImage control frame items >>= fun _ => rest) =
      Probe.firstMatch control frame (items.map .endImage) >>= g := by
  induction items with
  | nil => exact none'.symm
  | cons item others ih =>
    simp only [CoDetectExecutor.endsImage, List.map_cons, Probe.firstMatch, Probe.matched,
      Interaction.bind_assoc]
    congr 1
    funext found
    cases found with
    | true =>
      refine Eq.trans ?_ (ends item).symm
      exact terminal_bind (bound item List.mem_cons_self) _
    | false => exact ih (fun other there => bound other (List.mem_cons_of_mem _ there))

/-- A class of reactions or popups. -/
theorem firstReaction_bind {image : Bool} {reactions : List CoDetectReaction}
    {probe : CoDetectReaction → Probe}
    (matched : ∀ r, (probe r).matched control frame = if image then
      matchImage control frame r.feature r.imageMatch else matchRgb control frame r.feature)
    {β : Type} {f : Option CoDetectReaction → CoDetect β} {g : Option Probe → CoDetect β}
    (found' : ∀ r, g (some (probe r)) = f (some r)) (none' : g none = f none) :
    (executor.firstReaction control frame image reactions >>= f) =
      Probe.firstMatch control frame
        ((reactions.filter (applicable · executor.profile)).map probe) >>= g := by
  induction reactions with
  | nil => exact none'.symm
  | cons reaction others ih =>
    unfold CoDetectExecutor.firstReaction
    by_cases applies : applicable reaction executor.profile = false
    · rw [if_pos applies, List.filter_cons_of_neg (by simp [applies])]
      exact ih
    · rw [if_neg applies, List.filter_cons_of_pos (by simpa using applies)]
      simp only [List.map_cons, Probe.firstMatch, matched]
      cases image <;> simp only [Bool.false_eq_true, if_true, if_false, Interaction.bind_assoc]
      all_goals
        congr 1
        funext found
        cases found with
        | true => exact (found' reaction).symm
        | false => exact ih

/-- What the executor does for what it found. -/
def settle (executor : CoDetectExecutor) (control : RequestControl) (s : State)
    (iterationTime : Nat) : Option Probe → CoDetect Phase
  | some (.endRgb feature) => executor.succeed control feature
  | some (.endImage item) => executor.succeed control item.feature
  | some (.reaction r image) => do
    let s ← executor.ordinary control s iterationTime r image
    pure (.head s)
  | some (.popup r _) => do
    let s ← popup control s r
    pure (.head s)
  | none => do
    let s ← executor.unmatched control s
    pure (.head s)

theorem loading_bind (s : State) (iterationTime : Nat) :
    executor.loading control s iterationTime frame =
      allLoading control frame executor.definition.loadingAllRgb >>= fun all =>
        if all then do
          let frame ← executor.capture control
          wait control (ask .screenshotIntervalMs)
          pure (.loading s iterationTime frame)
        else Probe.firstMatch control frame
          (executor.definition.priority executor.profile) >>=
            executor.settle control s iterationTime := by
  have present : executor.definition.loadingAllRgb.isEmpty = false := by
    cases features : executor.definition.loadingAllRgb with
    | nil => exact absurd features executor.definition.loading_present
    | cons feature others => rfl
  have endsRgb : ∀ source ∈ executor.definition.endsRgb,
      (terminalOf executor.terminals source).isSome :=
    fun source there => executor.bound source (List.mem_append_left _ there)
  have endsImage : ∀ item ∈ executor.definition.endsImage,
      (terminalOf executor.terminals item.feature).isSome :=
    fun item there => executor.bound item.feature
      (List.mem_append_right _ (List.mem_map_of_mem there))
  simp only [CoDetectExecutor.loading, present, Bool.false_eq_true, if_false]
  congr 1
  funext all
  cases all with
  | true => rfl
  | false =>
    simp only [Bool.false_eq_true, if_false, CoDetectDefinition.priority]
    rw [firstMatch_append]
    refine endsRgb_bind endsRgb (fun _ => rfl) ?_
    show (Probe.firstMatch control frame (_ ++ _) >>= _) = _
    rw [firstMatch_append]
    refine (endsImage_bind endsImage (fun _ => rfl) ?_).symm
    show (Probe.firstMatch control frame (_ ++ _) >>= _) = _
    rw [firstMatch_append, CoDetectExecutor.selectOrdinary, Interaction.bind_assoc]
    refine (firstReaction_bind (fun _ => rfl) (fun _ => rfl) ?_).symm
    show (Probe.firstMatch control frame (_ ++ _) >>= _) =
      (executor.firstReaction control frame false _ >>= _) >>= _
    rw [firstMatch_append, Interaction.bind_assoc]
    refine (firstReaction_bind (fun _ => rfl) (fun _ => rfl) ?_).symm
    show (Probe.firstMatch control frame (_ ++ _) >>= _) =
      (executor.firstReaction control frame true _ >>= _) >>= _
    rw [firstMatch_append, Interaction.bind_assoc]
    refine (firstReaction_bind (fun _ => rfl) (fun _ => rfl) ?_).symm
    show (Probe.firstMatch control frame (_ ++ _) >>= _) =
      (executor.firstReaction control frame true _ >>= _) >>= _
    rw [firstMatch_append, Interaction.bind_assoc]
    refine (firstReaction_bind (fun _ => rfl) (fun _ => rfl) ?_).symm
    show (Probe.firstMatch control frame (_ ++ _) >>= _) =
      executor.selectPopup control frame >>= _
    rw [firstMatch_append, CoDetectExecutor.selectPopup, Interaction.bind_assoc]
    refine (firstReaction_bind (fun _ => rfl) (fun _ => rfl) ?_).symm
    exact (firstReaction_bind (fun _ => rfl) (fun _ => rfl) rfl).symm

end CoDetectExecutor

/-! The variables of the executor hold what the rule reads off the past. -/

/-- The failures after an iteration, from those before it. -/
def Selected.failures (before : Nat) : Selected → Nat
  | .reaction => 0
  | .popup => before
  | .nothing => before + 1

section Past

variable (i : Iteration) (past : Past)

@[simp] theorem Past.featureLast_cons (start : Nat) :
    Past.featureLast start (i :: past) =
      if i.selected = .reaction then i.time else past.featureLast start := by
  by_cases reaction : i.selected = .reaction <;> simp [Past.featureLast, reaction]

@[simp] theorem Past.foregroundLast_cons (start : Nat) :
    Past.foregroundLast start (i :: past) =
      if i.foreground then i.time else past.foregroundLast start := by
  cases checked : i.foreground <;> simp [Past.foregroundLast, checked]

@[simp] theorem Past.failures_cons :
    Past.failures (i :: past) = i.selected.failures past.failures := by
  cases selected : i.selected <;> simp [Past.failures, Selected.failures, selected]

@[simp] theorem Past.lastClick_cons :
    Past.lastClick (i :: past) = i.click.or past.lastClick := by
  cases click : i.click <;> simp [Past.lastClick, click]

end Past

/-- The clock reading in an answer. -/
def clockOf : (q : CoDetectQuery) → q.Answer → Option Nat
  | .monotonicMs, now => some now
  | .poll, reading => some reading.monotonicMs
  | _, _ => none

/-- The clock does not go back. -/
def Ticks (now : Nat) (q : CoDetectQuery) (answer : q.Answer) (after : Nat) : Prop :=
  match clockOf q answer with
  | some reading => now ≤ reading ∧ after = reading
  | none => after = now

theorem Ticks.le {now after : Nat} {q : CoDetectQuery} {answer : q.Answer}
    (ticks : Ticks now q answer after) : now ≤ after := by
  unfold Ticks at ticks
  cases read : clockOf q answer with
  | none =>
    rw [read] at ticks
    exact ticks.ge
  | some reading =>
    rw [read] at ticks
    exact ticks.2 ▸ ticks.1

/-- A part of the executor that is a part of the rule too. -/
theorem alike_same {α : Type} (p : CoDetect α) (now : Nat) :
    Interaction.Alike Ticks (fun after a b => now ≤ after ∧ a = b) now p p :=
  Interaction.Alike.same (fun _ => Nat.le_refl _)
    (fun _ _ _ _ _ ticks later => Nat.le_trans ticks.le later) p now

theorem alike_clock (now : Nat) :
    Interaction.Alike Ticks (fun after (a b : Nat) => now ≤ a ∧ after = a ∧ a = b) now
      (ask .monotonicMs) (ask .monotonicMs) := by
  refine .ask ?_
  rintro reading after ⟨later, rfl⟩
  exact .done ⟨later, rfl, rfl⟩

namespace CoDetectExecutor

variable {executor : CoDetectExecutor} {control : RequestControl} {frame : CoDetectFrame}

/-- At the head of the loop. -/
structure Follows (executor : CoDetectExecutor) (start now : Nat) (s : State) (past : Past) :
    Prop where
  feature : s.featureLast = past.featureLast start
  foreground : s.foregroundLast = past.foregroundLast start
  failed : s.failedCycles = past.failures
  click : past.lastClick = s.lastClick.map (fun c => (c.1, c.2, s.lastClickTime))
  skip : s.skipFirst = (past.isEmpty && executor.definition.loop.skipFirstScreenshot)
  feature_le : s.featureLast ≤ now
  foreground_le : s.foregroundLast ≤ now
  click_le : s.lastClick.isSome → s.lastClickTime ≤ now

/-- In the loading loop, at a clock that has not passed `now`. -/
structure Loaded (start now : Nat) (s : State) (past : Past) (time : Nat) (checked : Bool) :
    Prop where
  feature : s.featureLast = past.featureLast start
  foreground : s.foregroundLast = if checked then time else past.foregroundLast start
  failed : s.failedCycles = past.failures
  click : past.lastClick = s.lastClick.map (fun c => (c.1, c.2, s.lastClickTime))
  skip : s.skipFirst = false
  feature_le : s.featureLast ≤ time
  foreground_le : s.foregroundLast ≤ time
  click_le : s.lastClick.isSome → s.lastClickTime ≤ time
  time_le : time ≤ now

theorem Loaded.later {start now after : Nat} {s : State} {past : Past} {time : Nat}
    {checked : Bool} (loaded : Loaded start now s past time checked) (later : now ≤ after) :
    Loaded start after s past time checked :=
  { loaded with time_le := Nat.le_trans loaded.time_le later }

def Tracks (executor : CoDetectExecutor) (start now : Nat) : Phase → Moment → Prop
  | .head s, .opening past => Follows executor start now s past
  | .loading s time frame, .framed past time' checked frame' =>
    time = time' ∧ frame = frame' ∧ Loaded start now s past time checked
  | _, _ => False

theorem firstFrame_eq {start now : Nat} {s : State} {past : Past}
    (follows : Follows executor start now s past) :
    executor.firstFrame control s = executor.frameOf control past := by
  unfold CoDetectExecutor.firstFrame CoDetectExecutor.frameOf
  rw [follows.skip]

theorem head_tracks {now : Nat} {s : State} {past : Past}
    (follows : Follows executor control.start now s past) :
    Interaction.Alike Ticks (executor.Tracks control.start) now
      (executor.head control s) (executor.openRule control past) := by
  unfold CoDetectExecutor.head CoDetectExecutor.openRule
  refine (alike_same _ now).seq ?_
  rintro polled _ _ ⟨afterPoll, -⟩
  refine (alike_clock polled).seq ?_
  rintro time _ _ ⟨afterClock, rfl, rfl⟩
  rw [firstFrame_eq follows]
  refine (alike_same _ time).seq ?_
  rintro framed frame _ ⟨afterFrame, rfl⟩
  have feature_le := follows.feature_le
  have foreground_le := follows.foreground_le
  have click_le := follows.click_le
  have loaded : Loaded control.start framed { s with skipFirst := false } past time false :=
    { feature := follows.feature
      foreground := follows.foreground
      failed := follows.failed
      click := follows.click
      skip := rfl
      feature_le := by show s.featureLast ≤ time; omega
      foreground_le := by show s.foregroundLast ≤ time; omega
      click_le := fun some => by
        have := click_le some
        show s.lastClickTime ≤ time
        omega
      time_le := afterFrame }
  rw [if_neg (by simp only; omega)]
  unfold CoDetectExecutor.foreground
  rw [← follows.feature, ← follows.foreground]
  by_cases gate : (executor.definition.foregroundCheck.androidOnly = false ∨
      executor.isAndroid = true) ∧
      executor.definition.foregroundCheck.idleFeatureMs < time - s.featureLast ∧
      executor.definition.foregroundCheck.intervalMs < time - s.foregroundLast
  · simp only [if_pos gate, Interaction.bind_assoc]
    refine (alike_same _ framed).seq ?_
    rintro checked matched _ ⟨afterCheck, rfl⟩
    cases matched with
    | false => exact .stop
    | true =>
      exact .done ⟨rfl, rfl, { loaded.later afterCheck with
        foreground := rfl
        foreground_le := Nat.le_refl time }⟩
  · simp only [if_neg gate]
    exact .done ⟨rfl, rfl, loaded⟩

/-- What an iteration leaves behind keeps the variables and the past in step. -/
theorem Loaded.finish {start now : Nat} {s : State} {past : Past} {time : Nat} {checked : Bool}
    (loaded : Loaded start now s past time checked) {selected : Selected}
    {click : Option (String × CoDetectClick × Nat)} {s' : State}
    (feature : s'.featureLast = if selected = .reaction then time else s.featureLast)
    (foreground : s'.foregroundLast = s.foregroundLast)
    (failed : s'.failedCycles = selected.failures s.failedCycles)
    (clicked : click.or past.lastClick =
      s'.lastClick.map (fun c => (c.1, c.2, s'.lastClickTime)))
    (skip : s'.skipFirst = false) (click_le : s'.lastClick.isSome → s'.lastClickTime ≤ now) :
    Follows executor start now s' (⟨time, checked, selected, click⟩ :: past) where
  feature := by
    rw [feature, loaded.feature]
    simp
  foreground := by
    rw [foreground, loaded.foreground]
    simp
  failed := by
    rw [failed, loaded.failed]
    simp
  click := by
    rw [← clicked]
    simp
  skip := skip
  feature_le := by
    have := loaded.feature_le
    have := loaded.time_le
    rw [feature]
    split <;> omega
  foreground_le := by
    have := loaded.foreground_le
    have := loaded.time_le
    rw [foreground]
    omega
  click_le := click_le

theorem succeed_alike {α β : Type} {post : Nat → α → β → Prop} (source : String) (now : Nat) :
    Interaction.Alike Ticks post now (executor.succeed control source)
      (executor.succeed control source) := by
  unfold CoDetectExecutor.succeed
  refine (alike_same _ now).seq ?_
  intro _ _ _ _
  exact .stop

/-- The duplicate of a click, as the executor decides it and as the rule does. -/
theorem duplicate_iff {start now : Nat} {s : State} {past : Past} {time : Nat} {checked : Bool}
    (loaded : Loaded start now s past time checked) (reaction : CoDetectReaction)
    (decided : Nat) :
    (decide (s.lastClick = some (reaction.feature, reaction.click)) && decide
        (decided - s.lastClickTime ≤ executor.definition.loop.duplicateClickWindowMs)) =
      past.lastClick.any (fun (feature, click, at') =>
        feature = reaction.feature && click = reaction.click &&
          decided - at' ≤ executor.definition.loop.duplicateClickWindowMs) := by
  rw [loaded.click]
  cases last : s.lastClick with
  | none => rfl
  | some clicked =>
    obtain ⟨feature, click⟩ := clicked
    simp

theorem alike_decision {now time : Nat} (before : time ≤ now) (image : Bool) :
    Interaction.Alike Ticks (fun after (a b : Nat) => now ≤ after ∧ time ≤ a ∧ a = b) now
      (decisionTime image time) (decisionTime image time) := by
  unfold decisionTime
  cases image with
  | false => exact .done ⟨Nat.le_refl now, Nat.le_refl time, rfl⟩
  | true =>
    refine (alike_clock now).weaken ?_
    rintro read a b ⟨later, rfl, rfl⟩
    exact ⟨later, Nat.le_trans before later, rfl⟩

theorem reaction_tracks {now : Nat} {s : State} {past : Past} {time : Nat} {checked : Bool}
    (loaded : Loaded control.start now s past time checked) (reaction : CoDetectReaction)
    (image : Bool) :
    Interaction.Alike Ticks (fun after s' click => Follows executor control.start after s'
        (⟨time, checked, .reaction, click⟩ :: past)) now
      (executor.ordinary control s time reaction image)
      (executor.reactionRule false control past time reaction image) := by
  have feature_le := loaded.feature_le
  have time_le := loaded.time_le
  have click_le := loaded.click_le
  unfold CoDetectExecutor.ordinary CoDetectExecutor.reactionRule
  rw [if_neg (by omega)]
  refine (alike_decision loaded.time_le image).seq ?_
  rintro decidedAt decided _ ⟨later, notBefore, rfl⟩
  have dup := @duplicate_iff executor control.start now s past time checked loaded reaction decided
  have kept : ¬ (decide (s.lastClick = some (reaction.feature, reaction.click)) = true ∧
      decided < s.lastClickTime) := by
    rintro ⟨same, less⟩
    have := click_le (by rw [of_decide_eq_true same]; rfl)
    omega
  simp only [if_neg kept, dup, Bool.false_eq_true, if_false]
  generalize past.lastClick.any _ = duplicate
  have nothing : Follows executor control.start decidedAt
      { s with featureLast := time, failedCycles := 0 }
      (⟨time, checked, .reaction, none⟩ :: past) :=
    (loaded.later later).finish rfl rfl rfl loaded.click loaded.skip (fun some => by
      have := click_le some
      show s.lastClickTime ≤ decidedAt
      omega)
  by_cases clicks : reaction.click.matchOnly = false ∧ duplicate = false
  · rw [if_pos clicks, if_neg (by simp [clicks.1, clicks.2])]
    refine (alike_same _ decidedAt).seq ?_
    rintro clicked _ _ ⟨afterClick, -⟩
    refine .done ((loaded.later (Nat.le_trans later afterClick)).finish rfl rfl rfl rfl
      loaded.skip (fun _ => ?_))
    show time ≤ clicked
    omega
  · rw [if_neg clicks, if_pos (by
      cases only : reaction.click.matchOnly <;> cases duplicate <;> simp_all)]
    exact .done nothing

theorem popup_tracks {now : Nat} {s : State} {past : Past} {time : Nat} {checked : Bool}
    (loaded : Loaded control.start now s past time checked) (reaction : CoDetectReaction) :
    Interaction.Alike Ticks (fun after s' click => Follows executor control.start after s'
        (⟨time, checked, .popup, click⟩ :: past)) now
      (popup control s reaction) (popupRule control reaction) := by
  unfold popup popupRule
  by_cases only : reaction.click.matchOnly = true
  · rw [if_pos only, if_pos only]
    refine .done (loaded.finish rfl rfl rfl loaded.click loaded.skip (fun some => ?_))
    have := loaded.click_le some
    have := loaded.time_le
    omega
  · rw [if_neg only, if_neg only]
    refine (alike_same _ now).seq ?_
    rintro clicked _ _ ⟨afterClick, -⟩
    refine (alike_clock clicked).seq ?_
    rintro read _ _ ⟨afterRead, rfl, rfl⟩
    exact .done ((loaded.later (Nat.le_trans afterClick afterRead)).finish rfl rfl rfl rfl
      loaded.skip (fun _ => Nat.le_refl read))

theorem unmatched_tracks {now : Nat} {s : State} {past : Past} {time : Nat} {checked : Bool}
    (loaded : Loaded control.start now s past time checked) :
    Interaction.Alike Ticks (fun after s' _ => Follows executor control.start after s'
        (⟨time, checked, .nothing, none⟩ :: past)) now
      (executor.unmatched control s) (executor.failureRule control past) := by
  unfold CoDetectExecutor.unmatched CoDetectExecutor.failureRule
  have left : ∀ {after : Nat}, now ≤ after → Follows executor control.start after
      { s with failedCycles := s.failedCycles + 1 } (⟨time, checked, .nothing, none⟩ :: past) := by
    intro after later
    refine (loaded.later later).finish rfl rfl rfl loaded.click loaded.skip (fun some => ?_)
    have := loaded.click_le some
    have := loaded.time_le
    show s.lastClickTime ≤ after
    omega
  rw [← loaded.failed]
  by_cases due : executor.definition.loop.tentative.enabled = true ∧
      executor.definition.loop.tentative.afterFailedCycles < s.failedCycles + 1
  · simp only [if_pos due]
    rw [← Interaction.bind_pure (executor.tentativeClick control), Interaction.bind_assoc]
    refine (alike_same _ now).seq ?_
    rintro after _ _ ⟨later, -⟩
    exact .done (left later)
  · simp only [if_neg due]
    exact .done (left (Nat.le_refl now))

/-- What the executor does for what it found is what the rule does. -/
theorem settle_tracks {now : Nat} {s : State} {past : Past} {time : Nat} {checked : Bool}
    (loaded : Loaded control.start now s past time checked) (found : Option Probe) :
    Interaction.Alike Ticks (executor.Tracks control.start) now
      (executor.settle control s time found)
      (match (motive := Option Probe → CoDetect Moment) found with
        | some (.endRgb feature) => executor.succeed control feature
        | some (.endImage item) => executor.succeed control item.feature
        | some (.reaction r image) =>
          executor.reactionRule false control past time r image >>= fun click =>
            pure (.opening (⟨time, checked, .reaction, click⟩ :: past))
        | some (.popup r _) =>
          popupRule control r >>= fun click =>
            pure (.opening (⟨time, checked, .popup, click⟩ :: past))
        | none =>
          executor.failureRule control past >>= fun _ =>
            pure (.opening (⟨time, checked, .nothing, none⟩ :: past))) := by
  match found with
  | some (.endRgb feature) => exact succeed_alike feature now
  | some (.endImage item) => exact succeed_alike item.feature now
  | some (.reaction r image) =>
    exact (reaction_tracks loaded r image).seq (fun _ _ _ follows => .done follows)
  | some (.popup r _) =>
    exact (popup_tracks loaded r).seq (fun _ _ _ follows => .done follows)
  | none => exact (unmatched_tracks loaded).seq (fun _ _ _ follows => .done follows)

theorem loading_tracks {now : Nat} {s : State} {past : Past} {time : Nat} {checked : Bool}
    (loaded : Loaded control.start now s past time checked) :
    Interaction.Alike Ticks (executor.Tracks control.start) now
      (executor.loading control s time frame)
      (executor.frameRule false control past time checked frame) := by
  rw [loading_bind]
  unfold CoDetectExecutor.frameRule
  refine (alike_same _ now).seq ?_
  rintro looked all _ ⟨afterLook, rfl⟩
  cases all with
  | true =>
    refine (alike_same _ looked).seq ?_
    rintro captured next _ ⟨afterCapture, rfl⟩
    refine (alike_same _ captured).seq ?_
    rintro waited _ _ ⟨afterWait, -⟩
    exact .done ⟨rfl, rfl, loaded.later (by omega)⟩
  | false =>
    refine (alike_same _ looked).seq ?_
    rintro matched found _ ⟨afterMatch, rfl⟩
    exact settle_tracks (loaded.later (Nat.le_trans afterLook afterMatch)) found

theorem body_tracks (now : Nat) (phase : Phase) (moment : Moment)
    (tracks : executor.Tracks control.start now phase moment) :
    Interaction.Alike Ticks (executor.Tracks control.start) now
      (executor.body control phase) (executor.rule false control moment) := by
  match phase, moment with
  | .head s, .opening past => exact head_tracks tracks
  | .loading s time frame, .framed past time' checked frame' =>
    obtain ⟨rfl, rfl, loaded⟩ := tracks
    exact loading_tracks loaded
  | .head s, .framed past time' checked frame' => exact tracks.elim
  | .loading s time frame, .opening past => exact tracks.elim

/-- The executor and the rule ask the same, for any number of turns. -/
theorem execute_alike (executor : CoDetectExecutor) (turns now : Nat) :
    Interaction.Alike Ticks (fun _ _ _ => True) now (executor.executeChecked turns)
      (executor.followRule false turns) := by
  unfold CoDetectExecutor.executeChecked CoDetectExecutor.followRule
  refine (alike_same _ now).seq ?_
  rintro asked accepts _ ⟨-, rfl⟩
  cases accepts with
  | false => exact .stop
  | true =>
    refine (alike_clock asked).seq ?_
    rintro start _ _ ⟨-, rfl, rfl⟩
    refine (alike_same _ start).seq ?_
    rintro polled _ _ ⟨later, -⟩
    have first : Follows executor start polled
        ⟨start, start, 0, none, 0, executor.definition.loop.skipFirstScreenshot⟩ [] :=
      ⟨rfl, rfl, rfl, rfl, rfl, later, later, nofun⟩
    have tracks : executor.Tracks (executor.control start).start polled
      (.head ⟨start, start, 0, none, 0, executor.definition.loop.skipFirstScreenshot⟩)
      (.opening []) := first
    exact (Interaction.Alike.repeated body_tracks turns tracks).weaken (fun _ _ _ _ => trivial)

/-! No success once a poll has forbidden it. -/

/-- The answer does not make a poll forbid anything. -/
def Proceeds (control : RequestControl) : (q : CoDetectQuery) → q.Answer → Prop
  | .poll, reading => pollState control.start control.timeout reading = .proceed
  | _, _ => True

def Fails (outcome : ProcedureExecutorOutcome) : Prop := ∃ error, outcome = .failure error

/-- After a poll that forbids it, the part ends with a failure. -/
abbrev Obeys (control : RequestControl) {α : Type} (p : CoDetect α) : Prop :=
  p.Heeds (Proceeds control) Fails

theorem poll_obeys : Obeys control control.poll := by
  intro reading
  by_cases proceeds : pollState control.start control.timeout reading = .proceed
  · refine ⟨?_, fun forbidden => absurd proceeds forbidden⟩
    show Interaction.Heeds _ _ (if _ then _ else _)
    rw [if_pos proceeds]
    trivial
  · have failed : (if pollState control.start control.timeout reading = .proceed then
        (pure () : CoDetect Unit) else fail (controlError
          (pollState control.start control.timeout reading))) =
        fail (controlError (pollState control.start control.timeout reading)) := if_neg proceeds
    refine ⟨?_, fun _ => ?_⟩
    · show Interaction.Heeds _ _ (if _ then _ else _)
      rw [failed]
      trivial
    · show Interaction.Doomed _ (if _ then _ else _)
      rw [failed]
      cases pollState control.start control.timeout reading <;> exact ⟨_, rfl⟩

theorem ask_obeys (q : CoDetectQuery) (other : q ≠ .poll) : Obeys control (ask q) := by
  intro answer
  refine ⟨trivial, fun forbidden => ?_⟩
  cases q with
  | poll => exact absurd rfl other
  | _ => exact absurd trivial forbidden

theorem invoke_obeys {α : Type} (effect : ProcedureEffect) {operation : CoDetect (Operated α)}
    (obeys : Obeys control operation) : Obeys control (invokeEffect control effect operation) := by
  have reported : ∀ stage, Obeys control (ask (.report effect stage)) :=
    fun stage => ask_obeys (.report effect stage) (fun same => nomatch same)
  unfold invokeEffect
  refine poll_obeys.seq (fun _ => (reported .began).seq (fun began => ?_))
  cases began with
  | false => trivial
  | true =>
    refine obeys.seq (fun result => (reported _).seq (fun ended => ?_))
    cases ended with
    | false => trivial
    | true =>
      refine poll_obeys.seq (fun _ => ?_)
      cases returned result <;> trivial

theorem matched_obeys (probe : Probe) : Obeys control (probe.matched control frame) := by
  have rgb : ∀ feature, Obeys control (matchRgb control frame feature) :=
    fun feature => invoke_obeys .vision (ask_obeys (.matchRgb frame feature) nofun)
  have image : ∀ feature imageMatch, Obeys control (matchImage control frame feature imageMatch) :=
    fun feature imageMatch =>
      invoke_obeys .vision (ask_obeys (.matchImage frame feature imageMatch) nofun)
  cases probe with
  | endRgb feature => exact rgb feature
  | endImage item => exact image item.feature item.imageMatch
  | reaction r ofImage =>
    unfold Probe.matched
    cases ofImage
    · exact rgb r.feature
    · exact image r.feature r.imageMatch
  | popup r ofImage =>
    unfold Probe.matched
    cases ofImage
    · exact rgb r.feature
    · exact image r.feature r.imageMatch

theorem firstMatch_obeys (probes : List Probe) :
    Obeys control (Probe.firstMatch control frame probes) := by
  induction probes with
  | nil => trivial
  | cons probe rest ih =>
    refine (matched_obeys probe).seq (fun found => ?_)
    cases found
    · exact ih
    · trivial

theorem allLoading_obeys (features : List String) :
    Obeys control (allLoading control frame features) := by
  induction features with
  | nil => trivial
  | cons feature rest ih =>
    refine (matched_obeys (.endRgb feature)).seq (fun found => ?_)
    cases found
    · trivial
    · exact ih

theorem capture_obeys : Obeys control (executor.capture control) := by
  refine (invoke_obeys .capture (ask_obeys .capture nofun)).seq (fun captured => ?_)
  cases captured with
  | none => trivial
  | some frame =>
    simp only
    split
    · trivial
    · exact (ask_obeys (.publishLatestFrame frame) nofun).seq (fun _ => trivial)

theorem wait_obeys {milliseconds : CoDetect Nat} (obeys : Obeys control milliseconds) :
    Obeys control (wait control milliseconds) :=
  invoke_obeys .wait (obeys.seq (fun amount => ask_obeys (.wait amount) nofun))

theorem click_obeys (click : CoDetectClick) : Obeys control (issueClick control click) :=
  invoke_obeys .input (ask_obeys (.click click) nofun)

theorem succeed_obeys {α : Type} (source : String) :
    Obeys control (executor.succeed control source : CoDetect α) :=
  poll_obeys.seq (fun _ => trivial)

theorem head_obeys (s : State) : Obeys control (executor.head control s) := by
  refine poll_obeys.seq (fun _ => (ask_obeys .monotonicMs nofun).seq (fun time => ?_))
  have framed : Obeys control (executor.firstFrame control s) := by
    unfold CoDetectExecutor.firstFrame
    split
    · refine (ask_obeys .latestFrame nofun).seq (fun latest => ?_)
      cases latest with
      | none => trivial
      | some frame =>
        simp only
        split <;> trivial
    · exact capture_obeys
  refine framed.seq (fun frame => ?_)
  simp only
  split
  · trivial
  · have checked : ∀ s, Obeys control (executor.foreground control s time) := by
      intro s
      unfold CoDetectExecutor.foreground
      simp only
      split
      · refine (invoke_obeys .foregroundCheck (ask_obeys .foregroundMatches nofun)).seq (fun matched => ?_)
        cases matched <;> trivial
      · trivial
    exact (checked _).seq (fun _ => trivial)

theorem settle_obeys (s : State) (time : Nat) (found : Option Probe) :
    Obeys control (executor.settle control s time found) := by
  match found with
  | some (.endRgb feature) => exact succeed_obeys feature
  | some (.endImage item) => exact succeed_obeys item.feature
  | some (.reaction r image) =>
    have ordinary : Obeys control (executor.ordinary control s time r image) := by
      unfold CoDetectExecutor.ordinary
      split
      · trivial
      · have decision : Obeys control (decisionTime image time) := by
          unfold decisionTime
          cases image
          · trivial
          · exact ask_obeys .monotonicMs nofun
        refine decision.seq (fun decided => ?_)
        simp only
        split
        · trivial
        · split
          · exact (click_obeys r.click).seq (fun _ => trivial)
          · trivial
    exact ordinary.seq (fun _ => trivial)
  | some (.popup r _) =>
    have popped : Obeys control (popup control s r) := by
      unfold popup
      split
      · trivial
      · exact (click_obeys r.click).seq
          (fun _ => (ask_obeys .monotonicMs nofun).seq (fun _ => trivial))
    exact popped.seq (fun _ => trivial)
  | none =>
    have tentative : Obeys control (executor.tentativeClick control) := by
      refine (click_obeys _).seq (fun _ => (ask_obeys .screenshotIntervalMs nofun).seq (fun interval => ?_))
      simp only
      split
      · trivial
      · exact wait_obeys trivial
    have unmatched : Obeys control (executor.unmatched control s) := by
      unfold CoDetectExecutor.unmatched
      simp only
      split
      · exact tentative.seq (fun _ => trivial)
      · trivial
    exact unmatched.seq (fun _ => trivial)

theorem body_obeys (phase : Phase) : Obeys control (executor.body control phase) := by
  cases phase with
  | head s => exact head_obeys s
  | loading s time frame =>
    show Obeys control (executor.loading control s time frame)
    rw [loading_bind]
    refine (allLoading_obeys _).seq (fun all => ?_)
    cases all with
    | false => exact (firstMatch_obeys _).seq (fun found => settle_obeys s time found)
    | true =>
      exact capture_obeys.seq (fun _ => (wait_obeys (ask_obeys .screenshotIntervalMs nofun)).seq (fun _ => trivial))

end CoDetectExecutor

/-! The environment of a call, and the run of a call in it. -/

/-- The last clock reading. -/
def clockAfter (past : List (Interaction.Event CoDetectQuery CoDetectQuery.Answer)) : Nat :=
  ((past.filterMap (fun event => clockOf event.1 event.2)).getLast?).getD 0

/-- Answers that depend in any way on what came before; the clock does not go back. -/
structure CoDetectEnvironment where
  answer : List (Interaction.Event CoDetectQuery CoDetectQuery.Answer) →
    (q : CoDetectQuery) → q.Answer
  ordered : ∀ past q reading, clockOf q (answer past q) = some reading →
    clockAfter past ≤ reading

namespace CoDetectEnvironment

variable (env : CoDetectEnvironment)

def run {α : Type} (p : CoDetect α) :
    List (Interaction.Event CoDetectQuery CoDetectQuery.Answer) ×
      Except ProcedureExecutorOutcome α :=
  Interaction.run env.answer [] p

/-- The reading that `execute_checked` starts its clocks with. -/
def startTime : Nat := env.answer [⟨.accepts, env.answer [] .accepts⟩] .monotonicMs

theorem keeps (now : Nat) (past : List (Interaction.Event CoDetectQuery CoDetectQuery.Answer))
    (q : CoDetectQuery) (matching : now = clockAfter past) :
    ∃ after, Ticks now q (env.answer past q) after ∧
      after = clockAfter (past ++ [⟨q, env.answer past q⟩]) := by
  unfold Ticks
  have ordered := env.ordered past q
  cases read : clockOf q (env.answer past q) with
  | none => exact ⟨now, rfl, by simp [clockAfter, read, matching]⟩
  | some reading =>
    exact ⟨reading, ⟨matching ▸ ordered reading read, rfl⟩, by simp [clockAfter, read]⟩

end CoDetectEnvironment

/-- The outcome of a call, if it is over. -/
def outcomeOf {α : Type} : Except ProcedureExecutorOutcome α → Option ProcedureExecutorOutcome
  | .error outcome => some outcome
  | .ok _ => none

namespace CoDetectExecutor

variable (executor : CoDetectExecutor)

/-- `execute_checked` from the first poll on. -/
def afterStart (turns start : Nat) : CoDetect Phase := do
  let control := executor.control start
  control.poll
  Interaction.repeated (executor.body control) turns
    (.head ⟨start, start, 0, none, 0, executor.definition.loop.skipFirstScreenshot⟩)

theorem afterStart_obeys {executor : CoDetectExecutor} (turns start : Nat) :
    Obeys (executor.control start) (executor.afterStart turns start) :=
  poll_obeys.seq (fun _ => Interaction.Heeds.repeated body_obeys turns _)

variable {turns : Nat} {answer : List (Interaction.Event CoDetectQuery CoDetectQuery.Answer) →
  (q : CoDetectQuery) → q.Answer}

theorem run_accepts (accepts : Bool) (asked : answer [] .accepts = accepts) :
    Interaction.run answer [] (executor.executeChecked turns) =
      Interaction.run answer [⟨.accepts, accepts⟩]
        (if accepts = false then .stop (failure .invalidRequest false .call .none)
          else ask .monotonicMs >>= executor.afterStart turns) := by
  subst asked
  rfl

theorem refuses (accepts : answer [] .accepts = false) :
    (Interaction.run answer [] (executor.executeChecked turns)).2 =
      .error (failure .invalidRequest false .call .none) := by
  rw [executor.run_accepts false accepts]
  rfl

theorem starts (accepts : answer [] .accepts = true) :
    Interaction.run answer [] (executor.executeChecked turns) =
      Interaction.run answer [⟨.accepts, true⟩, ⟨.monotonicMs,
        answer [⟨.accepts, true⟩] .monotonicMs⟩]
        (executor.afterStart turns (answer [⟨.accepts, true⟩] .monotonicMs)) := by
  rw [executor.run_accepts true accepts]
  rfl

end CoDetectExecutor

def sampleExecutor : CoDetectExecutor where
  definition := {
    endsRgb := []
    endsImage := []
    reactionsRgb := []
    reactionsRgbProfiled := []
    reactionsImage := [⟨"react", ⟨10, 20⟩, [], ⟨none, none⟩⟩]
    reactionsImageProfiled := []
    popupsRgb := []
    popupsProfiledImage := []
    loadingAllRgb := ["loading"]
    foregroundCheck := ⟨true, 1000000, 1000000⟩
    loop := ⟨false, 1000000, 150, ⟨false, 0, ⟨0, 0⟩, 0⟩⟩
    loading_present := by decide }
  terminals := []
  deviceId := "device"
  profile := .cn
  sessionEpoch := 1
  isAndroid := true
  bound := by decide

/-- Every reading is ten milliseconds after the one before; every image is found. -/
def sampleAnswer (past : List (Interaction.Event CoDetectQuery CoDetectQuery.Answer)) :
    (q : CoDetectQuery) → q.Answer
  | .accepts => true
  | .poll => (⟨false, clockAfter past + 10, true, false⟩ : PollReading)
  | .monotonicMs => clockAfter past + 10
  | .screenshotIntervalMs => (10 : Nat)
  | .latestFrame => (none : Option CoDetectFrame)
  | .publishLatestFrame _ => ()
  | .report _ _ => true
  | .capture => (.value (some ⟨"device", .cn, 1, []⟩) : Operated (Option CoDetectFrame))
  | .matchRgb _ _ => (.value false : Operated Bool)
  | .matchImage _ _ _ => (.value true : Operated Bool)
  | .foregroundMatches => (.value true : Operated Bool)
  | .click _ => (.value () : Operated Unit)
  | .wait _ => (.value () : Operated Unit)

def sampleEnvironment : CoDetectEnvironment where
  answer := sampleAnswer
  ordered := by
    intro past q reading read
    cases q <;> cases read <;> exact Nat.le_add_right _ _

/-- The clicks that were issued. -/
def clicksOf (events : List (Interaction.Event CoDetectQuery CoDetectQuery.Answer)) :
    List CoDetectClick :=
  events.filterMap (fun event => match event.1 with
    | .click click => some click
    | _ => none)

end Baas.Procedure
