import Mathlib.Data.List.Basic
import Baas.Procedure.Host

/-! What the callback of `ProcedureHost` answers, whatever the executor and its threads do. -/
namespace Baas.Procedure

/-! The trace holds the last accepted report of each effect. -/

/-- The stages of the reports about an effect that were answered with `true`. -/
def acceptedOf (effect : ProcedureEffect) (answered : List (EffectReport × Bool)) :
    List ProcedureEffectStage :=
  (answered.filter fun a => a.2 && a.1.effect = some effect).map fun a => a.1.stage

theorem acceptedOf_refused (effect : ProcedureEffect) (answered : List (EffectReport × Bool))
    (report : EffectReport) :
    acceptedOf effect (answered ++ [(report, false)]) = acceptedOf effect answered := by
  simp [acceptedOf]

theorem acceptedOf_accepted (effect : ProcedureEffect) (answered : List (EffectReport × Bool))
    {report : EffectReport} (about : report.effect = some effect) :
    acceptedOf effect (answered ++ [(report, true)]) =
      acceptedOf effect answered ++ [report.stage] := by
  simp [acceptedOf, about]

theorem acceptedOf_other (answered : List (EffectReport × Bool)) {report : EffectReport}
    {effect other : ProcedureEffect} (about : report.effect = some effect)
    (differs : other ≠ effect) :
    acceptedOf other (answered ++ [(report, true)]) = acceptedOf other answered := by
  simp [acceptedOf, about, differs.symm]

def EffectState.after : Option ProcedureEffectStage → EffectState
  | some .began => .began
  | some .committed => .committed
  | some .unknown => .unknown
  | _ => .notStarted

/-- The stage a call of `report` still has to carry out is the reported one. -/
def ReportCall.Of (report : EffectReport) : ReportCall → Prop
  | loading effect => report.effect = some effect ∧ report.stage = .began
  | looping effect _ => report.effect = some effect ∧ report.stage = .began
  | exchanging effect desired =>
    report.effect = some effect ∧ (report.stage = .committed ∨ report.stage = .unknown) ∧
      desired = .after (some report.stage)
  | refusing => True

theorem enter_of (trace : BoundedEffectTrace) (report : EffectReport) :
    (trace.enter report).Of report := by
  unfold BoundedEffectTrace.enter
  cases about : report.effect with
  | none => trivial
  | some effect =>
    by_cases declared : trace.declared effect = true
    · simp only [if_pos declared]
      cases stage : report.stage with
      | began => exact ⟨about, stage⟩
      | committed => exact ⟨about, .inl stage, by rw [stage]; rfl⟩
      | unknown => exact ⟨about, .inr stage, by rw [stage]; rfl⟩
      | other => trivial
    · simp only [if_neg declared]
      trivial

/-- What one access does: nothing yet, an accepted report, or a refused one. -/
inductive Advanced (trace : BoundedEffectTrace) (report : EffectReport) :
    BoundedEffectTrace × (ReportCall ⊕ Bool) → Prop
  | going {next : ReportCall} : next.Of report → Advanced trace report (trace, .inl next)
  | accepted {effect : ProcedureEffect} : report.effect = some effect →
      report.stage ≠ .other → trace.states effect ≠ .unknown →
      (report.stage ≠ .began → trace.states effect = .began) →
      Advanced trace report (trace.set effect (.after (some report.stage)), .inr true)
  | refused : Advanced trace report ({ trace with invalid := true }, .inr false)

theorem ReportCall.advanced {report : EffectReport} {call : ReportCall} (of : call.Of report)
    (spurious : Bool) (trace : BoundedEffectTrace) :
    Advanced trace report (call.advance spurious trace) := by
  cases call with
  | loading effect => exact .going of
  | looping effect current =>
    obtain ⟨about, began⟩ := of
    simp only [ReportCall.advance]
    by_cases ready : current = .notStarted ∨ current = .committed
    · rw [if_pos ready]
      by_cases same : trace.states effect = current ∧ spurious = false
      · rw [if_pos same]
        have known : trace.states effect ≠ .unknown := by
          rw [same.1]
          obtain ready | ready := ready <;> rw [ready] <;> exact nofun
        have set : Advanced trace report
            (trace.set effect (.after (some report.stage)), .inr true) :=
          .accepted about (by rw [began]; exact nofun) known (fun not => absurd began not)
        rwa [began] at set
      · rw [if_neg same]
        exact .going ⟨about, began⟩
    · rw [if_neg ready]
      exact .going trivial
  | exchanging effect desired =>
    obtain ⟨about, stage, wanted⟩ := of
    simp only [ReportCall.advance]
    by_cases began : trace.states effect = .began
    · rw [if_pos began, wanted]
      refine .accepted about ?_ (by rw [began]; exact nofun) (fun _ => began)
      obtain stage | stage := stage <;> rw [stage] <;> exact nofun
    · rw [if_neg began]
      exact .going trivial
  | refusing => exact .refused

structure Reporting.Faithful (r : Reporting) : Prop where
  states : ∀ effect, r.trace.states effect = .after (acceptedOf effect r.answered).getLast?
  stages : ∀ effect, .other ∉ acceptedOf effect r.answered
  begun : ∀ effect, acceptedOf effect r.answered ≠ [] → .began ∈ acceptedOf effect r.answered
  final : ∀ effect, .unknown ∈ acceptedOf effect r.answered →
    (acceptedOf effect r.answered).getLast? = some .unknown
  refused : r.trace.invalid = true ↔ ∃ a ∈ r.answered, a.2 = false
  calls : ∀ thread report call, r.calls thread = some (report, call) → call.Of report

namespace Reporting

theorem start_faithful (procedure : ProcedureDescriptor) : (start procedure).Faithful where
  states := fun _ => rfl
  stages := fun _ => nofun
  begun := fun _ some => absurd rfl some
  final := fun _ => nofun
  refused := ⟨nofun, nofun⟩
  calls := nofun

theorem calls_update {calls : Nat → Option (EffectReport × ReportCall)}
    (of : ∀ thread report call, calls thread = some (report, call) → call.Of report)
    (at' : Nat) {next : Option (EffectReport × ReportCall)}
    (placed : ∀ report call, next = some (report, call) → call.Of report) :
    ∀ thread report call, Function.update calls at' next thread = some (report, call) →
      call.Of report := by
  intro thread report call there
  by_cases same : thread = at'
  · rw [same, Function.update_self] at there
    exact placed report call there
  · rw [Function.update_of_ne same] at there
    exact of thread report call there

/-- The last accepted stage decides whether an effect began. -/
theorem Faithful.last_of_state {r : Reporting} (faithful : r.Faithful) {effect : ProcedureEffect}
    (state : r.trace.states effect = .began) :
    (acceptedOf effect r.answered).getLast? = some .began := by
  rw [faithful.states effect] at state
  cases last : (acceptedOf effect r.answered).getLast? with
  | none => rw [last] at state; cases state
  | some stage => rw [last] at state; cases stage <;> first | rfl | cases state

theorem Faithful.accept {r : Reporting} (faithful : r.Faithful) {report : EffectReport}
    {effect : ProcedureEffect} (about : report.effect = some effect)
    (known : report.stage ≠ .other) (open' : r.trace.states effect ≠ .unknown)
    (ready : report.stage ≠ .began → r.trace.states effect = .began)
    {calls : Nat → Option (EffectReport × ReportCall)}
    (of : ∀ thread report call, calls thread = some (report, call) → call.Of report) :
    (⟨r.trace.set effect (.after (some report.stage)), calls,
      r.answered ++ [(report, true)]⟩ : Reporting).Faithful where
  states := by
    intro other
    by_cases same : other = effect
    · subst same
      simp [BoundedEffectTrace.set, acceptedOf_accepted other r.answered about]
    · simp only [BoundedEffectTrace.set, acceptedOf_other r.answered about same,
        Function.update_of_ne same]
      exact faithful.states other
  stages := by
    intro other
    by_cases same : other = effect
    · subst same
      rw [acceptedOf_accepted other r.answered about, List.mem_append, List.mem_singleton]
      exact not_or.mpr ⟨faithful.stages other, fun eq => known eq.symm⟩
    · rw [acceptedOf_other r.answered about same]
      exact faithful.stages other
  begun := by
    intro other some
    by_cases same : other = effect
    · subst same
      rw [acceptedOf_accepted other r.answered about, List.mem_append, List.mem_singleton]
      by_cases began : report.stage = .began
      · exact .inr began.symm
      · exact .inl (List.mem_of_getLast? (faithful.last_of_state (ready began)))
    · rw [acceptedOf_other r.answered about same] at some ⊢
      exact faithful.begun other some
  final := by
    intro other there
    by_cases same : other = effect
    · subst same
      rw [acceptedOf_accepted other r.answered about, List.mem_append, List.mem_singleton]
        at there
      rw [acceptedOf_accepted other r.answered about, List.getLast?_append]
      obtain earlier | now := there
      · -- An accepted `unknown` is the last accepted stage.
        have state := faithful.states other
        rw [faithful.final other earlier] at state
        exact absurd state open'
      · simp [← now]
    · rw [acceptedOf_other r.answered about same] at there ⊢
      exact faithful.final other there
  refused := by
    show r.trace.invalid = true ↔ _
    rw [faithful.refused]
    simp
  calls := of

theorem Faithful.refuse {r : Reporting} (faithful : r.Faithful) (report : EffectReport)
    {calls : Nat → Option (EffectReport × ReportCall)}
    (of : ∀ thread report call, calls thread = some (report, call) → call.Of report) :
    (⟨{ r.trace with invalid := true }, calls,
      r.answered ++ [(report, false)]⟩ : Reporting).Faithful where
  states := by simpa only [acceptedOf_refused] using faithful.states
  stages := by simpa only [acceptedOf_refused] using faithful.stages
  begun := by simpa only [acceptedOf_refused] using faithful.begun
  final := by simpa only [acceptedOf_refused] using faithful.final
  refused := by simp
  calls := of

theorem Faithful.tick {r : Reporting} (faithful : r.Faithful) (tick : ReportTick) :
    (r.tick tick).Faithful := by
  cases tick with
  | call thread report =>
    unfold Reporting.tick
    simp only
    split
    · exact faithful
    · exact { faithful with
        calls := calls_update faithful.calls thread (by
          rintro _ _ ⟨⟩
          exact enter_of r.trace report) }
  | go thread spurious =>
    unfold Reporting.tick
    simp only
    split
    · exact faithful
    · next report call calling =>
      have of := faithful.calls thread report call calling
      have advanced := ReportCall.advanced of spurious r.trace
      generalize call.advance spurious r.trace = result at advanced ⊢
      cases advanced with
      | going next =>
        exact { faithful with
          calls := calls_update faithful.calls thread (by
            rintro _ _ ⟨⟩
            exact next) }
      | accepted about known open' ready =>
        exact faithful.accept about known open' ready
          (calls_update faithful.calls thread nofun)
      | refused => exact faithful.refuse report (calls_update faithful.calls thread nofun)

theorem run_faithful (procedure : ProcedureDescriptor) (ticks : List ReportTick) :
    (run procedure ticks).Faithful :=
  List.foldlRecOn ticks tick (start_faithful procedure)
    (fun _ faithful next _ => faithful.tick next)

end Reporting

/-! A state that is not weaker than the reports. -/

/-- An effect was left begun or reported unknown. -/
def Indeterminate (effects : List ProcedureEffect) (answered : List (EffectReport × Bool)) :
    Prop :=
  ∃ effect ∈ effects, (acceptedOf effect answered).getLast? = some .began ∨
    .unknown ∈ acceptedOf effect answered

structure Covers (effects : List ProcedureEffect) (answered : List (EffectReport × Bool))
    (suppliedUnknown : Prop) (state : HostEffectState) : Prop where
  unknown : Indeterminate effects answered ∨ suppliedUnknown → state = .unknown
  committed : ¬ (Indeterminate effects answered ∨ suppliedUnknown) →
    (∃ effect ∈ effects, .committed ∈ acceptedOf effect answered) → state = .committed
  notStarted : state = .notStarted → ∀ effect ∈ effects, .began ∉ acceptedOf effect answered

section Covering

variable {r : Reporting}

theorem Reporting.Faithful.indeterminate_iff (faithful : r.Faithful) (effect : ProcedureEffect) :
    (r.trace.states effect = .began ∨ r.trace.states effect = .unknown) ↔
      ((acceptedOf effect r.answered).getLast? = some .began ∨
        .unknown ∈ acceptedOf effect r.answered) := by
  have state := faithful.states effect
  have final := faithful.final effect
  constructor
  · rintro (began | unknown)
    · exact .inl (faithful.last_of_state began)
    · rw [unknown] at state
      cases last : (acceptedOf effect r.answered).getLast? with
      | none => rw [last] at state; cases state
      | some stage =>
        rw [last] at state
        cases stage with
        | unknown => exact .inr (List.mem_of_getLast? last)
        | began => cases state
        | committed => cases state
        | other => cases state
  · rintro (began | unknown)
    · rw [state, began]
      exact .inl rfl
    · rw [state, final unknown]
      exact .inr rfl

theorem Reporting.Faithful.notStarted_iff (faithful : r.Faithful) (effect : ProcedureEffect) :
    r.trace.states effect = .notStarted ↔ acceptedOf effect r.answered = [] := by
  rw [faithful.states effect]
  have stages := faithful.stages effect
  constructor
  · intro state
    cases last : (acceptedOf effect r.answered).getLast? with
    | none => exact List.getLast?_eq_none_iff.mp last
    | some stage =>
      rw [last] at state
      cases stage with
      | other => exact absurd (List.mem_of_getLast? last) stages
      | began => cases state
      | committed => cases state
      | unknown => cases state
  · intro none
    rw [none]
    rfl

/-- What a state has to be, from the states of the effects. -/
theorem Reporting.Faithful.covers (faithful : r.Faithful) {effects : List ProcedureEffect}
    {state : HostEffectState} {suppliedUnknown : Prop}
    (unknown : (∃ effect ∈ effects, r.trace.states effect = .began ∨
      r.trace.states effect = .unknown) ∨ suppliedUnknown → state = .unknown)
    (committed : ¬ suppliedUnknown → (∀ effect ∈ effects, r.trace.states effect ≠ .began ∧
      r.trace.states effect ≠ .unknown) →
      (∃ effect ∈ effects, r.trace.states effect = .committed) → state = .committed)
    (notStarted : state = .notStarted →
      ∀ effect ∈ effects, r.trace.states effect = .notStarted) :
    Covers effects r.answered suppliedUnknown state where
  unknown := by
    rintro (⟨effect, there, left⟩ | supplied)
    · exact unknown (.inl ⟨effect, there, (faithful.indeterminate_iff effect).mpr left⟩)
    · exact unknown (.inr supplied)
  committed := by
    rintro determinate ⟨effect, there, accepted⟩
    obtain ⟨reports, supplied⟩ := not_or.mp determinate
    have settled : ∀ effect ∈ effects, r.trace.states effect ≠ .began ∧
        r.trace.states effect ≠ .unknown := by
      intro effect there
      refine not_or.mp (fun left => reports ⟨effect, there, ?_⟩)
      exact (faithful.indeterminate_iff effect).mp left
    refine committed supplied settled ⟨effect, there, ?_⟩
    have some : r.trace.states effect ≠ .notStarted := by
      intro none
      rw [(faithful.notStarted_iff effect).mp none] at accepted
      cases accepted
    obtain ⟨began, unknown⟩ := settled effect there
    cases state : r.trace.states effect with
    | committed => rfl
    | notStarted => exact absurd state some
    | began => exact absurd state began
    | unknown => exact absurd state unknown
  notStarted := by
    intro none effect there
    rw [(faithful.notStarted_iff effect).mp (notStarted none effect there)]
    exact nofun

theorem effectStateOf_unknown (states : List EffectState) (committed : Bool) :
    BoundedEffectTrace.effectStateOf states committed = .unknown ↔
      ∃ state ∈ states, state = .began ∨ state = .unknown := by
  induction states generalizing committed with
  | nil => cases committed <;> simp [BoundedEffectTrace.effectStateOf]
  | cons state rest ih =>
    unfold BoundedEffectTrace.effectStateOf
    by_cases left : state = .began ∨ state = .unknown
    · simp [left]
    · rw [if_neg left, ih]
      simp [left]

theorem effectStateOf_notStarted (states : List EffectState) (committed : Bool) :
    BoundedEffectTrace.effectStateOf states committed = .notStarted ↔
      committed = false ∧ ∀ state ∈ states, state = .notStarted := by
  induction states generalizing committed with
  | nil => cases committed <;> simp [BoundedEffectTrace.effectStateOf]
  | cons state rest ih =>
    unfold BoundedEffectTrace.effectStateOf
    by_cases left : state = .began ∨ state = .unknown
    · rw [if_pos left]
      obtain left | left := left <;> simp [left]
    · rw [if_neg left, ih]
      cases state <;> simp at left ⊢

theorem BoundedEffectTrace.effectState_unknown (trace : BoundedEffectTrace) :
    trace.effectState = .unknown ↔
      ∃ effect ∈ ProcedureEffect.all, trace.states effect = .began ∨
        trace.states effect = .unknown := by
  simp [BoundedEffectTrace.effectState, effectStateOf_unknown]

theorem BoundedEffectTrace.effectState_notStarted (trace : BoundedEffectTrace) :
    trace.effectState = .notStarted ↔
      ∀ effect ∈ ProcedureEffect.all, trace.states effect = .notStarted := by
  simp [BoundedEffectTrace.effectState, effectStateOf_notStarted]

/-- A state that is the trace's own or stronger covers the reports. -/
theorem Reporting.Faithful.covers_of_effectState (faithful : r.Faithful)
    {state : HostEffectState} {suppliedUnknown : Prop}
    (unknown : r.trace.effectState = .unknown ∨ suppliedUnknown → state = .unknown)
    (committed : ¬ suppliedUnknown → r.trace.effectState = .committed → state = .committed)
    (notStarted : state = .notStarted → r.trace.effectState = .notStarted) :
    Covers ProcedureEffect.all r.answered suppliedUnknown state := by
  refine faithful.covers ?_ ?_ ?_
  · rintro (left | supplied)
    · exact unknown (.inl (r.trace.effectState_unknown.mpr left))
    · exact unknown (.inr supplied)
  · rintro supplied settled ⟨effect, there, done⟩
    refine committed supplied ?_
    cases state : r.trace.effectState with
    | committed => rfl
    | unknown =>
      obtain ⟨effect, there, left⟩ := r.trace.effectState_unknown.mp state
      obtain left | left := left
      · exact absurd left (settled effect there).1
      · exact absurd left (settled effect there).2
    | notStarted =>
      rw [r.trace.effectState_notStarted.mp state effect there] at done
      cases done
  · exact fun none => r.trace.effectState_notStarted.mp (notStarted none)

theorem Reporting.Faithful.covers_input (faithful : r.Faithful) :
    Covers [.input] r.answered False r.trace.inputEffectState := by
  unfold BoundedEffectTrace.inputEffectState
  refine faithful.covers ?_ ?_ ?_ <;>
    cases state : r.trace.states .input <;> simp [state]

theorem Reporting.Faithful.covers_merge (faithful : r.Faithful) (supplied : HostEffectState) :
    Covers ProcedureEffect.all r.answered (supplied = .unknown)
      (mergeEffectState r.trace.effectState supplied) := by
  refine faithful.covers_of_effectState ?_ ?_ ?_ <;>
    cases r.trace.effectState <;> cases supplied <;> simp [mergeEffectState]

/-- `not_started` covers exactly the runs in which no report was accepted. -/
theorem Reporting.Faithful.covers_notStarted_iff (faithful : r.Faithful)
    {suppliedUnknown : Prop} :
    Covers ProcedureEffect.all r.answered suppliedUnknown .notStarted ↔
      (∀ effect, acceptedOf effect r.answered = []) ∧ ¬ suppliedUnknown := by
  have all : ∀ effect, effect ∈ ProcedureEffect.all := by
    intro effect
    cases effect <;> simp [ProcedureEffect.all]
  constructor
  · intro covers
    refine ⟨fun effect => ?_, fun supplied => nomatch covers.unknown (.inr supplied)⟩
    by_contra some
    exact covers.notStarted rfl effect (all effect) (faithful.begun effect some)
  · rintro ⟨none, supplied⟩
    refine faithful.covers_of_effectState ?_ ?_ ?_
    · rintro (left | supplied')
      · obtain ⟨effect, -, left⟩ := r.trace.effectState_unknown.mp left
        rw [(faithful.notStarted_iff effect).mpr (none effect)] at left
        obtain left | left := left <;> cases left
      · exact absurd supplied' supplied
    · intro _ done
      rw [r.trace.effectState_notStarted.mpr
        (fun effect _ => (faithful.notStarted_iff effect).mpr (none effect))] at done
      cases done
    · exact fun _ => r.trace.effectState_notStarted.mpr
        (fun effect _ => (faithful.notStarted_iff effect).mpr (none effect))

end Covering

/-! What a call has to do. -/

namespace HostCall

def quiet (call : HostCall) (checkpoint : Checkpoint) : Bool :=
  !call.deadlineExceeded checkpoint && !call.cancelled checkpoint

/-- The procedure, when the call comes to the executor. -/
def reached (call : HostCall) : Option ProcedureDescriptor :=
  match call.preflight with
  | .error _ => none
  | .ok procedure =>
    match call.acquire with
    | .ok .acquired =>
      if call.quiet .beforeAcquire && call.quiet .afterAcquire then some procedure else none
    | _ => none

/-- The reports of the executor and the answers to them. -/
def reported (call : HostCall) : List (EffectReport × Bool) :=
  match call.reached with
  | none => []
  | some procedure => (Reporting.run procedure call.ticks).answered

def SuppliedUnknown (call : HostCall) : Prop :=
  call.reached.isSome ∧
    ∃ supplied, call.execute = .ok (.failure supplied) ∧ supplied.effectState = .unknown

/-- The state that an error has is not weaker than what was reported and supplied; for a
foreground mismatch, than what was reported of the input. -/
def NeverWeaker (call : HostCall) (error : HostError) : Prop :=
  if error.details = some ("unavailable_reason", "foreground_package_mismatch") then
    Covers [.input] call.reported False error.effectState
  else Covers ProcedureEffect.all call.reported call.SuppliedUnknown error.effectState

/-- When a success may be answered, and which. -/
structure Publishes (call : HostCall) (procedure : ProcedureDescriptor) (terminalId : String)
    (payload : List (String × JsonValue)) : Prop where
  reached : call.reached = some procedure
  accepted : ∀ a ∈ call.reported, a.2 = true
  returned : call.execute = .ok (.success terminalId payload)
  quiet : call.quiet .beforePublish = true
  terminal : procedure.acceptsTerminal terminalId = true
  payload : ConformsMembers payload procedure.resultSchema

structure Meets (call : HostCall) : Prop where
  returns : ∃ result, call.callback.2 = .ok result
  effect : ∀ error, call.callback.2 = .ok (.failure error) → call.NeverWeaker error
  success : ∀ value, call.callback.2 = .ok (.success value) →
    ∃ procedure terminalId payload, call.Publishes procedure terminalId payload ∧
      value = .object (("end", .string terminalId) :: payload)
  /-- At a checkpoint that sees the deadline a cancellation is not answered, and the deadline
  is, unless there is no memory for it. -/
  deadline : ∀ checkpoint, .checked checkpoint ∈ call.callback.1 →
    call.deadlineExceeded checkpoint = true → ∃ error, call.callback.2 = .ok (.failure error) ∧
      error.code ≠ .cancelled ∧ (call.answerAllocated = true → error.code = .deadlineExceeded)
  /-- The lease is released once if it was acquired, and the executor runs under it. -/
  lease : call.callback.1.filter (fun event => event = .acquired ∨ event = .executed ∨
      event = .released) ∈
    [[], [.acquired, .released], [.acquired, .executed, .released]]

/-- Everything that a success needs. -/
structure Succeeds (call : HostCall) (procedure : ProcedureDescriptor) (terminalId : String)
    (payload : List (String × JsonValue)) : Prop where
  reached : call.reached = some procedure
  accepted : ∀ a ∈ call.reported, a.2 = true
  returned : call.execute = .ok (.success terminalId payload)
  quiet : call.quiet .afterExecute = true ∧ call.quiet .beforePublish = true
  terminal : procedure.acceptsTerminal terminalId = true
  valid : validateResultPayload payload procedure.resultSchema call.limits = .valid
  processed : call.processing = none

/-- An exception leaves the part of `run` before the executor. -/
def ThrowsEarly (call : HostCall) : Prop :=
  (∃ thrown, call.preflight = .error (.threw thrown)) ∨
    ∃ procedure thrown, call.preflight = .ok procedure ∧ call.quiet .beforeAcquire = true ∧
      call.acquire = .error thrown

/-- `run` is left by an exception: early, or when its error finds no memory. -/
def Throws (call : HostCall) : Prop :=
  call.ThrowsEarly ∨ (call.answerAllocated = false ∧
    ¬ ∃ procedure terminalId payload, call.Succeeds procedure terminalId payload)

/-- No report was accepted and the supplied error does not say unknown. -/
def Untouched (call : HostCall) : Prop :=
  (∀ effect, acceptedOf effect call.reported = []) ∧ ¬ call.SuppliedUnknown

/-- The supplied error says unknown, the trace does not, and the answer is made of the trace
alone. -/
def DropsUnknown (call : HostCall) : Prop :=
  call.SuppliedUnknown ∧ ¬ Indeterminate ProcedureEffect.all call.reported ∧
    ((∃ a ∈ call.reported, a.2 = false) ∨ call.quiet .afterExecute = false)

section Sections

variable {call : HostCall}

/-! How each part of `run` ends. -/

theorem check_quiet {checkpoint : Checkpoint} {effect : HostEffectState} {next : HostSection}
    (quiet : call.quiet checkpoint = true) :
    call.check checkpoint effect next = (.checked checkpoint :: next.1, next.2) := by
  unfold HostCall.quiet at quiet
  simp only [Bool.and_eq_true, Bool.not_eq_true'] at quiet
  unfold HostCall.check
  rw [if_neg (by simp [quiet.1]), if_neg (by simp [quiet.2])]

theorem check_loud {checkpoint : Checkpoint} {effect : HostEffectState} {next : HostSection}
    (loud : call.quiet checkpoint = false) :
    ∃ error : HostError, error.effectState = effect ∧ (error.details = none ∨
        error.details = some ("deadline_scope", "context")) ∧
      (call.check checkpoint effect next).2 = call.answer error := by
  unfold HostCall.check
  by_cases deadline : call.deadlineExceeded checkpoint = true
  · rw [if_pos deadline]
    exact ⟨Procedure.deadline effect .context, rfl, .inr rfl, rfl⟩
  · by_cases cancelled : call.cancelled checkpoint = true
    · rw [if_neg deadline, if_pos cancelled]
      exact ⟨Procedure.cancelled effect, rfl, .inl rfl, rfl⟩
    · simp [HostCall.quiet, deadline, cancelled] at loud

/-- The state of the error is what the claim asks for, unless an unknown state is dropped. -/
def Honest (call : HostCall) (error : HostError) : Prop :=
  call.NeverWeaker error ↔ ¬ call.DropsUnknown

theorem honest_before (early : call.reached = none) {error : HostError}
    (state : error.effectState = .notStarted) : call.Honest error := by
  have none : call.reported = [] := by rw [HostCall.reported, early]
  have supplied : ¬ call.SuppliedUnknown := by
    rintro ⟨some, -⟩
    rw [early] at some
    cases some
  have covers : ∀ (effects : List ProcedureEffect) {unknown : Prop}, ¬ unknown →
      Covers effects call.reported unknown error.effectState := by
    intro effects unknown not
    rw [none, state]
    refine ⟨?_, ?_, fun _ _ _ => nofun⟩
    · rintro (⟨effect, -, left | left⟩ | supplied)
      · cases left
      · cases left
      · exact absurd supplied not
    · rintro - ⟨effect, -, accepted⟩
      cases accepted
  refine iff_of_true ?_ (fun drops => supplied drops.1)
  unfold HostCall.NeverWeaker
  split
  · exact covers [.input] not_false
  · exact covers ProcedureEffect.all supplied

variable {procedure : ProcedureDescriptor}

theorem reported_of_reached (reached : call.reached = some procedure) :
    call.reported = (Reporting.run procedure call.ticks).answered := by
  rw [HostCall.reported, reached]

theorem accepted_iff (reached : call.reached = some procedure) :
    (Reporting.run procedure call.ticks).trace.invalid = true ↔
      ∃ a ∈ call.reported, a.2 = false := by
  rw [reported_of_reached reached]
  exact (Reporting.run_faithful procedure call.ticks).refused

/-- An answer that is made of the trace alone. -/
theorem neverWeaker_trace (reached : call.reached = some procedure) {error : HostError}
    (state : error.effectState = (Reporting.run procedure call.ticks).trace.effectState)
    (details : error.details ≠ some ("unavailable_reason", "foreground_package_mismatch")) :
    call.NeverWeaker error ↔
      (call.SuppliedUnknown → Indeterminate ProcedureEffect.all call.reported) := by
  have faithful := Reporting.run_faithful procedure call.ticks
  rw [HostCall.NeverWeaker, if_neg details, reported_of_reached reached, state]
  have unknown : (Reporting.run procedure call.ticks).trace.effectState = .unknown ↔
      Indeterminate ProcedureEffect.all (Reporting.run procedure call.ticks).answered := by
    rw [BoundedEffectTrace.effectState_unknown]
    simp only [Indeterminate, faithful.indeterminate_iff]
  constructor
  · exact fun covers supplied => unknown.mp (covers.unknown (.inr supplied))
  · intro held
    refine faithful.covers_of_effectState ?_ (fun _ => id) id
    rintro (left | supplied)
    · exact left
    · exact unknown.mpr (held supplied)

theorem honest_trace (reached : call.reached = some procedure) {error : HostError}
    (state : error.effectState = (Reporting.run procedure call.ticks).trace.effectState)
    (details : error.details ≠ some ("unavailable_reason", "foreground_package_mismatch"))
    (dropped : call.SuppliedUnknown →
      (∃ a ∈ call.reported, a.2 = false) ∨ call.quiet .afterExecute = false) :
    call.Honest error := by
  unfold HostCall.Honest
  rw [neverWeaker_trace reached state details]
  constructor
  · rintro held ⟨supplied, determinate, -⟩
    exact determinate (held supplied)
  · intro kept supplied
    by_contra determinate
    exact kept ⟨supplied, determinate, dropped supplied⟩

theorem not_supplied_of_returned {terminalId : String} {payload : List (String × JsonValue)}
    (returned : call.execute = .ok (.success terminalId payload)) : ¬ call.SuppliedUnknown := by
  rintro ⟨-, supplied, failed, -⟩
  rw [returned] at failed
  cases failed

theorem not_supplied_of_threw {thrown : Thrown} (threw : call.execute = .error thrown) :
    ¬ call.SuppliedUnknown := by
  rintro ⟨-, supplied, failed, -⟩
  rw [threw] at failed
  cases failed

theorem honest_supplied (reached : call.reached = some procedure)
    {supplied : ProcedureExecutorError} (failed : call.execute = .ok (.failure supplied))
    (accepted : ¬ ∃ a ∈ call.reported, a.2 = false) (quiet : call.quiet .afterExecute = true) :
    call.Honest (mapExecutorError supplied
      (Reporting.run procedure call.ticks).trace.effectState
      (Reporting.run procedure call.ticks).trace.inputEffectState) := by
  have faithful := Reporting.run_faithful procedure call.ticks
  have kept : ¬ call.DropsUnknown := by
    rintro ⟨-, -, refused | loud⟩
    · exact accepted refused
    · rw [quiet] at loud
      cases loud
  refine iff_of_true ?_ kept
  have unknown : call.SuppliedUnknown ↔ supplied.effectState = .unknown := by
    unfold HostCall.SuppliedUnknown
    rw [failed, reached]
    simp
  have merged := faithful.covers_merge supplied.effectState
  unfold HostCall.NeverWeaker
  rw [reported_of_reached reached, propext unknown]
  cases code : supplied.code with
  | foregroundPackageMismatch =>
    simp only [mapExecutorError, code, if_true]
    exact faithful.covers_input
  | unavailable =>
    simp only [mapExecutorError, code]
    split
    · rw [if_neg (by simp)]
      exact merged
    · rw [if_neg (by simp)]
      exact merged
  | deadlineExceeded =>
    simp only [mapExecutorError, code, deadline]
    rw [if_neg (by simp)]
    exact merged
  | cancelled =>
    simp only [mapExecutorError, code, Procedure.cancelled]
    rw [if_neg (by simp)]
    exact merged
  | _ =>
    simp only [mapExecutorError, code]
    rw [if_neg (by simp)]
    exact merged

/-- The part after the last checkpoint. -/
theorem publish_ends {effect : HostEffectState} {terminalId : String}
    {payload : List (String × JsonValue)} {status : ResultValidationCode} :
    (status = .valid ∧ call.processing = none ∧
      call.publish effect terminalId payload status =
        .ok (.success (.object (("end", .string terminalId) :: payload)))) ∨
    (¬ (status = .valid ∧ call.processing = none) ∧
      ∃ error : HostError, error.effectState = effect ∧
        error.details ≠ some ("unavailable_reason", "foreground_package_mismatch") ∧
        call.publish effect terminalId payload status = call.answer error) := by
  cases status with
  | schemaMismatch => exact .inr ⟨nofun, _, rfl, by simp, rfl⟩
  | limitExceeded => exact .inr ⟨nofun, _, rfl, by simp, rfl⟩
  | valid =>
    cases processing : call.processing with
    | none =>
      refine .inl ⟨rfl, rfl, ?_⟩
      simp [HostCall.publish, processing]
    | some thrown =>
      refine .inr ⟨nofun, ?_⟩
      cases thrown <;> simp only [HostCall.publish, processing, if_true]
      · exact ⟨_, rfl, by simp, rfl⟩
      · exact ⟨_, rfl, by simp, rfl⟩
      · exact ⟨_, rfl, by simp, rfl⟩

theorem readArguments_notStarted {error : HostError}
    (stopped : call.readArguments = .error (.answered error)) :
    error.effectState = .notStarted := by
  unfold HostCall.readArguments at stopped
  split at stopped <;> cases stopped
  rfl

theorem readOptions_notStarted {options : Option JsonValue} {error : HostError}
    (stopped : call.readOptions options = .error (.answered error)) :
    error.effectState = .notStarted := by
  unfold HostCall.readOptions at stopped
  split at stopped
  · cases stopped
  · split at stopped
    · cases stopped
      rfl
    · split at stopped <;> cases stopped
  · cases stopped
    rfl

theorem preflight_notStarted {error : HostError}
    (stopped : call.preflight = .error (.answered error)) : error.effectState = .notStarted := by
  unfold HostCall.preflight at stopped
  by_cases spent : call.limits.maxCalls ≤ call.calls
  · rw [if_pos spent] at stopped
    cases stopped
    rfl
  rw [if_neg spent] at stopped
  cases arguments : call.readArguments with
  | error stop =>
    rw [arguments] at stopped
    cases stopped
    exact readArguments_notStarted arguments
  | ok read =>
    obtain ⟨id, options⟩ := read
    rw [arguments] at stopped
    simp only at stopped
    by_cases canonical : call.acceptsProcedureId id = false
    · rw [if_pos canonical] at stopped
      cases stopped
      rfl
    rw [if_neg canonical] at stopped
    cases resolved : call.resolve id with
    | none =>
      rw [resolved] at stopped
      cases stopped
      rfl
    | some procedure =>
      rw [resolved] at stopped
      simp only at stopped
      cases given : call.readOptions options with
      | error stop =>
        rw [given] at stopped
        cases stopped
        exact readOptions_notStarted given
      | ok read =>
        rw [given] at stopped
        cases stopped

/-- How the part after the executor ends. -/
theorem afterExecute_ends (reached : call.reached = some procedure) :
    (∃ terminalId payload, call.Succeeds procedure terminalId payload ∧
      (call.afterExecute procedure (Reporting.run procedure call.ticks).trace).2 =
        .ok (.success (.object (("end", .string terminalId) :: payload)))) ∨
    ((¬ ∃ terminalId payload, call.Succeeds procedure terminalId payload) ∧
      ∃ error, call.Honest error ∧
        (call.afterExecute procedure (Reporting.run procedure call.ticks).trace).2 =
          call.answer error) := by
  have invalid := accepted_iff reached
  unfold HostCall.afterExecute
  generalize behaves : call.execute = result at *
  match result, behaves with
  | .error thrown, behaves =>
    have supplied := not_supplied_of_threw behaves
    refine .inr ⟨?_, ?_⟩
    · rintro ⟨terminalId, payload, held⟩
      have returned := held.returned
      rw [behaves] at returned
      cases returned
    · cases thrown
      · exact ⟨_, honest_trace reached rfl (by simp) (fun s => absurd s supplied), rfl⟩
      · exact ⟨_, honest_trace reached rfl (by simp) (fun s => absurd s supplied), rfl⟩
      · exact ⟨_, honest_trace reached rfl (by simp) (fun s => absurd s supplied), rfl⟩
  | .ok outcome, behaves =>
    simp only
    by_cases refused : (Reporting.run procedure call.ticks).trace.invalid = true
    · rw [if_pos refused]
      refine .inr ⟨?_, _, honest_trace reached rfl (by simp)
        (fun _ => .inl (invalid.mp refused)), rfl⟩
      rintro ⟨terminalId, payload, held⟩
      obtain ⟨a, there, no⟩ := invalid.mp refused
      rw [held.accepted a there] at no
      cases no
    rw [if_neg refused]
    have accepted : ¬ ∃ a ∈ call.reported, a.2 = false := fun some => refused (invalid.mpr some)
    cases quiet : call.quiet .afterExecute with
    | false =>
      obtain ⟨error, state, details, answers⟩ := check_loud quiet
      refine .inr ⟨?_, error, honest_trace reached state ?_ (fun _ => .inr quiet), answers⟩
      · rintro ⟨terminalId, payload, held⟩
        rw [held.quiet.1] at quiet
        cases quiet
      · obtain details | details := details <;> rw [details] <;> simp
    | true =>
      rw [check_quiet quiet]
      cases outcome with
      | failure supplied =>
        refine .inr ⟨?_, _, honest_supplied reached behaves accepted quiet, rfl⟩
        rintro ⟨terminalId, payload, held⟩
        have returned := held.returned
        rw [behaves] at returned
        cases returned
      | success terminalId payload =>
        have supplied := not_supplied_of_returned behaves
        have returned : ∀ {id other}, call.Succeeds procedure id other →
            id = terminalId ∧ other = payload := by
          intro id other held
          have same := held.returned
          rw [behaves] at same
          cases same
          exact ⟨rfl, rfl⟩
        simp only
        by_cases terminal : procedure.acceptsTerminal terminalId = true
        · rw [if_pos terminal]
          cases last : call.quiet .beforePublish with
          | false =>
            obtain ⟨error, state, details, answers⟩ := check_loud last
            refine .inr ⟨?_, error, honest_trace reached state ?_
              (fun s => absurd s supplied), answers⟩
            · rintro ⟨id, other, held⟩
              rw [held.quiet.2] at last
              cases last
            · obtain details | details := details <;> rw [details] <;> simp
          | true =>
            rw [check_quiet last]
            obtain ⟨valid, processed, published⟩ | ⟨failed, error, state, details, answers⟩ :=
              @publish_ends call (Reporting.run procedure call.ticks).trace.effectState
                terminalId payload
                (validateResultPayload payload procedure.resultSchema call.limits)
            · refine .inl ⟨terminalId, payload, ?_, published⟩
              refine ⟨reached, ?_, behaves, ⟨quiet, last⟩, terminal, valid, processed⟩
              intro a there
              by_contra no
              exact accepted ⟨a, there, Bool.eq_false_of_not_eq_true no⟩
            · refine .inr ⟨?_, error, honest_trace reached state details
                (fun s => absurd s supplied), answers⟩
              rintro ⟨id, other, held⟩
              obtain ⟨rfl, rfl⟩ := returned held
              exact failed ⟨held.valid, held.processed⟩
        · rw [if_neg terminal]
          refine .inr ⟨?_, _, honest_trace reached rfl (by simp)
            (fun s => absurd s supplied), rfl⟩
          rintro ⟨id, other, held⟩
          obtain ⟨rfl, rfl⟩ := returned held
          exact terminal held.terminal

/-- How `run` ends: by an exception before the executor, with a success, or with an error. -/
theorem run_ends (call : HostCall) :
    (call.ThrowsEarly ∧ call.reached = none ∧ ∃ thrown, call.run.2 = .error thrown) ∨
    (∃ procedure terminalId payload, call.Succeeds procedure terminalId payload ∧
      call.run.2 = .ok (.success (.object (("end", .string terminalId) :: payload)))) ∨
    (¬ call.ThrowsEarly ∧
      (¬ ∃ procedure terminalId payload, call.Succeeds procedure terminalId payload) ∧
      ∃ error, call.Honest error ∧ call.run.2 = call.answer error) := by
  have unreached : call.reached = none →
      ¬ ∃ procedure terminalId payload, call.Succeeds procedure terminalId payload := by
    rintro early ⟨procedure, terminalId, payload, held⟩
    have reached := held.reached
    rw [early] at reached
    cases reached
  cases before : call.preflight with
  | error stop =>
    have early : call.reached = none := by rw [HostCall.reached, before]
    cases stop with
    | answered error =>
      refine .inr (.inr ⟨?_, unreached early, error, honest_before early ?_, ?_⟩)
      · rintro (⟨thrown, threw⟩ | ⟨procedure, thrown, passed, -⟩)
        · rw [before] at threw
          cases threw
        · rw [before] at passed
          cases passed
      · exact preflight_notStarted before
      · rw [HostCall.run, before]
    | threw thrown =>
      refine .inl ⟨.inl ⟨thrown, before⟩, early, thrown, ?_⟩
      rw [HostCall.run, before]
  | ok procedure =>
    have notEarly : (∀ thrown, call.quiet .beforeAcquire = true → call.acquire ≠ .error thrown) →
        ¬ call.ThrowsEarly := by
      rintro calm (⟨thrown, threw⟩ | ⟨procedure, thrown, -, quiet, threw⟩)
      · rw [before] at threw
        cases threw
      · exact calm thrown quiet threw
    have run : call.run = call.afterPreflight procedure := by rw [HostCall.run, before]
    rw [run, HostCall.afterPreflight]
    cases quiet : call.quiet .beforeAcquire with
    | false =>
      have early : call.reached = none := by
        unfold HostCall.reached
        rw [before, quiet]
        cases call.acquire with
        | error thrown => rfl
        | ok code => cases code <;> rfl
      obtain ⟨error, state, -, answers⟩ := check_loud quiet
      refine .inr (.inr ⟨?_, unreached early, error, honest_before early state, answers⟩)
      refine notEarly (fun thrown loud => ?_)
      rw [quiet] at loud
      cases loud
    | true =>
      rw [check_quiet quiet]
      cases acquire : call.acquire with
      | error thrown =>
        refine .inl ⟨.inr ⟨procedure, thrown, before, quiet, acquire⟩, ?_, thrown, rfl⟩
        simp [HostCall.reached, before, acquire]
      | ok code =>
        have calm : ¬ call.ThrowsEarly := by
          refine notEarly (fun thrown _ threw => ?_)
          rw [acquire] at threw
          cases threw
        by_cases acquired : code = .acquired
        · subst acquired
          cases under : call.quiet .afterAcquire with
          | false =>
            have early : call.reached = none := by
              simp [HostCall.reached, before, acquire, under]
            obtain ⟨error, state, -, answers⟩ := check_loud under
            exact .inr (.inr
              ⟨calm, unreached early, error, honest_before early state, answers⟩)
          | true =>
            have reached : call.reached = some procedure := by
              simp [HostCall.reached, before, acquire, quiet, under]
            simp only
            rw [check_quiet under]
            obtain ⟨terminalId, payload, held, ends⟩ | ⟨failed, error, honest, ends⟩ :=
              afterExecute_ends reached
            · exact .inr (.inl ⟨procedure, terminalId, payload, held, ends⟩)
            · refine .inr (.inr ⟨calm, ?_, error, honest, ends⟩)
              rintro ⟨other, terminalId, payload, held⟩
              have same := held.reached
              rw [reached] at same
              cases same
              exact failed ⟨terminalId, payload, held⟩
        · have early : call.reached = none := by
            unfold HostCall.reached
            rw [before, acquire]
            cases code <;> first | rfl | exact absurd rfl acquired
          refine .inr (.inr ⟨calm, unreached early, acquireError code,
            honest_before early ?_, ?_⟩)
          · cases code <;> rfl
          · cases code <;> first | rfl | exact absurd rfl acquired

/-! What the events of a run say. -/

/-- At a checkpoint that sees the deadline, the deadline is what is answered. -/
def PrefersDeadline (call : HostCall) (part : HostSection) : Prop :=
  ∀ checkpoint, .checked checkpoint ∈ part.1 → call.deadlineExceeded checkpoint = true →
    ∃ effect, part.2 = call.answer (Procedure.deadline effect .context)

theorem prefers_silent (result : Except Thrown HostResult) : call.PrefersDeadline ([], result) :=
  fun _ => nofun

theorem prefers_check {checkpoint : Checkpoint} {effect : HostEffectState} {next : HostSection}
    (prefers : call.PrefersDeadline next) :
    call.PrefersDeadline (call.check checkpoint effect next) := by
  intro other there exceeded
  unfold HostCall.check at there ⊢
  by_cases deadline : call.deadlineExceeded checkpoint = true
  · rw [if_pos deadline]
    exact ⟨effect, rfl⟩
  rw [if_neg deadline] at there ⊢
  by_cases cancelled : call.cancelled checkpoint = true
  · rw [if_pos cancelled] at there
    cases List.mem_singleton.mp there
    exact absurd exceeded deadline
  · rw [if_neg cancelled] at there ⊢
    obtain same | later := List.mem_cons.mp there
    · cases same
      exact absurd exceeded deadline
    · exact prefers other later exceeded

theorem prefers_afterExecute (trace : BoundedEffectTrace) :
    call.PrefersDeadline (call.afterExecute procedure trace) := by
  unfold HostCall.afterExecute
  split
  · exact prefers_silent _
  · exact prefers_silent _
  · exact prefers_silent _
  · split
    · exact prefers_silent _
    · apply prefers_check
      split
      · exact prefers_silent _
      · split
        · exact prefers_check (prefers_silent _)
        · exact prefers_silent _

theorem prefers_run : call.PrefersDeadline call.run := by
  unfold HostCall.run
  split
  · exact prefers_silent _
  · exact prefers_silent _
  · next procedure passed =>
    unfold HostCall.afterPreflight
    apply prefers_check
    split
    · exact prefers_silent _
    · have inside : call.PrefersDeadline (call.check .afterAcquire .notStarted (executed
          (call.afterExecute procedure (Reporting.run procedure call.ticks).trace))) := by
        apply prefers_check
        intro checkpoint there exceeded
        obtain same | there := List.mem_cons.mp there
        · cases same
        · exact prefers_afterExecute _ checkpoint there exceeded
      intro checkpoint there exceeded
      obtain same | there := List.mem_cons.mp there
      · cases same
      obtain there | same := List.mem_append.mp there
      · exact inside checkpoint there exceeded
      · cases List.mem_singleton.mp same
    · exact prefers_silent _

/-- The events of the lease, and of the executor. -/
def leaseEvents (events : List HostEvent) : List HostEvent :=
  events.filter (fun event => event = .acquired ∨ event = .executed ∨ event = .released)

theorem lease_check {checkpoint : Checkpoint} {effect : HostEffectState} {next : HostSection} :
    leaseEvents (call.check checkpoint effect next).1 = [] ∨
      leaseEvents (call.check checkpoint effect next).1 = leaseEvents next.1 := by
  unfold HostCall.check
  split
  · exact .inl rfl
  · split
    · exact .inl rfl
    · exact .inr rfl

theorem lease_afterExecute (trace : BoundedEffectTrace) :
    leaseEvents (call.afterExecute procedure trace).1 = [] := by
  unfold HostCall.afterExecute
  split
  · rfl
  · rfl
  · rfl
  · split
    · rfl
    · obtain none | same := lease_check <;> first | exact none | rw [same]
      split
      · rfl
      · split
        · obtain none | same := lease_check <;> first | exact none | rw [same]
          rfl
        · rfl

theorem lease_run : leaseEvents call.run.1 ∈
    [[], [.acquired, .released], [.acquired, .executed, .released]] := by
  unfold HostCall.run
  split
  · exact List.mem_cons_self
  · exact List.mem_cons_self
  · next procedure passed =>
    unfold HostCall.afterPreflight
    obtain none | same := lease_check <;> first | (rw [none]; exact List.mem_cons_self) | rw [same]
    split
    · exact List.mem_cons_self
    · have body : leaseEvents (leased (call.check .afterAcquire .notStarted (executed
          (call.afterExecute procedure (Reporting.run procedure call.ticks).trace)))).1 =
          .acquired :: (leaseEvents (call.check .afterAcquire .notStarted (executed
            (call.afterExecute procedure (Reporting.run procedure call.ticks).trace))).1 ++
              [.released]) := by
        simp [leaseEvents, leased]
      rw [body]
      obtain none | same := @lease_check call .afterAcquire .notStarted (executed
        (call.afterExecute procedure (Reporting.run procedure call.ticks).trace))
      · rw [none]
        simp
      · have inside : leaseEvents (executed (call.afterExecute procedure
            (Reporting.run procedure call.ticks).trace)).1 =
            .executed :: leaseEvents (call.afterExecute procedure
              (Reporting.run procedure call.ticks).trace).1 := by
          simp [leaseEvents, executed]
        rw [same, inside, lease_afterExecute]
        simp
    · exact List.mem_cons_self

theorem callback_events : call.callback.1 = call.run.1 := by
  unfold HostCall.callback
  split <;> next ran => rw [ran]

theorem callback_ok {result : HostResult} (ran : call.run.2 = .ok result) :
    call.callback.2 = .ok result := by
  unfold HostCall.callback
  split
  · next events other eq =>
    rw [eq] at ran
    exact ran
  · next events thrown eq =>
    rw [eq] at ran
    cases ran

theorem callback_threw {thrown : Thrown} (ran : call.run.2 = .error thrown) :
    call.callback.2 = if call.handlerAllocated then .ok (.failure (handlerError thrown))
      else .error .badAlloc := by
  unfold HostCall.callback
  split
  · next events other eq =>
    rw [eq] at ran
    cases ran
  · next events other eq =>
    rw [eq] at ran
    cases ran
    rfl

/-! The callback. -/

theorem early_unreached (early : call.ThrowsEarly) : call.reached = none := by
  obtain ⟨thrown, threw⟩ | ⟨procedure, thrown, passed, -, threw⟩ := early
  · rw [HostCall.reached, threw]
  · rw [HostCall.reached, passed, threw]

theorem run_throws (call : HostCall) :
    call.Throws ↔ ∃ thrown, call.run.2 = .error thrown := by
  obtain ⟨early, -, ended⟩ | ⟨procedure, terminalId, payload, held, ended⟩ |
    ⟨late, failed, error, -, ended⟩ := run_ends call
  · exact iff_of_true (.inl early) ended
  · refine iff_of_false ?_ ?_
    · rintro (early | ⟨-, failed⟩)
      · have reached := held.reached
        rw [early_unreached early] at reached
        cases reached
      · exact failed ⟨procedure, terminalId, payload, held⟩
    · rintro ⟨thrown, threw⟩
      rw [ended] at threw
      cases threw
  · rw [ended]
    unfold HostCall.answer
    cases memory : call.answerAllocated with
    | true =>
      refine iff_of_false ?_ (by rintro ⟨thrown, ⟨⟩⟩)
      rintro (early | ⟨no, -⟩)
      · exact late early
      · rw [memory] at no
        cases no
    | false => exact iff_of_true (.inr ⟨memory, failed⟩) ⟨_, rfl⟩

/-- The handler answers `not_started`. -/
theorem handler_neverWeaker (thrown : Thrown) :
    call.NeverWeaker (handlerError thrown) ↔ call.Untouched := by
  have details : (handlerError thrown).details ≠
      some ("unavailable_reason", "foreground_package_mismatch") := by
    cases thrown <;> simp [handlerError]
  have state : (handlerError thrown).effectState = .notStarted := by cases thrown <;> rfl
  rw [HostCall.NeverWeaker, if_neg details, state]
  unfold HostCall.Untouched
  cases reached : call.reached with
  | some procedure =>
    rw [reported_of_reached reached]
    exact (Reporting.run_faithful procedure call.ticks).covers_notStarted_iff
  | none =>
    have none : call.reported = [] := by rw [HostCall.reported, reached]
    rw [none]
    constructor
    · exact fun covers =>
        ⟨fun _ => rfl, fun supplied => nomatch covers.unknown (.inr supplied)⟩
    · rintro ⟨-, supplied⟩
      refine ⟨?_, ?_, fun _ _ _ => nofun⟩
      · rintro (⟨effect, -, left | left⟩ | unknown)
        · cases left
        · cases left
        · exact absurd unknown supplied
      · rintro - ⟨effect, -, accepted⟩
        cases accepted

theorem publishes_of_succeeds {terminalId : String} {payload : List (String × JsonValue)}
    (held : call.Succeeds procedure terminalId payload) :
    call.Publishes procedure terminalId payload where
  reached := held.reached
  accepted := held.accepted
  returned := held.returned
  quiet := held.quiet.2
  terminal := held.terminal
  payload := conforms_of_payload held.valid

theorem lease_callback : call.callback.1.filter (fun event => event = .acquired ∨
    event = .executed ∨ event = .released) ∈
      [[], [.acquired, .released], [.acquired, .executed, .released]] := by
  rw [callback_events]
  exact lease_run

/-- An exception that `run` throws is answered as the claim asks when the handler has memory
and nothing was done. -/
theorem meets_of_thrown {thrown : Thrown} (threw : call.run.2 = .error thrown)
    (memory : call.handlerAllocated = true) (untouched : call.Untouched) : call.Meets := by
  have answered : call.callback.2 = .ok (.failure (handlerError thrown)) := by
    rw [callback_threw threw, if_pos memory]
  refine ⟨⟨_, answered⟩, ?_, ?_, ?_, lease_callback⟩
  · intro error same
    rw [answered] at same
    cases same
    exact (handler_neverWeaker thrown).mpr untouched
  · intro value same
    rw [answered] at same
    cases same
  · intro checkpoint there exceeded
    refine ⟨_, answered, by cases thrown <;> exact nofun, ?_⟩
    intro allocated
    rw [callback_events] at there
    obtain ⟨effect, preferred⟩ := prefers_run checkpoint there exceeded
    rw [threw, HostCall.answer, if_pos allocated] at preferred
    cases preferred

theorem meets_of_answered {error : HostError} (ended : call.run.2 = call.answer error)
    (memory : call.answerAllocated = true) (covered : call.NeverWeaker error) :
    call.Meets := by
  rw [HostCall.answer, if_pos memory] at ended
  have answered := callback_ok ended
  refine ⟨⟨_, answered⟩, ?_, ?_, ?_, lease_callback⟩
  · intro other same
    rw [answered] at same
    cases same
    exact covered
  · intro value same
    rw [answered] at same
    cases same
  · intro checkpoint there exceeded
    rw [callback_events] at there
    obtain ⟨effect, preferred⟩ := prefers_run checkpoint there exceeded
    rw [ended, HostCall.answer, if_pos memory] at preferred
    cases preferred
    exact ⟨_, answered, nofun, fun _ => rfl⟩

theorem meets_of_succeeds {terminalId : String} {payload : List (String × JsonValue)}
    (held : call.Succeeds procedure terminalId payload)
    (ended : call.run.2 = .ok (.success (.object (("end", .string terminalId) :: payload)))) :
    call.Meets := by
  have answered := callback_ok ended
  refine ⟨⟨_, answered⟩, ?_, ?_, ?_, lease_callback⟩
  · intro error same
    rw [answered] at same
    cases same
  · intro value same
    rw [answered] at same
    cases same
    exact ⟨procedure, terminalId, payload, publishes_of_succeeds held, rfl⟩
  · intro checkpoint there exceeded
    rw [callback_events] at there
    obtain ⟨effect, preferred⟩ := prefers_run checkpoint there exceeded
    rw [ended, HostCall.answer] at preferred
    split at preferred <;> cases preferred

theorem handled_of_meets (meets : call.Meets) {thrown : Thrown}
    (threw : call.run.2 = .error thrown) : call.handlerAllocated = true ∧ call.Untouched := by
  have answered := callback_threw threw
  obtain ⟨result, returned⟩ := meets.returns
  cases memory : call.handlerAllocated with
  | false =>
    rw [answered, memory] at returned
    cases returned
  | true =>
    rw [memory, if_pos rfl] at answered
    exact ⟨rfl, (handler_neverWeaker thrown).mp (meets.effect _ answered)⟩

theorem kept_of_meets (meets : call.Meets) : ¬ call.DropsUnknown := by
  intro drops
  obtain ⟨-, early, -⟩ | ⟨procedure, terminalId, payload, held, -⟩ |
    ⟨-, -, error, honest, ended⟩ := run_ends call
  · have reached := drops.1.1
    rw [early] at reached
    cases reached
  · exact not_supplied_of_returned held.returned drops.1
  · unfold HostCall.answer at ended
    cases memory : call.answerAllocated with
    | true =>
      rw [memory, if_pos rfl] at ended
      exact honest.mp (meets.effect error (callback_ok ended)) drops
    | false =>
      rw [memory] at ended
      exact (handled_of_meets meets ended).2.2 drops.1

end Sections

/-- The callback does what is asked of it exactly when no exception leaves `run` after
something was done (or finds the handler without memory), and no unknown state that the
executor supplied is dropped. -/
theorem callback_meets (call : HostCall) :
    call.Meets ↔
      (call.Throws → call.handlerAllocated = true ∧ call.Untouched) ∧ ¬ call.DropsUnknown := by
  constructor
  · intro meets
    refine ⟨fun throws => ?_, kept_of_meets meets⟩
    obtain ⟨thrown, threw⟩ := (run_throws call).mp throws
    exact handled_of_meets meets threw
  · rintro ⟨handled, kept⟩
    have thrown : ∀ {thrown}, call.run.2 = .error thrown → call.Meets := by
      intro thrown threw
      obtain ⟨memory, untouched⟩ := handled ((run_throws call).mpr ⟨thrown, threw⟩)
      exact meets_of_thrown threw memory untouched
    obtain ⟨-, -, raised, threw⟩ | ⟨procedure, terminalId, payload, held, ended⟩ |
      ⟨-, -, error, honest, ended⟩ := run_ends call
    · exact thrown threw
    · exact meets_of_succeeds held ended
    · cases memory : call.answerAllocated with
      | true => exact meets_of_answered ended memory (honest.mpr kept)
      | false =>
        refine @thrown .badAlloc ?_
        rw [ended, HostCall.answer, memory]
        rfl

/-- The executor begins and commits an input, then the deadline passes, and there is no memory
for the error that says so. -/
def lateDeadline : HostCall where
  calls := 0
  limits := ⟨8, 64, 4096, 4096, 16, 8, 64, 4096, 4096, 4096⟩
  arguments := [some (.string "daily"), none]
  acceptsProcedureId := fun _ => true
  resolve := fun _ => some ⟨[.input], ["done"], []⟩
  deadlineExceeded := fun checkpoint => checkpoint = .afterExecute
  cancelled := fun _ => false
  acquire := .ok .acquired
  ticks := [.call 0 ⟨some .input, .began⟩, .go 0 false, .go 0 false,
    .call 0 ⟨some .input, .committed⟩, .go 0 false]
  execute := .ok (.success "done" [])
  optionsAllocated := true
  processing := none
  answerAllocated := false
  handlerAllocated := true

theorem lateDeadline_says_notStarted : ¬ lateDeadline.Meets := by
  intro meets
  have answered : lateDeadline.callback.2 = .ok (.failure (handlerError .badAlloc)) := rfl
  have covers := meets.effect _ answered
  have reported : lateDeadline.reported =
      [(⟨some .input, .began⟩, true), (⟨some .input, .committed⟩, true)] := by decide
  rw [NeverWeaker, if_neg (by decide), reported] at covers
  exact covers.notStarted rfl .input (by decide) (by decide)

end HostCall

end Baas.Procedure
