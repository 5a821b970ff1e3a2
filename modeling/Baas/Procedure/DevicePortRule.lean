import Baas.Procedure.DevicePort

/-! What a call on the device sessions may do next and what it knows, and that every operation
of a port, every activation and every invalidation keeps to that. -/
namespace Baas.Procedure

open Threads Threads.Discipline

/-- What a call has read: of the session of its port while it holds the operation mutex
(`status`, `here`), at some time (`seen`), of fields that stay (`token`) or that were read while
the session was current (`frame`); and of the owner while it holds the lifecycle mutex. -/
structure DeviceView where
  status : Bool
  here : Bool
  seen : Bool
  token : Option (Option IdentityToken)
  frame : Option BgrFrame
  epoch : Option Nat
  candidate : Option Nat
  identity : Option IdentityToken
  current : Option (Option Nat)
  published : Option (Nat × IdentityToken)
  cleared : Bool

def DeviceView.blank : DeviceView :=
  ⟨false, false, false, none, none, none, none, none, none, none, false⟩

abbrev DeviceAccount := Account DeviceMutex DeviceView

namespace DeviceView

def after (view : DeviceView) : (query : DeviceQuery) → query.Answer → DeviceView
  | .status _, status => { view with status := status = .current }
  | .isCurrent _, here => { view with
      here := view.here || here, seen := view.seen || (view.status && here) }
  | .tombstone _, _ => { view with status := false }
  | .identity _, identity => { view with token := some identity }
  | .latest _, latest => { view with frame := if view.status && view.here then latest else none }
  | .lastEpoch, epoch => { view with epoch := some epoch }
  | .makeSession _, session => { view with candidate := some session, identity := none }
  | .reject _, _ => { view with candidate := none }
  | .makeIdentity _ identity, address => { view with identity := some ⟨address, identity⟩ }
  | .current, current => { view with
      current := some current, cleared := view.cleared || current.isNone }
  | .publish _ next _, _ => { view with
      published := view.identity.map (fun token => (next, token))
      candidate := none, current := none, epoch := none }
  | .withdraw _, _ => { view with current := none, cleared := true }
  | _, _ => view

def unlocked (view : DeviceView) : DeviceMutex → DeviceView
  | .operation _ => { view with status := false, here := false }
  | .lifecycle => { view with epoch := none, candidate := none, current := none }
  | _ => view

end DeviceView

/-- The questions of a port, an activation and an invalidation, with what has to be known
before. -/
def DeviceRequest.may (held : List DeviceMutex) (view : DeviceView) :
    DeviceRequest → DeviceQuery → Prop
  | .port _ _, .poll => True
  | .port _ _, .allocate => True
  | .port s _, .status session => session = s ∧ .operation s ∈ held
  | .port s _, .isCurrent session => session = s ∧ .operation s ∈ held
  | .port s _, .identity session => session = s
  | .port s _, .latest session => session = s
  | .port s _, .tombstone session => session = s ∧ view.status = true ∧ view.here = true
  | .port s _, .storeLatest session frame => session = s ∧ view.status = true ∧
      view.here = true ∧ ∃ token, view.token = some token ∧
        frame.identity = token.map IdentityToken.address
  | .port s _, .backend session call => session = s ∧ view.here = true ∧
      (call = .captured ∨ view.status = true)
  | .activate _ _ _ _, .allocate => True
  | .activate _ _ _ _, .lastEpoch => .lifecycle ∈ held
  | .activate _ _ _ _, .makeSession _ => .lifecycle ∈ held
  | .activate _ _ _ _, .current => .lifecycle ∈ held
  | .activate _ _ _ _, .status session => view.candidate = some session
  | .activate _ _ _ _, .backend session _ => view.candidate = some session
  | .activate _ _ _ _, .reject session => view.candidate = some session
  | .activate _ _ _ _, .makeIdentity session _ => view.candidate = some session ∧
      view.identity = none
  | .activate _ _ _ _, .publish previous next epoch => view.current = some previous ∧
      Device.previousMutex previous ∈ held ∧ .operation next ∈ held ∧ view.candidate = some next ∧
      (∃ token, view.identity = some token ∧ token.identity.sessionEpoch = epoch) ∧
      ∃ last, view.epoch = some last ∧ last < epoch
  | .invalidate, .current => .lifecycle ∈ held
  | .invalidate, .withdraw previous => view.current = some (some previous) ∧
      .operation previous ∈ held
  | _, _ => False

/-- What an operation of a port has seen when it returns. -/
structure PortSettled (held : List DeviceMutex) (view : DeviceView) (outcome : DeviceOutcome) :
    Prop where
  free : held = []
  seen : outcome.succeeded = true → view.seen = true
  frame : ∀ frame, outcome = .latest (some frame) → view.frame = some frame ∧
    ∃ token, view.token = some token ∧ frame.identity = token.map IdentityToken.address
  unbound : ∀ session token, outcome ≠ .bound session token

def DeviceRequest.settled (held : List DeviceMutex) (view : DeviceView) :
    DeviceRequest → Except DeviceFailure DeviceOutcome → Prop
  | .port _ _, .ok outcome => PortSettled held view outcome
  | .port _ _, .error _ => False
  | .activate _ _ epoch _, .ok (.bound session token) => held = [] ∧
      view.published = some (session, token) ∧ token.identity.sessionEpoch = epoch
  | .activate _ _ _ _, .ok _ => False
  | .activate _ _ _ _, .error _ => held = [] ∧ view.published = none
  | .invalidate, .ok .invalidated => held = [] ∧ view.cleared = true
  | .invalidate, _ => False

namespace DeviceOwner

/-- The session has been published, with this identity. -/
def Bound (owner : DeviceOwner) (session : Nat) (token : IdentityToken) : Prop :=
  (∃ x, owner.sessions[session]? = some x ∧ x.status ≠ .candidate ∧ x.identity = some token) ∧
    token.identity.sessionEpoch ≤ owner.lastEpoch

def IsCurrent (owner : DeviceOwner) (session : Nat) : Prop :=
  owner.current = some session ∧
    ∃ x, owner.sessions[session]? = some x ∧ x.status = .current

end DeviceOwner

structure PortKnows (owner : DeviceOwner) (session : Nat) (held : List DeviceMutex)
    (view : DeviceView) : Prop where
  bound : ∃ token, owner.Bound session token
  status : view.status = true → .operation session ∈ held ∧
    ∃ x, owner.sessions[session]? = some x ∧ x.status = .current
  here : view.here = true → .operation session ∈ held ∧ owner.current = some session
  token : ∀ token, view.token = some token → owner.identityOf session = token

structure OwnerKnows (owner : DeviceOwner) (held : List DeviceMutex) (view : DeviceView) :
    Prop where
  epoch : ∀ epoch, view.epoch = some epoch → .lifecycle ∈ held ∧ owner.lastEpoch = epoch
  candidate : ∀ session, view.candidate = some session → .lifecycle ∈ held ∧
    ∃ x, owner.sessions[session]? = some x ∧ x.status = .candidate ∧ x.identity = view.identity
  current : ∀ current, view.current = some current → .lifecycle ∈ held ∧
    owner.current = current
  published : ∀ session token, view.published = some (session, token) →
    owner.Bound session token

def DeviceRequest.knows (owner : DeviceOwner) (held : List DeviceMutex) (view : DeviceView) :
    DeviceRequest → Prop
  | .port session _ => PortKnows owner session held view
  | _ => OwnerKnows owner held view

/-- What always holds of what the calls share. -/
structure DeviceSound (owner : DeviceOwner) : Prop where
  status : ∀ (session : Nat) (x : Session), owner.sessions[session]? = some x →
    x.status = .current → owner.current = some session
  current : ∀ session, owner.current = some session →
    ∃ token, owner.Bound session token ∧ token.identity.sessionEpoch = owner.lastEpoch
  latest : ∀ (session : Nat) (x : Session) (frame : BgrFrame),
    owner.sessions[session]? = some x → x.latest = some frame → x.status = .current ∧
      frame.identity = x.identity.map IdentityToken.address
  address : ∀ session token, owner.identityOf session = some token →
    token.address < owner.nextAddress
  distinct : ∀ session other token its, owner.identityOf session = some token →
    owner.identityOf other = some its → token.address = its.address → session = other

def deviceDiscipline : Discipline DeviceMutex DeviceQuery DeviceQuery.Answer DeviceFailure
    DeviceOutcome DeviceRequest DeviceOwner DeviceView where
  opening _ := .blank
  may request held view query := request.may held view query
  after view query answer := view.after query answer
  locked view _ := view
  unlocked view m := view.unlocked m
  settled request held view result := request.settled held view result
  whole := DeviceSound
  knows owner request held view := request.knows owner held view

/-! The operations of a port keep to it. -/

abbrev Guided {α : Type} (request : DeviceRequest) (account : DeviceAccount) (part : Device α)
    (settled : DeviceAccount → Except DeviceFailure α → Prop) : Prop :=
  deviceDiscipline.Guides request account part settled

/-- What stays in an account while the operation mutex is held. -/
structure Onward (a b : DeviceAccount) : Prop where
  held : b.held = a.held
  here : a.view.here = true → b.view.here = true
  seen : a.view.seen = true → b.view.seen = true
  token : b.view.token = a.view.token
  frame : b.view.frame = a.view.frame

theorem Onward.refl (a : DeviceAccount) : Onward a a := ⟨rfl, id, id, rfl, rfl⟩

theorem Onward.trans {a b c : DeviceAccount} (first : Onward a b) (second : Onward b c) :
    Onward a c :=
  ⟨second.held.trans first.held, fun h => second.here (first.here h),
    fun h => second.seen (first.seen h), second.token.trans first.token,
    second.frame.trans first.frame⟩

/-- The session is current, as far as the call knows. -/
structure Live (account : DeviceAccount) : Prop where
  status : account.view.status = true
  here : account.view.here = true
  seen : account.view.seen = true

/-- How a check of the session ends. -/
def Checked (account later : DeviceAccount)
    (result : Except DeviceFailure (Option CoDetectOperationError)) : Prop :=
  Onward account later ∧ ∃ error, result = .ok error ∧ (error = none → Live later)

/-- A check that fails leaves nothing to know of the session. -/
theorem checked_failed {account later : DeviceAccount} {error : CoDetectOperationError}
    (onward : Onward account later) : Checked account later (.ok (some error)) :=
  ⟨onward, _, rfl, fun passed => by cases passed⟩

section Port

variable {s : Nat} {operation : PortOperation} {account : DeviceAccount}

theorem sessionErrorLocked_guided (locked : .operation s ∈ account.held) :
    Guided (.port s operation) account (Device.sessionErrorLocked s) (Checked account) := by
  unfold Device.sessionErrorLocked
  refine guides_asking ⟨rfl, locked⟩ (fun status => ?_)
  split
  · exact guides_pure (checked_failed ⟨rfl, id, id, rfl, rfl⟩)
  · rename_i current
    have current : status = .current := Classical.not_not.mp current
    refine guides_asking ⟨rfl, locked⟩ (fun here => ?_)
    split
    · refine guides_pure (checked_failed ⟨rfl, fun h => ?_, fun h => ?_, rfl, rfl⟩)
      · simp [deviceDiscipline, DeviceView.after, h]
      · simp [deviceDiscipline, DeviceView.after, h]
    · rename_i present
      have present : here = true := by simpa using present
      subst current present
      refine guides_asking ⟨rfl, ?_, .inr ?_⟩ (fun valid => ?_)
      · simp [deviceDiscipline, DeviceView.after]
      · simp [deviceDiscipline, DeviceView.after]
      split
      · refine guides_asking ⟨rfl, ?_, ?_⟩ (fun _ => ?_)
        · simp [deviceDiscipline, DeviceView.after]
        · simp [deviceDiscipline, DeviceView.after]
        refine guides_pure (checked_failed ⟨rfl, fun h => ?_, fun h => ?_, rfl, rfl⟩)
        · simp [deviceDiscipline, DeviceView.after]
        · simp [deviceDiscipline, DeviceView.after]
      · refine guides_pure ⟨⟨rfl, fun h => ?_, fun h => ?_, rfl, rfl⟩, _, rfl,
          fun _ => ⟨?_, ?_, ?_⟩⟩
        all_goals simp [deviceDiscipline, DeviceView.after]

theorem guarded_guided (locked : .operation s ∈ account.held) :
    Guided (.port s operation) account (Device.guarded s) (Checked account) := by
  unfold Device.guarded
  refine guides_asking trivial (fun state => ?_)
  split
  · exact sessionErrorLocked_guided locked
  · exact guides_pure (checked_failed ⟨rfl, id, id, rfl, rfl⟩)

/-- The rest of a section after a check of the session. -/
theorem Guided.checked {α : Type} {check : Device (Option CoDetectOperationError)}
    {f : Option CoDetectOperationError → Device α}
    {settled : DeviceAccount → Except DeviceFailure α → Prop}
    (first : Guided (.port s operation) account check (Checked account))
    (failed : ∀ later error, Onward account later →
      Guided (.port s operation) later (f (some error)) settled)
    (passed : ∀ later, Onward account later → Live later →
      Guided (.port s operation) later (f none) settled) :
    Guided (.port s operation) account (check >>= f) settled := by
  refine Guides.seq first (fun later error checked => ?_) (fun later e checked => ?_)
  · obtain ⟨onward, found, same, live⟩ := checked
    cases Except.ok.inj same
    cases error with
    | none => exact passed later onward (live rfl)
    | some error => exact failed later error onward
  · obtain ⟨-, found, same, -⟩ := checked
    cases same

/-- How a section of an operation ends: with the mutexes held as before, and with a success
only if the session has been seen to be current. -/
def Ends {α : Type} (held : List DeviceMutex) (success : α → Bool) (later : DeviceAccount)
    (result : Except DeviceFailure α) : Prop :=
  later.held = held ∧ ∃ a, result = .ok a ∧ (success a = true → later.view.seen = true)

/-- A section under the operation mutex. -/
theorem Guided.section {α : Type} {body : Device α} {success : α → Bool}
    (guided : Guided (.port s operation) ⟨.operation s :: account.held, account.view⟩ body
      (Ends (.operation s :: account.held) success)) :
    Guided (.port s operation) account (locking (.operation s) body)
      (Ends account.held success) := by
  refine guides_locking (Guides.weaken guided (fun later result ended => ?_))
  obtain ⟨held, a, same, seen⟩ := ended
  rw [held]
  exact ⟨List.mem_cons_self, List.erase_cons_head _ _, a, same, seen⟩

theorem probe_guided :
    Guided (.port s operation) account (Device.probe s)
      (Ends account.held (fun error => error.isNone)) := by
  refine Guided.section (Guides.weaken (guarded_guided List.mem_cons_self) ?_)
  rintro later result ⟨onward, error, rfl, live⟩
  refine ⟨onward.held, error, rfl, fun passed => ?_⟩
  exact (live (Option.isNone_iff_eq_none.mp passed)).seen

theorem currentIdentity_guided :
    Guided (.port s operation) account (Device.currentIdentity s)
      (Ends account.held Option.isSome) := by
  refine Guided.section (Guided.checked (sessionErrorLocked_guided List.mem_cons_self) ?_ ?_)
  · intro later error onward
    exact guides_pure ⟨onward.held, _, rfl, nofun⟩
  · intro later onward live
    refine guides_asking rfl (fun token => guides_pure ⟨onward.held, _, rfl, fun _ => ?_⟩)
    exact live.seen

theorem screenshotIntervalMs_guided :
    Guided (.port s operation) account (Device.screenshotIntervalMs s)
      (Ends account.held (fun value => value ≠ 0)) := by
  refine Guided.section (Guided.checked (sessionErrorLocked_guided List.mem_cons_self) ?_ ?_)
  · intro later error onward
    exact guides_pure ⟨onward.held, _, rfl, by simp⟩
  · intro later onward live
    refine guides_asking ⟨rfl, live.here, .inr live.status⟩ (fun value => ?_)
    refine Guided.checked (sessionErrorLocked_guided ?_) ?_ ?_
    · exact onward.held ▸ List.mem_cons_self
    · intro last error further
      exact guides_pure ⟨further.held.trans onward.held, _, rfl, by simp⟩
    · intro last further alive
      simp only [Option.isSome_none, Bool.false_eq_true, if_false]
      split
      · exact guides_pure ⟨further.held.trans onward.held, _, rfl, fun _ => alive.seen⟩
      · exact guides_pure ⟨further.held.trans onward.held, _, rfl, by simp⟩

theorem validPublishedFrame_identity {frame : BgrFrame} {identity : Option IdentityToken}
    (valid : validPublishedFrame frame identity = true) :
    frame.identity = identity.map IdentityToken.address := by
  simp only [validPublishedFrame, Bool.and_eq_true, decide_eq_true_eq] at valid
  exact valid.1.1.1.1.2

theorem publishLatestFrame_guided (frame : Option BgrFrame) :
    Guided (.port s operation) account (Device.publishLatestFrame s frame)
      (Ends account.held id) := by
  refine Guided.section ?_
  cases frame with
  | none => exact guides_pure ⟨rfl, _, rfl, nofun⟩
  | some frame =>
    refine Guided.checked (sessionErrorLocked_guided List.mem_cons_self) ?_ ?_
    · intro later error onward
      exact guides_pure ⟨onward.held, _, rfl, nofun⟩
    · intro later onward live
      refine guides_asking rfl (fun identity => ?_)
      split
      · rename_i valid
        refine guides_asking ⟨rfl, live.status, live.here, identity, rfl,
          validPublishedFrame_identity valid⟩ (fun _ => ?_)
        exact guides_pure ⟨onward.held, _, rfl, fun _ => live.seen⟩
      · exact guides_pure ⟨onward.held, _, rfl, nofun⟩

/-- The latest frame that an operation returns was read while the session was current. -/
structure FrameSettled (held : List DeviceMutex) (later : DeviceAccount)
    (result : Option BgrFrame) : Prop where
  held : later.held = held
  seen : result.isSome = true → later.view.seen = true
  frame : ∀ frame, result = some frame → later.view.frame = some frame ∧
    ∃ token, later.view.token = some token ∧ frame.identity = token.map IdentityToken.address

theorem latestFrame_guided :
    Guided (.port s operation) account (Device.latestFrame s)
      (fun later result => ∃ frame, result = .ok frame ∧
        FrameSettled account.held later frame) := by
  have unlocks {later : DeviceAccount} {result : Except DeviceFailure (Option BgrFrame)}
      (ended : ∃ frame, result = .ok frame ∧
        FrameSettled (.operation s :: account.held) later frame) :
      .operation s ∈ later.held ∧ ∃ frame, result = .ok frame ∧ FrameSettled account.held
        ⟨later.held.erase (.operation s), deviceDiscipline.unlocked later.view (.operation s)⟩
        frame := by
    obtain ⟨frame, same, held, seen, read⟩ := ended
    rw [held]
    exact ⟨List.mem_cons_self, frame, same, List.erase_cons_head _ _, seen, read⟩
  refine guides_locking (Guides.weaken ?_ (fun later result => unlocks))
  refine Guided.checked (sessionErrorLocked_guided List.mem_cons_self) ?_ ?_
  · intro later error onward
    exact guides_pure ⟨none, rfl, onward.held, nofun, nofun⟩
  · intro later onward live
    refine guides_asking rfl (fun latest => ?_)
    cases latest with
    | none => exact guides_pure ⟨none, rfl, onward.held, nofun, nofun⟩
    | some frame =>
      refine guides_asking rfl (fun identity => ?_)
      split
      · rename_i valid
        refine guides_pure ⟨some frame, rfl, onward.held, fun _ => live.seen, ?_⟩
        rintro _ ⟨⟩
        refine ⟨?_, identity, rfl, validPublishedFrame_identity valid⟩
        simp [deviceDiscipline, DeviceView.after, live.status, live.here]
      · exact guides_pure ⟨none, rfl, onward.held, nofun, nofun⟩

/-- How a section that may throw ends. -/
def EndsOrThrows {α : Type} (held : List DeviceMutex) (later : DeviceAccount)
    (result : Except DeviceFailure (Except CoDetectOperationError α)) : Prop :=
  later.held = held ∧ ∀ a, result = .ok (.ok a) → later.view.seen = true

theorem Guided.handled {α : Type} {body : Device (Except CoDetectOperationError α)}
    {held : List DeviceMutex} (guided : Guided (.port s operation) account body (EndsOrThrows held)) :
    Guided (.port s operation) account (Device.handled body) (Ends held Except.isOk) := by
  refine Interaction.Follows.catching guided (fun later result ended => ?_)
    (fun later failure ended => ?_)
  · refine ⟨ended.1, result, rfl, fun fine => ?_⟩
    cases result with
    | ok a => exact ended.2 a rfl
    | error error => cases fine
  · cases failure <;> exact guides_pure ⟨ended.1, _, rfl, nofun⟩

theorem Guided.throwing {α : Type} {body : Device (Except CoDetectOperationError α)}
    (guided : Guided (.port s operation) ⟨.operation s :: account.held, account.view⟩ body
      (EndsOrThrows (.operation s :: account.held))) :
    Guided (.port s operation) account (locking (.operation s) body) (EndsOrThrows account.held) := by
  refine guides_locking (Guides.weaken guided (fun later result ended => ?_))
  obtain ⟨held, seen⟩ := ended
  rw [held]
  exact ⟨List.mem_cons_self, List.erase_cons_head _ _, seen⟩

theorem received_guided {α : Type} (operated : Operated α) :
    Guided (.port s operation) account (Device.received operated)
      (fun later _ => later = account) := by
  cases operated with
  | value a => exact guides_pure rfl
  | failed error => exact guides_pure rfl
  | threw thrown => cases thrown <;> exact guides_stop rfl

theorem allocating_guided {request : DeviceRequest}
    (right : request.may account.held account.view .allocate) :
    Guided request account Device.allocating
      (fun later result => later = account ∧ ∀ e, result = .error e → e = .badAlloc) := by
  refine guides_asking right (fun allocated => ?_)
  split
  · exact guides_pure ⟨rfl, nofun⟩
  · exact guides_stop ⟨rfl, fun e same => by cases same; rfl⟩

theorem effect_guided {α : Type} {operate : Device (Operated α)}
    (operates : ∀ account : DeviceAccount, account.view.here = true →
      account.view.status = true →
      Guided (.port s operation) account operate (fun later _ => later = account)) :
    Guided (.port s operation) account (Device.effect s operate)
      (Ends account.held Except.isOk) := by
  refine Guided.handled (Guided.throwing (Guided.checked (guarded_guided List.mem_cons_self)
    (fun later error onward => guides_pure ⟨onward.held, nofun⟩) (fun later onward live => ?_)))
  refine Guides.seq (operates later live.here live.status) (fun after result same => ?_)
    (fun after e same => ⟨same ▸ onward.held, nofun⟩)
  subst same
  refine Guides.seq (received_guided result) (fun last returned same => ?_)
    (fun last e same => ⟨same ▸ onward.held, nofun⟩)
  subst same
  refine Guided.checked (guarded_guided (onward.held ▸ List.mem_cons_self)) ?_ ?_
  · intro last error further
    exact guides_pure ⟨further.held.trans onward.held, nofun⟩
  · intro last further alive
    exact guides_pure ⟨further.held.trans onward.held, fun _ _ => alive.seen⟩

theorem click_guided (click : CoDetectClick) :
    Guided (.port s operation) account (Device.click s click)
      (Ends account.held Except.isOk) := by
  unfold Device.click
  split
  · exact guides_pure ⟨rfl, _, rfl, nofun⟩
  · exact effect_guided (fun _ here status => ⟨⟨rfl, here, .inr status⟩, fun _ => rfl⟩)

theorem foregroundMatches_guided :
    Guided (.port s operation) account (Device.foregroundMatches s)
      (Ends account.held Except.isOk) :=
  effect_guided (fun _ here status => ⟨⟨rfl, here, .inr status⟩, fun _ => rfl⟩)

theorem checkpoints_guided (checkpoints : Nat) (locked : .operation s ∈ account.held) :
    Guided (.port s operation) account
      (Interaction.repeated (fun _ => do
        let _ ← Device.guarded s
        pure ()) checkpoints ())
      (fun later _ => Onward account later) := by
  refine Interaction.Follows.repeated (fun later _ onward => ?_) checkpoints (Onward.refl account)
  have checks : Guided (.port s operation) later (Device.guarded s) (Checked later) :=
    guarded_guided (onward.held ▸ locked)
  refine Guides.seq checks
    (fun last error checked => guides_pure (onward.trans checked.1))
    (fun last e checked => onward.trans checked.1)

theorem store_guided (raw : RawFrame) (locked : .operation s ∈ account.held) :
    Guided (.port s operation) account (Device.store s raw) (EndsOrThrows account.held) := by
  unfold Device.store
  split
  · exact guides_pure ⟨rfl, nofun⟩
  · refine Guides.seq (allocating_guided trivial) (fun later _ same => ?_)
      (fun later e same => ⟨same.1 ▸ rfl, nofun⟩)
    obtain ⟨rfl, -⟩ := same
    refine guides_asking rfl (fun identity => ?_)
    refine Guides.seq (allocating_guided trivial) (fun later _ same => ?_)
      (fun later e same => ⟨same.1 ▸ rfl, nofun⟩)
    obtain ⟨rfl, -⟩ := same
    refine Guided.checked (guarded_guided locked) (fun last error onward => ?_)
      (fun last onward live => ?_)
    · exact guides_pure ⟨onward.held, nofun⟩
    · refine guides_asking ⟨rfl, live.status, live.here, identity, onward.token, rfl⟩
        (fun _ => ?_)
      exact guides_pure ⟨onward.held, fun _ _ => live.seen⟩

theorem capture_guided (checkpoints : Nat) :
    Guided (.port s operation) account (Device.capture s checkpoints)
      (Ends account.held Except.isOk) := by
  refine Guided.handled (Guided.throwing (Guided.checked (guarded_guided List.mem_cons_self)
    (fun later error onward => guides_pure ⟨onward.held, nofun⟩) (fun later onward live => ?_)))
  refine guides_asking ⟨rfl, live.here, .inr live.status⟩ (fun _ => ?_)
  have locked : .operation s ∈ later.held := onward.held ▸ List.mem_cons_self
  refine Guides.seq (checkpoints_guided checkpoints locked) (fun after _ further => ?_)
    (fun after e further => ⟨further.held.trans onward.held, nofun⟩)
  refine guides_asking ⟨rfl, further.here live.here, .inl rfl⟩ (fun captured => ?_)
  have held : after.held = .operation s :: account.held := further.held.trans onward.held
  refine Guides.seq (received_guided captured) (fun last returned same => ?_)
    (fun last e same => ⟨same ▸ held, nofun⟩)
  subst same
  refine Guided.checked (guarded_guided (further.held ▸ locked)) ?_ ?_
  · intro last error more
    exact guides_pure ⟨more.held.trans held, nofun⟩
  · intro last more alive
    cases returned with
    | error error => exact guides_pure ⟨more.held.trans held, nofun⟩
    | ok raw =>
      refine Guides.weaken (store_guided raw (more.held.trans held ▸ List.mem_cons_self)) ?_
      intro final result ended
      exact ⟨ended.1.trans (more.held.trans held), ended.2⟩

theorem probe_then {α : Type} {f : Option CoDetectOperationError → Device α}
    {settled : DeviceAccount → Except DeviceFailure α → Prop}
    (failed : ∀ later error, later.held = account.held →
      Guided (.port s operation) later (f (some error)) settled)
    (passed : ∀ later, later.held = account.held → later.view.seen = true →
      Guided (.port s operation) later (f none) settled) :
    Guided (.port s operation) account (Device.probe s >>= f) settled := by
  refine Guides.seq probe_guided (fun later error ended => ?_) (fun later e ended => ?_)
  · obtain ⟨held, found, same, seen⟩ := ended
    cases Except.ok.inj same
    cases error with
    | none => exact passed later held (seen rfl)
    | some error => exact failed later error held
  · obtain ⟨-, found, same, -⟩ := ended
    cases same

theorem waitSlices_guided (slices : Nat) {held : List DeviceMutex}
    (waiting : account.held = .wait s :: held) :
    Guided (.port s operation) account (Device.waitSlices s slices)
      (Ends (.wait s :: held) Except.isOk) := by
  induction slices generalizing account with
  | zero =>
    refine probe_then (fun later error same => ?_) (fun later same seen => ?_)
    · exact guides_pure ⟨same.trans waiting, _, rfl, nofun⟩
    · exact guides_pure ⟨same.trans waiting, _, rfl, fun _ => seen⟩
  | succ slices ih =>
    refine probe_then (fun later error same => ?_) (fun later same seen => ?_)
    · exact guides_pure ⟨same.trans waiting, _, rfl, nofun⟩
    · have here : later.held = .wait s :: held := same.trans waiting
      have unlocks : .wait s ∈ later.held := here ▸ List.mem_cons_self
      refine ⟨unlocks, fun _ => ⟨trivial, fun _ => ih ?_⟩⟩
      show _ :: later.held.erase _ = _
      rw [here, List.erase_cons_head]

theorem wait_guided (milliseconds slices : Nat) :
    Guided (.port s operation) account (Device.wait s milliseconds slices)
      (Ends account.held Except.isOk) := by
  unfold Device.wait
  split
  · exact guides_pure ⟨rfl, _, rfl, nofun⟩
  · refine probe_then (fun later error same => ?_) (fun later same seen => ?_)
    · exact guides_pure ⟨same, _, rfl, nofun⟩
    · refine guides_locking (Guides.weaken (waitSlices_guided slices rfl) ?_)
      rintro last result ⟨held, r, rfl, seen⟩
      rw [held, List.erase_cons_head]
      exact ⟨List.mem_cons_self, same, r, rfl, seen⟩

/-- What an operation returns besides its result says nothing of a binding. -/
theorem Guided.result {α : Type} {body : Device α} {success : α → Bool}
    {outcome : α → DeviceOutcome} (guided : Guided (.port s operation) account body
      (Ends [] success)) (fair : ∀ a, (outcome a).succeeded = true → success a = true)
    (plain : ∀ a frame, outcome a ≠ .latest (some frame))
    (unbound : ∀ a session token, outcome a ≠ .bound session token) :
    Guided (.port s operation) account (body >>= fun a => pure (outcome a))
      (fun later result => deviceDiscipline.settled (.port s operation) later.held later.view
        result) := by
  refine Guides.seq guided (fun later a ended => ?_) (fun later e ended => ?_)
  · obtain ⟨held, found, same, seen⟩ := ended
    cases Except.ok.inj same
    exact guides_pure (⟨held, fun done => seen (fair a done),
      fun frame same => absurd same (plain a frame), unbound a⟩ : PortSettled _ _ _)
  · obtain ⟨-, found, same, -⟩ := ended
    cases same

theorem operation_guided (operation : PortOperation) :
    deviceDiscipline.keptBy (.port s operation) ⟨[], .blank⟩ (operation.program s) := by
  cases operation with
  | currentIdentity => exact Guided.result currentIdentity_guided (fun _ h => h) nofun nofun
  | screenshotIntervalMs =>
    exact Guided.result screenshotIntervalMs_guided (fun _ h => h) nofun nofun
  | latestFrame =>
    refine Guides.seq latestFrame_guided (fun later frame ended => ?_) (fun later e ended => ?_)
    · obtain ⟨found, same, settled⟩ := ended
      cases Except.ok.inj same
      refine guides_pure (?_ : PortSettled later.held later.view (.latest frame))
      refine ⟨settled.held, settled.seen, ?_, nofun⟩
      rintro _ ⟨⟩
      exact settled.frame _ rfl
    · obtain ⟨found, same, -⟩ := ended
      cases same
  | publishLatestFrame frame =>
    exact Guided.result (publishLatestFrame_guided frame) (fun _ h => h) nofun nofun
  | capture checkpoints =>
    exact Guided.result (capture_guided checkpoints) (fun _ h => h) nofun nofun
  | click click => exact Guided.result (click_guided click) (fun _ h => h) nofun nofun
  | wait milliseconds slices =>
    exact Guided.result (wait_guided milliseconds slices) (fun _ h => h) nofun nofun
  | foregroundMatches => exact Guided.result foregroundMatches_guided (fun _ h => h) nofun nofun

end Port

/-! An activation and an invalidation keep to it. -/

/-- What an activation keeps in view of the owner. -/
structure Steady (a b : DeviceAccount) : Prop where
  held : b.held = a.held
  epoch : b.view.epoch = a.view.epoch
  candidate : b.view.candidate = a.view.candidate
  identity : b.view.identity = a.view.identity
  current : b.view.current = a.view.current
  published : b.view.published = a.view.published

theorem Steady.refl (a : DeviceAccount) : Steady a a := ⟨rfl, rfl, rfl, rfl, rfl, rfl⟩

theorem Steady.trans {a b c : DeviceAccount} (first : Steady a b) (second : Steady b c) :
    Steady a c :=
  ⟨second.held.trans first.held, second.epoch.trans first.epoch,
    second.candidate.trans first.candidate, second.identity.trans first.identity,
    second.current.trans first.current, second.published.trans first.published⟩

/-- How a part of an activation ends that publishes nothing. -/
def Passes {α : Type} (account later : DeviceAccount) : Except DeviceFailure α → Prop
  | .ok _ => Steady account later
  | .error _ => later.held = account.held ∧ later.view.published = account.view.published

section Activation

variable {backend : Option Nat} {profile : CoDetectProfile} {epoch : Nat} {android : Bool}
  {account : DeviceAccount} {α β : Type}

theorem Passes.after {first later last : DeviceAccount} {result : Except DeviceFailure α}
    (steady : Steady first later) (passes : Passes later last result) :
    Passes first last result := by
  cases result with
  | ok a => exact steady.trans passes
  | error e => exact ⟨passes.1.trans steady.held, passes.2.trans steady.published⟩

theorem Guided.passing {part : Device α} {f : α → Device β}
    (first : Guided (.activate backend profile epoch android) account part (Passes account))
    (rest : ∀ later a, Steady account later →
      Guided (.activate backend profile epoch android) later (f a) (Passes later)) :
    Guided (.activate backend profile epoch android) account (part >>= f) (Passes account) := by
  refine Guides.seq first (fun later a steady => ?_) (fun later e passes => passes)
  exact Guides.weaken (rest later a steady) (fun last result => Passes.after steady)

theorem allocating_passes :
    Guided (.activate backend profile epoch android) account Device.allocating
      (Passes account) := by
  refine Guides.weaken (allocating_guided trivial) (fun later result same => ?_)
  obtain ⟨rfl, -⟩ := same
  cases result with
  | ok _ => exact Steady.refl _
  | error e => exact ⟨rfl, rfl⟩

/-- A question about the candidate. -/
theorem guides_candidate {session : Nat} {q : DeviceQuery} {f : q.Answer → Device α}
    (right : (DeviceRequest.activate backend profile epoch android).may account.held
      account.view q)
    (quiet : ∀ r, Steady account ⟨account.held, account.view.after q r⟩)
    (known : account.view.candidate = some session)
    (rest : ∀ r later, later.view.candidate = some session →
      Guided (.activate backend profile epoch android) later (f r) (Passes later)) :
    Guided (.activate backend profile epoch android) account (Device.ask q >>= f)
      (Passes account) := by
  refine guides_asking right (fun r => ?_)
  have steady := quiet r
  exact Guides.weaken (rest r _ (steady.candidate.trans known))
    (fun last result => Passes.after steady)

theorem rejected_passes {session : Nat} {failure : DeviceFailure}
    (known : account.view.candidate = some session) :
    Guided (.activate backend profile epoch android) account
      (Device.rejected session failure : Device α) (Passes account) :=
  guides_asking known (fun _ => guides_stop ⟨rfl, rfl⟩)

theorem candidateDeviceIdLocked_passes {session : Nat}
    (known : account.view.candidate = some session) :
    Guided (.activate backend profile epoch android) account
      (Device.candidateDeviceIdLocked session profile) (Passes account) := by
  unfold Device.candidateDeviceIdLocked
  refine guides_candidate known (fun _ => ⟨rfl, rfl, rfl, rfl, rfl, rfl⟩) known
    (fun status later known => ?_)
  split
  · exact rejected_passes known
  refine guides_candidate known (fun _ => Steady.refl _) known (fun valid later known => ?_)
  split
  · exact rejected_passes known
  refine guides_candidate known (fun _ => Steady.refl _) known (fun deviceId later known => ?_)
  refine Guided.passing allocating_passes (fun later _ steady => ?_)
  have known := steady.candidate.trans known
  refine guides_candidate known (fun _ => Steady.refl _) known
    (fun profileName later known => ?_)
  refine Guided.passing allocating_passes (fun later _ steady => ?_)
  have known := steady.candidate.trans known
  refine guides_candidate known (fun _ => Steady.refl _) known (fun interval later known => ?_)
  refine guides_candidate known (fun _ => Steady.refl _) known (fun valid later known => ?_)
  split
  · exact rejected_passes known
  · exact guides_pure (Steady.refl _)

theorem validateCandidateLocked_passes {session : Nat}
    {identity : CoDetectProductionDeviceIdentity}
    (known : account.view.candidate = some session) :
    Guided (.activate backend profile epoch android) account
      (Device.validateCandidateLocked session identity) (Passes account) := by
  unfold Device.validateCandidateLocked
  refine guides_candidate known (fun _ => ⟨rfl, rfl, rfl, rfl, rfl, rfl⟩) known
    (fun status later known => ?_)
  split
  · exact rejected_passes known
  refine guides_candidate known (fun _ => Steady.refl _) known (fun valid later known => ?_)
  split
  · exact rejected_passes known
  refine guides_candidate known (fun _ => Steady.refl _) known (fun deviceId later known => ?_)
  split
  · exact rejected_passes known
  refine guides_candidate known (fun _ => Steady.refl _) known
    (fun profileName later known => ?_)
  split
  · exact rejected_passes known
  refine guides_candidate known (fun _ => Steady.refl _) known (fun interval later known => ?_)
  split
  · exact rejected_passes known
  refine guides_candidate known (fun _ => Steady.refl _) known (fun valid later known => ?_)
  split
  · exact rejected_passes known
  · exact guides_pure (Steady.refl _)

/-- How an activation ends. -/
def Activated (epoch : Nat) (held : List DeviceMutex) (later : DeviceAccount) :
    Except DeviceFailure (Nat × IdentityToken) → Prop
  | .ok bound => later.held = held ∧ later.view.published = some bound ∧
      bound.2.identity.sessionEpoch = epoch
  | .error _ => later.held = held ∧ later.view.published = none

theorem Guided.goesOn {part : Device α} {f : α → Device (Nat × IdentityToken)}
    {held : List DeviceMutex} (same : account.held = held)
    (unpublished : account.view.published = none)
    (first : Guided (.activate backend profile epoch android) account part (Passes account))
    (rest : ∀ later a, Steady account later →
      Guided (.activate backend profile epoch android) later (f a) (Activated epoch held)) :
    Guided (.activate backend profile epoch android) account (part >>= f)
      (Activated epoch held) :=
  Guides.seq first rest
    (fun _ _ passes => ⟨passes.1.trans same, passes.2.trans unpublished⟩)

/-- A section of an activation under the operation mutex of a session. -/
theorem Guided.passesUnder {session : Nat} {body : Device α}
    (guided : Guided (.activate backend profile epoch android)
      ⟨.operation session :: account.held, account.view⟩ body
      (Passes ⟨.operation session :: account.held, account.view⟩)) :
    Guided (.activate backend profile epoch android) account
      (locking (.operation session) body) (Passes account) := by
  refine guides_locking (Guides.weaken guided (fun later result passes => ?_))
  cases result with
  | ok a =>
    refine ⟨passes.held ▸ List.mem_cons_self, ?_, passes.epoch, passes.candidate,
      passes.identity, passes.current, passes.published⟩
    show later.held.erase _ = _
    rw [passes.held, List.erase_cons_head]
  | error e =>
    refine ⟨passes.1 ▸ List.mem_cons_self, ?_, passes.2⟩
    show later.held.erase _ = _
    rw [passes.1, List.erase_cons_head]

/-- How the publication ends, under its two mutexes. -/
def Publishes (next : Nat) (token : IdentityToken) (held : List DeviceMutex)
    (later : DeviceAccount) : Except DeviceFailure Unit → Prop
  | .ok _ => later.held = held ∧ later.view.published = some (next, token)
  | .error _ => later.held = held ∧ later.view.published = none

theorem Publishes.unlock {next : Nat} {token : IdentityToken} {m : DeviceMutex}
    {held : List DeviceMutex} {later : DeviceAccount} {result : Except DeviceFailure Unit}
    (publishes : Publishes next token (m :: held) later result) :
    m ∈ later.held ∧ Publishes next token held
      ⟨later.held.erase m, deviceDiscipline.unlocked later.view m⟩ result := by
  have same : (deviceDiscipline.unlocked later.view m).published = later.view.published := by
    cases m <;> rfl
  cases result with
  | ok _ =>
    obtain ⟨here, published⟩ := publishes
    rw [here]
    exact ⟨List.mem_cons_self, List.erase_cons_head _ _, same.trans published⟩
  | error e =>
    obtain ⟨here, unpublished⟩ := publishes
    rw [here]
    exact ⟨List.mem_cons_self, List.erase_cons_head _ _, same.trans unpublished⟩

theorem publication_guided {previous : Option Nat} {next : Nat}
    {token : IdentityToken} {last : Nat} (unpublished : account.view.published = none)
    (current : account.view.current = some previous)
    (candidate : account.view.candidate = some next)
    (identity : account.view.identity = some token)
    (same : token.identity.sessionEpoch = epoch)
    (read : account.view.epoch = some last) (increases : last < epoch) :
    Guided (.activate backend profile epoch android) account
      (locking (Device.previousMutex previous) (locking (.operation next) (do
        Device.validateCandidateLocked next token.identity
        let _ : Unit ← Device.ask (.publish previous next epoch)
        pure ())))
      (Publishes next token account.held) := by
  refine guides_locking (Guides.weaken ?_ (fun _ _ => Publishes.unlock))
  refine guides_locking (Guides.weaken ?_ (fun _ _ => Publishes.unlock))
  refine Guides.seq (validateCandidateLocked_passes candidate) (fun later _ steady => ?_)
    (fun later e passes => ⟨passes.1, passes.2.trans unpublished⟩)
  refine guides_asking ⟨steady.current.trans current, ?_, ?_, steady.candidate.trans candidate,
    ⟨token, steady.identity.trans identity, same⟩, last, steady.epoch.trans read, increases⟩
    (fun _ => ?_)
  · rw [steady.held]
    exact List.mem_cons_of_mem _ List.mem_cons_self
  · rw [steady.held]
    exact List.mem_cons_self
  · refine guides_pure ⟨steady.held, ?_⟩
    show later.view.identity.map _ = _
    rw [steady.identity.trans identity]
    rfl

/-- From the reading of the current session to the publication. -/
theorem publishing_guided {next : Nat} (token : IdentityToken) {last : Nat}
    (held : account.held = [.lifecycle]) (unpublished : account.view.published = none)
    (candidate : account.view.candidate = some next)
    (identity : account.view.identity = some token)
    (same : token.identity.sessionEpoch = epoch)
    (read : account.view.epoch = some last) (increases : last < epoch) :
    Guided (.activate backend profile epoch android) account (do
        let previous : Option Nat ← Device.ask .current
        locking (Device.previousMutex previous) (locking (.operation next) (do
          Device.validateCandidateLocked next token.identity
          let _ : Unit ← Device.ask (.publish previous next epoch)
          pure ()))
        pure (next, token))
      (Activated epoch [.lifecycle]) := by
  have locked : .lifecycle ∈ account.held := held ▸ List.mem_cons_self
  refine guides_asking locked (fun previous => ?_)
  refine Guides.seq (publication_guided unpublished rfl candidate identity same read increases)
    (fun later _ publishes => ?_) (fun later e publishes => ?_)
  · exact guides_pure ⟨publishes.1.trans held, publishes.2, same⟩
  · exact ⟨publishes.1.trans held, publishes.2⟩

/-- From the identity on. -/
theorem identifying_guided {next : Nat} {identity : CoDetectProductionDeviceIdentity}
    {last : Nat} (held : account.held = [.lifecycle])
    (unpublished : account.view.published = none)
    (candidate : account.view.candidate = some next)
    (anonymous : account.view.identity = none) (same : identity.sessionEpoch = epoch)
    (read : account.view.epoch = some last) (increases : last < epoch) :
    Guided (.activate backend profile epoch android) account (do
        let address : Nat ← Device.ask (.makeIdentity next identity)
        Device.allocating
        let previous : Option Nat ← Device.ask .current
        locking (Device.previousMutex previous) (locking (.operation next) (do
          Device.validateCandidateLocked next identity
          let _ : Unit ← Device.ask (.publish previous next epoch)
          pure ()))
        pure (next, ⟨address, identity⟩))
      (Activated epoch [.lifecycle]) := by
  refine guides_asking ⟨candidate, anonymous⟩ (fun address => ?_)
  refine Guided.goesOn held unpublished allocating_passes (fun later _ steady => ?_)
  have bound : later.view.identity = some ⟨address, identity⟩ := steady.identity
  exact publishing_guided ⟨address, identity⟩ (steady.held.trans held)
    (steady.published.trans unpublished) (steady.candidate.trans candidate) bound same
    (steady.epoch.trans read) increases

theorem activate_guided :
    Guided (.activate backend profile epoch android) ⟨[], .blank⟩
      (Device.activate backend profile epoch android) (Activated epoch []) := by
  cases backend with
  | none => exact guides_stop ⟨rfl, rfl⟩
  | some backend =>
    simp only [Device.activate]
    split
    · exact guides_stop ⟨rfl, rfl⟩
    have unlocks {later : DeviceAccount} {result : Except DeviceFailure (Nat × IdentityToken)}
        (ended : Activated epoch [.lifecycle] later result) :
        .lifecycle ∈ later.held ∧ Activated epoch []
          ⟨later.held.erase .lifecycle, deviceDiscipline.unlocked later.view .lifecycle⟩
          result := by
      cases result with
      | ok bound =>
        obtain ⟨held, published, same⟩ := ended
        rw [held]
        exact ⟨List.mem_cons_self, rfl, published, same⟩
      | error e =>
        obtain ⟨held, unpublished⟩ := ended
        rw [held]
        exact ⟨List.mem_cons_self, rfl, unpublished⟩
    refine guides_locking (Guides.weaken ?_ (fun _ _ => unlocks))
    refine guides_asking List.mem_cons_self (fun last => ?_)
    split
    · exact guides_stop ⟨rfl, rfl⟩
    rename_i increases
    refine Guided.goesOn rfl rfl allocating_passes (fun one _ begun => ?_)
    have lifecycle : .lifecycle ∈ one.held := begun.held ▸ List.mem_cons_self
    refine guides_asking lifecycle (fun next => ?_)
    refine Guided.goesOn begun.held begun.published
      (Guided.passesUnder (candidateDeviceIdLocked_passes rfl)) (fun two deviceId made => ?_)
    refine Guided.goesOn (made.held.trans begun.held) (made.published.trans begun.published)
      allocating_passes (fun three _ named => ?_)
    have steady := made.trans named
    exact identifying_guided (steady.held.trans begun.held)
      (steady.published.trans begun.published) steady.candidate steady.identity rfl
      (steady.epoch.trans begun.epoch) (Nat.lt_of_not_le increases)

end Activation

theorem invalidate_guided :
    Guided .invalidate ⟨[], .blank⟩ Device.invalidate
      (fun later result => result = .ok () ∧ later.held = [] ∧ later.view.cleared = true) := by
  refine guides_locking (guides_asking List.mem_cons_self (fun previous => ?_))
  cases previous with
  | none => exact guides_pure ⟨List.mem_cons_self, rfl, rfl, rfl⟩
  | some previous =>
    refine guides_locking (guides_asking ⟨rfl, List.mem_cons_self⟩ (fun _ => guides_pure ?_))
    refine ⟨List.mem_cons_self, ?_⟩
    show DeviceMutex.lifecycle ∈ List.erase (_ :: [DeviceMutex.lifecycle]) _ ∧ _
    rw [List.erase_cons_head]
    exact ⟨List.mem_cons_self, rfl, rfl, rfl⟩

theorem request_guided (request : DeviceRequest) :
    deviceDiscipline.keptBy request ⟨[], .blank⟩ request.program := by
  cases request with
  | activate backend profile epoch android =>
    refine Guides.seq activate_guided (fun later bound ended => ?_) (fun later e ended => ended)
    exact guides_pure ended
  | invalidate =>
    refine Guides.seq invalidate_guided (fun later _ ended => guides_pure ended.2)
      (fun later e ended => by cases ended.1)
  | port session operation => exact operation_guided operation

end Baas.Procedure
