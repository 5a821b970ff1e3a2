import Baas.Lib.Threads
import Baas.Procedure.CoDetect

/-! The owner of the device sessions: the operations of its ports, and the calls that activate
and invalidate a session, each as the program of one call among others. -/
namespace Baas.Procedure

open Threads

def maximumWaitMs : Nat := 60000 * 64

def coDetectWidth : Nat := 1280

def coDetectHeight : Nat := 720

def coDetectRowStride : Nat := coDetectWidth * 3

def coDetectFrameBytes : Nat := coDetectRowStride * coDetectHeight

def coDetectProfileName : CoDetectProfile → String
  | .cn => "CN"
  | .jp => "JP"
  | .globalEnUs => "Global_en-us"
  | .globalZhTw => "Global_zh-tw"
  | .globalKoKr => "Global_ko-kr"

structure CoDetectProductionDeviceIdentity where
  deviceId : String
  profile : CoDetectProfile
  sessionEpoch : Nat
  android : Bool
deriving DecidableEq

/-- An identity object behind its pointer. -/
structure IdentityToken where
  address : Nat
  identity : CoDetectProductionDeviceIdentity
deriving DecidableEq

/-- A buffer, by its number: only its size is looked at. -/
structure Pixels where
  buffer : Nat
  size : Nat
deriving DecidableEq

structure RawFrame where
  width : Nat
  height : Nat
  rowStride : Nat
  pixels : Pixels
deriving DecidableEq

structure BgrFrame where
  identity : Option Nat
  width : Nat
  height : Nat
  rowStride : Nat
  pixels : Option Pixels
deriving DecidableEq

def validDeviceId (value : String) : Bool :=
  value ≠ "" && value.utf8ByteSize ≤ 1024 && !value.toList.contains (Char.ofNat 0)

def validProfile (profile : CoDetectProfile) : Bool := coDetectProfileName profile ≠ ""

def validFrame (frame : RawFrame) : Bool :=
  frame.width = coDetectWidth && frame.height = coDetectHeight &&
    frame.rowStride = coDetectRowStride && frame.pixels.size = coDetectFrameBytes

def validPublishedFrame (frame : BgrFrame) (identity : Option IdentityToken) : Bool :=
  frame.identity.isSome && frame.identity = identity.map IdentityToken.address &&
    frame.width = coDetectWidth && frame.height = coDetectHeight &&
    frame.rowStride = coDetectRowStride &&
    frame.pixels.map Pixels.size = some coDetectFrameBytes

inductive SessionStatus
  | candidate | current | tombstoned | retired
deriving DecidableEq

structure Session where
  backend : Nat
  identity : Option IdentityToken
  status : SessionStatus
  latest : Option BgrFrame

/-- What the calls share. A session is named by its place among those ever made, and a port by
its session. -/
structure DeviceOwner where
  sessions : List Session
  current : Option Nat
  lastEpoch : Nat
  nextAddress : Nat

inductive DeviceMutex
  | lifecycle
  | unused
  | operation (session : Nat)
  | wait (session : Nat)
deriving DecidableEq

/-- `capture` and `captured` are where a capture enters the backend and where it leaves it. -/
inductive BackendCall
  | identityValid | deviceId | profileName | screenshotIntervalMs
  | capture | captured | click (click : CoDetectClick) | foregroundMatches
deriving DecidableEq

abbrev BackendCall.Answer : BackendCall → Type
  | identityValid => Bool
  | deviceId => String
  | profileName => String
  | screenshotIntervalMs => Nat
  | capture => Unit
  | captured => Operated RawFrame
  | click _ => Operated Unit
  | foregroundMatches => Operated Bool

/-- What a call reads and writes. Each section of the code under `current_mutex_` is one of
these: `isCurrent`, `current`, `publish` and `withdraw`. -/
inductive DeviceQuery
  | poll
  | allocate
  | backend (session : Nat) (call : BackendCall)
  | status (session : Nat)
  | isCurrent (session : Nat)
  | tombstone (session : Nat)
  | identity (session : Nat)
  | latest (session : Nat)
  | storeLatest (session : Nat) (frame : BgrFrame)
  | lastEpoch
  | makeSession (backend : Nat)
  | reject (session : Nat)
  | makeIdentity (session : Nat) (identity : CoDetectProductionDeviceIdentity)
  | current
  | publish (previous : Option Nat) (next : Nat) (epoch : Nat)
  | withdraw (previous : Nat)
deriving DecidableEq

abbrev DeviceQuery.Answer : DeviceQuery → Type
  | poll => CoDetectControlState
  | allocate => Bool
  | backend _ call => call.Answer
  | status _ => SessionStatus
  | isCurrent _ => Bool
  | tombstone _ => Unit
  | identity _ => Option IdentityToken
  | latest _ => Option BgrFrame
  | storeLatest _ _ => Unit
  | lastEpoch => Nat
  | makeSession _ => Nat
  | reject _ => Unit
  | makeIdentity _ _ => Nat
  | current => Option Nat
  | publish _ _ _ => Unit
  | withdraw _ => Unit

/-- What a call throws. -/
inductive DeviceFailure
  | badAlloc
  | invalidArgument (message : String)
  | other
deriving DecidableEq

abbrev Device (α : Type) := Thread DeviceMutex DeviceQuery DeviceQuery.Answer DeviceFailure α

namespace Device

def ask (query : DeviceQuery) : Device query.Answer := asking query

/-- What may throw `bad_alloc`. -/
def allocating : Device Unit := do
  let allocated : Bool ← ask .allocate
  if allocated then pure () else .stop .badAlloc

/-! The operations of the port of a session. -/

section Port

variable (session : Nat)

def sessionErrorLocked : Device (Option CoDetectOperationError) := do
  let status : SessionStatus ← ask (.status session)
  if status ≠ .current then pure (some .sessionChanged)
  else
    let here : Bool ← ask (.isCurrent session)
    if here = false then pure (some .sessionChanged)
    else
      let valid : Bool ← ask (.backend session .identityValid)
      if valid = false then
        let _ : Unit ← ask (.tombstone session)
        pure (some .sessionChanged)
      else pure none

/-- `guard`. -/
def guarded : Device (Option CoDetectOperationError) := do
  let state : CoDetectControlState ← ask .poll
  if state = .proceed then sessionErrorLocked session
  else pure (some (CoDetect.controlError state))

def probe : Device (Option CoDetectOperationError) :=
  locking (.operation session) (guarded session)

def currentIdentity : Device (Option IdentityToken) :=
  locking (.operation session) (do
    let error ← sessionErrorLocked session
    if error.isSome then pure none else ask (.identity session))

def screenshotIntervalMs : Device Nat :=
  locking (.operation session) (do
    let error ← sessionErrorLocked session
    if error.isSome then pure 0
    else
      let value : Nat ← ask (.backend session .screenshotIntervalMs)
      let error ← sessionErrorLocked session
      if error.isSome then pure 0
      else if 1 ≤ value ∧ value ≤ 60000 then pure value
      else pure 0)

def latestFrame : Device (Option BgrFrame) :=
  locking (.operation session) (do
    let error ← sessionErrorLocked session
    if error.isSome then pure none
    else
      let latest : Option BgrFrame ← ask (.latest session)
      match latest with
      | none => pure none
      | some frame =>
        let identity : Option IdentityToken ← ask (.identity session)
        if validPublishedFrame frame identity then pure (some frame) else pure none)

def publishLatestFrame (frame : Option BgrFrame) : Device Bool :=
  locking (.operation session) (do
    match frame with
    | none => pure false
    | some frame =>
      let error ← sessionErrorLocked session
      if error.isSome then pure false
      else
        let identity : Option IdentityToken ← ask (.identity session)
        if validPublishedFrame frame identity then
          let _ : Unit ← ask (.storeLatest session frame)
          pure true
        else pure false)

/-- What comes out of the backend. -/
def received {α : Type} : Operated α → Device (Except CoDetectOperationError α)
  | .value a => pure (.ok a)
  | .failed error => pure (.error error)
  | .threw .badAlloc => .stop .badAlloc
  | .threw _ => .stop .other

/-- The handlers at the end of an operation. -/
def handled {α : Type} (body : Device (Except CoDetectOperationError α)) :
    Device (Except CoDetectOperationError α) :=
  body.catching (fun failure =>
    match failure with
    | .badAlloc => pure (.error .resourceExhausted)
    | _ => pure (.error .internal))

/-- `valid_frame` and what a capture makes of a frame that is. -/
def store (raw : RawFrame) : Device (Except CoDetectOperationError BgrFrame) :=
  if validFrame raw = false then pure (.error .unavailable)
  else do
    allocating
    let identity : Option IdentityToken ← ask (.identity session)
    let result : BgrFrame := ⟨identity.map IdentityToken.address, coDetectWidth, coDetectHeight,
      coDetectRowStride, some raw.pixels⟩
    allocating
    let error ← guarded session
    match error with
    | some error => pure (.error error)
    | none =>
      let _ : Unit ← ask (.storeLatest session result)
      pure (.ok result)

/-- The backend runs the checkpoint as often as it likes, and may pay no heed to it. -/
def capture (checkpoints : Nat) : Device (Except CoDetectOperationError BgrFrame) :=
  handled (locking (.operation session) (do
    let error ← guarded session
    match error with
    | some error => pure (.error error)
    | none =>
      let _ : Unit ← ask (.backend session .capture)
      Interaction.repeated (fun _ => do
        let _ ← guarded session
        pure ()) checkpoints ()
      let captured : Operated RawFrame ← ask (.backend session .captured)
      let captured ← received captured
      let error ← guarded session
      match error, captured with
      | some error, _ => pure (.error error)
      | none, .error error => pure (.error error)
      | none, .ok raw => store session raw))

/-- A call of the backend between two guards. -/
def effect {α : Type} (operation : Device (Operated α)) :
    Device (Except CoDetectOperationError α) :=
  handled (locking (.operation session) (do
    let error ← guarded session
    match error with
    | some error => pure (.error error)
    | none =>
      let result ← operation
      let result ← received result
      let error ← guarded session
      match error with
      | some error => pure (.error error)
      | none => pure result))

def click (click : CoDetectClick) : Device (Except CoDetectOperationError Unit) :=
  if click.matchOnly ∨ (coDetectWidth : Int) < click.x ∨ (coDetectHeight : Int) < click.y then
    pure (.error .unavailable)
  else effect session (ask (.backend session (.click click)))

def foregroundMatches : Device (Except CoDetectOperationError Bool) :=
  effect session (ask (.backend session .foregroundMatches))

/-- The loop of `wait`: `wait_for` lets the wait mutex go and takes it again. -/
def waitSlices : Nat → Device (Except CoDetectOperationError Unit)
  | 0 => do
    let error ← probe session
    match error with
    | some error => pure (.error error)
    | none => pure (.ok ())
  | slices + 1 => do
    let error ← probe session
    match error with
    | some error => pure (.error error)
    | none =>
      let _ : Unit ← unlock (.wait session)
      let _ : Unit ← lock (.wait session)
      waitSlices slices

/-- The clock lets the loop go round so many times. -/
def wait (milliseconds slices : Nat) : Device (Except CoDetectOperationError Unit) :=
  if maximumWaitMs < milliseconds then pure (.error .unavailable)
  else do
    let error ← probe session
    match error with
    | some error => pure (.error error)
    | none => locking (.wait session) (waitSlices session slices)

end Port

/-! The owner. -/

def bindingInvalid : DeviceFailure := .invalidArgument "invalid BAAS co-detect device binding"

def bindingChanged : DeviceFailure :=
  .invalidArgument "BAAS co-detect binding changed before publication"

def rejected {α : Type} (session : Nat) (failure : DeviceFailure) : Device α := do
  let _ : Unit ← ask (.reject session)
  .stop failure

def candidateDeviceIdLocked (session : Nat) (profile : CoDetectProfile) : Device String := do
  let status : SessionStatus ← ask (.status session)
  if status ≠ .candidate then rejected session bindingInvalid
  else
    let valid : Bool ← ask (.backend session .identityValid)
    if valid = false then rejected session bindingInvalid
    else
      let deviceId : String ← ask (.backend session .deviceId)
      allocating
      let profileName : String ← ask (.backend session .profileName)
      allocating
      let interval : Nat ← ask (.backend session .screenshotIntervalMs)
      let valid : Bool ← ask (.backend session .identityValid)
      if valid = false ∨ validDeviceId deviceId = false ∨
          profileName ≠ coDetectProfileName profile ∨ interval < 1 ∨ 60000 < interval then
        rejected session bindingInvalid
      else pure deviceId

def validateCandidateLocked (session : Nat) (identity : CoDetectProductionDeviceIdentity) :
    Device Unit := do
  let status : SessionStatus ← ask (.status session)
  if status ≠ .candidate then rejected session bindingChanged
  else
    let valid : Bool ← ask (.backend session .identityValid)
    if valid = false then rejected session bindingChanged
    else
      let deviceId : String ← ask (.backend session .deviceId)
      if deviceId ≠ identity.deviceId then rejected session bindingChanged
      else
        let profileName : String ← ask (.backend session .profileName)
        if profileName ≠ coDetectProfileName identity.profile then
          rejected session bindingChanged
        else
          let interval : Nat ← ask (.backend session .screenshotIntervalMs)
          if interval < 1 ∨ 60000 < interval then rejected session bindingChanged
          else
            let valid : Bool ← ask (.backend session .identityValid)
            if valid = false then rejected session bindingChanged else pure ()

/-- The operation mutex of the session before, or the one that stands for it. -/
def previousMutex : Option Nat → DeviceMutex
  | none => .unused
  | some previous => .operation previous

def activate (backend : Option Nat) (profile : CoDetectProfile) (epoch : Nat) (android : Bool) :
    Device (Nat × IdentityToken) :=
  match backend with
  | none => .stop bindingInvalid
  | some backend =>
    if android = false ∨ epoch = 0 ∨ validProfile profile = false then .stop bindingInvalid
    else locking .lifecycle (do
      let last : Nat ← ask .lastEpoch
      if epoch ≤ last then
        .stop (.invalidArgument "BAAS co-detect epoch must strictly increase")
      else
        allocating
        let next : Nat ← ask (.makeSession backend)
        let deviceId ← locking (.operation next) (candidateDeviceIdLocked next profile)
        allocating
        let identity : CoDetectProductionDeviceIdentity := ⟨deviceId, profile, epoch, true⟩
        let address : Nat ← ask (.makeIdentity next identity)
        allocating
        let previous : Option Nat ← ask .current
        locking (previousMutex previous) (locking (.operation next) (do
          validateCandidateLocked next identity
          let _ : Unit ← ask (.publish previous next epoch)
          pure ()))
        pure (next, ⟨address, identity⟩))

def invalidate : Device Unit :=
  locking .lifecycle (do
    let previous : Option Nat ← ask .current
    match previous with
    | none => pure ()
    | some previous =>
      locking (.operation previous) (do
        let _ : Unit ← ask (.withdraw previous)
        pure ()))

end Device

/-- `checkpoints` and `slices` are how often the backend of a capture runs its checkpoint and
how often the clock lets a wait go round. -/
inductive PortOperation
  | currentIdentity
  | screenshotIntervalMs
  | latestFrame
  | publishLatestFrame (frame : Option BgrFrame)
  | capture (checkpoints : Nat)
  | click (click : CoDetectClick)
  | wait (milliseconds slices : Nat)
  | foregroundMatches
deriving DecidableEq

inductive DeviceRequest
  | activate (backend : Option Nat) (profile : CoDetectProfile) (epoch : Nat) (android : Bool)
  | invalidate
  | port (session : Nat) (operation : PortOperation)
deriving DecidableEq

inductive DeviceOutcome
  | bound (session : Nat) (identity : IdentityToken)
  | invalidated
  | identity (token : Option IdentityToken)
  | intervalMs (value : Nat)
  | latest (frame : Option BgrFrame)
  | published (done : Bool)
  | captured (result : Except CoDetectOperationError BgrFrame)
  | finished (result : Except CoDetectOperationError Unit)
  | foreground (result : Except CoDetectOperationError Bool)

def DeviceOutcome.succeeded : DeviceOutcome → Bool
  | bound _ _ => true
  | invalidated => true
  | identity token => token.isSome
  | intervalMs value => value ≠ 0
  | latest frame => frame.isSome
  | published done => done
  | captured result => result.isOk
  | finished result => result.isOk
  | foreground result => result.isOk

open Device

def PortOperation.program (session : Nat) : PortOperation → Device DeviceOutcome
  | currentIdentity => Device.currentIdentity session >>= fun r => pure (.identity r)
  | screenshotIntervalMs => Device.screenshotIntervalMs session >>= fun r => pure (.intervalMs r)
  | latestFrame => Device.latestFrame session >>= fun r => pure (.latest r)
  | publishLatestFrame frame =>
    Device.publishLatestFrame session frame >>= fun r => pure (.published r)
  | capture checkpoints => Device.capture session checkpoints >>= fun r => pure (.captured r)
  | click target => Device.click session target >>= fun r => pure (.finished r)
  | wait milliseconds slices =>
    Device.wait session milliseconds slices >>= fun r => pure (.finished r)
  | foregroundMatches => Device.foregroundMatches session >>= fun r => pure (.foreground r)

def DeviceRequest.program : DeviceRequest → Device DeviceOutcome
  | activate backend profile epoch android => do
    let (session, identity) ← Device.activate backend profile epoch android
    pure (.bound session identity)
  | invalidate => Device.invalidate >>= fun _ => pure .invalidated
  | port session operation => operation.program session

namespace DeviceOwner

def change (owner : DeviceOwner) (session : Nat) (f : Session → Session) : DeviceOwner :=
  { owner with sessions := owner.sessions.modify session f }

def identityOf (owner : DeviceOwner) (session : Nat) : Option IdentityToken :=
  owner.sessions[session]?.bind Session.identity

def isCurrent (owner : DeviceOwner) (session : Nat) : Bool :=
  owner.current = some session &&
    owner.current.bind owner.identityOf = owner.identityOf session

def retire (owner : DeviceOwner) (session : Nat) : DeviceOwner :=
  owner.change session (fun s => { s with status := .retired, latest := none })

def retirePrevious (owner : DeviceOwner) : Option Nat → DeviceOwner
  | none => owner
  | some previous => owner.retire previous

def start : DeviceOwner := ⟨[], none, 0, 0⟩

end DeviceOwner

/-- What the environment answers: the control, the allocator and the backends. -/
structure DeviceInput where
  poll : CoDetectControlState
  allocated : Bool
  backend : (call : BackendCall) → call.Answer

def DeviceOwner.reply (owner : DeviceOwner) (input : DeviceInput) :
    (query : DeviceQuery) → query.Answer
  | .poll => input.poll
  | .allocate => input.allocated
  | .backend _ call => input.backend call
  | .status session => (owner.sessions[session]?.map Session.status).getD .candidate
  | .isCurrent session => owner.isCurrent session
  | .tombstone _ => ()
  | .identity session => owner.identityOf session
  | .latest session => owner.sessions[session]?.bind Session.latest
  | .storeLatest _ _ => ()
  | .lastEpoch => owner.lastEpoch
  | .makeSession _ => owner.sessions.length
  | .reject _ => ()
  | .makeIdentity _ _ => owner.nextAddress
  | .current => owner.current
  | .publish _ _ _ => ()
  | .withdraw _ => ()

def DeviceOwner.effect (owner : DeviceOwner) : (query : DeviceQuery) → query.Answer → DeviceOwner
  | .tombstone session, _ =>
    owner.change session (fun s => { s with status := .tombstoned, latest := none })
  | .storeLatest session frame, _ =>
    owner.change session (fun s => { s with latest := some frame })
  | .makeSession backend, _ =>
    { owner with sessions := owner.sessions ++ [⟨backend, none, .candidate, none⟩] }
  | .reject session, _ => owner.change session (fun s => { s with status := .tombstoned })
  | .makeIdentity session identity, address =>
    { owner.change session (fun s => { s with identity := some ⟨address, identity⟩ }) with
      nextAddress := owner.nextAddress + 1 }
  | .publish previous next epoch, _ =>
    { (owner.retirePrevious previous).change next (fun s => { s with status := .current }) with
      current := some next, lastEpoch := epoch }
  | .withdraw previous, _ =>
    if owner.current = some previous then { owner.retire previous with current := none } else owner
  | _, _ => owner

/-- Operations are begun on ports that an activation has returned. -/
def DeviceRequest.offered (results : List (Except DeviceFailure DeviceOutcome)) :
    DeviceRequest → Bool
  | port session _ => results.any (fun result =>
    match result with
    | .ok (.bound bound _) => bound = session
    | _ => false)
  | _ => true

def deviceMachine : Machine DeviceMutex DeviceQuery DeviceQuery.Answer DeviceFailure
    DeviceOutcome DeviceRequest DeviceOwner DeviceInput where
  start := .start
  offered := DeviceRequest.offered
  program := DeviceRequest.program
  reply := DeviceOwner.reply
  effect := DeviceOwner.effect

end Baas.Procedure
