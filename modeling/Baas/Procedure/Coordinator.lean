import Mathlib.Data.String.Basic
import Baas.Lib.OrderedMap
import Baas.Lib.Transition

/-! The coordinator of the physical devices: its table, the critical sections of `acquire`,
`release` and `shutdown`, and the leases and waiting calls around it. -/
namespace Baas.Procedure

structure CoordinatorLimits where
  maxDevices : Nat
  maxWaiters : Nat
  maxDeviceIdBytes : Nat
  maxAdmissionDepth : Nat
deriving DecidableEq

inductive AcquireCode
  | acquired
  | cancelled
  | deadlineExceeded
  | reentrant
  | backpressure
  | shutdown
  | invalidDeviceId
deriving DecidableEq

def validDeviceIdCharacter (c : Char) : Bool :=
  c.isAlphanum || c = '-' || c = '_' || c = '.' || c = ':'

def validPhysicalDeviceId (value : String) (maxBytes : Nat) : Bool :=
  value ≠ "" && value.utf8ByteSize ≤ maxBytes && value ≠ "." && value ≠ ".." &&
    value.toList.all validDeviceIdCharacter

structure DeviceState where
  busy : Bool
  owner : Option Nat
  waiters : List Nat
deriving DecidableEq

def DeviceState.idle : DeviceState := ⟨false, none, []⟩

structure Coordinator where
  devices : OrderedMap String DeviceState
  nextTicket : Nat
  waiterCount : Nat
  stopping : Bool

/-- What the cancellation probe answers. -/
structure Polls where
  deadline : Bool
  cancelled : Bool

/-- Which allocations go well: of an entry of the table, of a ticket's place in the queue, of
the parts of an acquisition. -/
structure Allocations where
  entry : Bool
  ticket : Bool
  acquisition : Bool

/-- How a critical section of `acquire` ends. -/
inductive Ended
  | returned (code : AcquireCode)
  | threw
  | granted
  | queued (ticket : Nat)
deriving DecidableEq

namespace Coordinator

def set (c : Coordinator) (device : String) (state : DeviceState) : Coordinator :=
  { c with devices := c.devices.insert device state }

def drop (c : Coordinator) (device : String) : Coordinator :=
  { c with devices := c.devices.erase device }

/-- `acquire` from the entry of the device to the loop. `depth` counts the active nodes of the
parent's lineage, `reentrant` says whether one of them is of this coordinator and device. -/
def queue (limits : CoordinatorLimits) (c : Coordinator) (state : DeviceState) (thread : Nat)
    (device : String) (reentrant : Bool) (depth : Nat) (allocations : Allocations) :
    Coordinator × Ended :=
  if reentrant then (c, .returned .reentrant)
  else if state.busy ∧ state.owner = some thread then (c, .returned .reentrant)
  else if limits.maxAdmissionDepth ≤ depth then (c, .returned .backpressure)
  else if state.busy = false ∧ state.waiters = [] then
    if allocations.acquisition then
      (c.set device { state with busy := true, owner := some thread }, .granted)
    else (c, .threw)
  else if limits.maxWaiters ≤ c.waiterCount then (c, .returned .backpressure)
  else if allocations.ticket then
    ({ c.set device { state with waiters := state.waiters ++ [c.nextTicket] } with
        nextTicket := c.nextTicket + 1, waiterCount := c.waiterCount + 1 },
      .queued c.nextTicket)
  else ({ c with nextTicket := c.nextTicket + 1 }, .threw)

/-- The first critical section of `acquire`, up to the loop. -/
def enter (limits : CoordinatorLimits) (c : Coordinator) (thread : Nat) (device : String)
    (reentrant : Bool) (depth : Nat) (allocations : Allocations) : Coordinator × Ended :=
  if c.stopping then (c, .returned .shutdown)
  else match c.devices.find? device with
    | some state => c.queue limits state thread device reentrant depth allocations
    | none =>
      if limits.maxDevices ≤ c.devices.size then (c, .returned .backpressure)
      else if allocations.entry then
        (c.set device .idle).queue limits .idle thread device reentrant depth allocations
      else (c, .threw)

/-- `cancel_wait`. -/
def cancelWait (c : Coordinator) (device : String) (ticket : Nat) : Coordinator :=
  match c.devices.find? device with
  | none => c
  | some state =>
    let waiters := state.waiters.erase ticket
    let count := if ticket ∈ state.waiters then c.waiterCount - 1 else c.waiterCount
    if state.busy = false ∧ waiters = [] then { c.drop device with waiterCount := count }
    else { c.set device { state with waiters } with waiterCount := count }

/-- The body of the loop, from one wait to the next. `queued` is that it waits again. -/
def turn (c : Coordinator) (thread : Nat) (device : String) (ticket : Nat) (polls : Polls)
    (allocations : Allocations) : Coordinator × Ended :=
  if polls.deadline then (c.cancelWait device ticket, .returned .deadlineExceeded)
  else if polls.cancelled then (c.cancelWait device ticket, .returned .cancelled)
  else if c.stopping then (c.cancelWait device ticket, .returned .shutdown)
  else match c.devices.find? device with
    | none => (c, .queued ticket)
    | some state =>
      if state.busy = false ∧ state.waiters.head? = some ticket then
        if allocations.acquisition then
          ({ c.set device ⟨true, some thread, state.waiters.tail⟩ with
              waiterCount := c.waiterCount - 1 }, .granted)
        else (c.cancelWait device ticket, .threw)
      else (c, .queued ticket)

def release (c : Coordinator) (device : String) : Coordinator :=
  match c.devices.find? device with
  | none => c
  | some state =>
    if state.waiters = [] then c.drop device
    else c.set device { state with busy := false, owner := none }

def shutdown (c : Coordinator) : Coordinator := { c with stopping := true }

end Coordinator

/-! Around the coordinator. -/

/-- An armed lease. It stops being active when its destructor starts, and is gone when the
device is released. -/
structure Lease where
  id : Nat
  device : String
  active : Bool
deriving DecidableEq

/-- A node of an admission token: a lease of this coordinator, or one of another. -/
inductive Node
  | ours (lease : Nat)
  | theirs (node : Nat)
deriving DecidableEq

structure Request where
  thread : Nat
  device : String
  lineage : List Node

/-- A call that waits in the loop of `acquire`. -/
structure Waiting where
  ticket : Nat
  thread : Nat
  device : String
deriving DecidableEq

structure World where
  coordinator : Coordinator
  leases : List Lease
  nextLease : Nat
  calls : List Waiting

def World.start : World := ⟨⟨.empty, 1, 0, false⟩, [], 0, []⟩

/-- `others` says which nodes of other coordinators are active. -/
def World.active (w : World) (others : Nat → Bool) : Node → Bool
  | .ours lease => w.leases.any (fun l => l.id = lease && l.active)
  | .theirs node => others node

/-- Whether a lineage has an active lease of the device. -/
def World.reenters (w : World) (device : String) (lineage : List Node) : Bool :=
  w.leases.any (fun l => l.active && l.device = device && lineage.contains (.ours l.id))

def World.depth (w : World) (others : Nat → Bool) (lineage : List Node) : Nat :=
  (lineage.filter (w.active others)).length

/-- How a step of a call ends. -/
inductive Answer
  | returned (code : AcquireCode)
  | threw
  | acquired (lease : Nat)
  | waits (ticket : Nat)
deriving DecidableEq

/-- What the caller has after a critical section: a lease, or a place among the waiting. -/
def World.settle (w : World) (call : Waiting) (rest : List Waiting) :
    Coordinator × Ended → Answer × World
  | (c, .returned code) => (.returned code, { w with coordinator := c, calls := rest })
  | (c, .threw) => (.threw, { w with coordinator := c, calls := rest })
  | (c, .granted) => (.acquired w.nextLease, { w with
      coordinator := c, calls := rest, nextLease := w.nextLease + 1
      leases := w.leases ++ [⟨w.nextLease, call.device, true⟩] })
  | (c, .queued _) => (.waits call.ticket, { w with coordinator := c, calls := w.calls })

/-- A call goes through its first critical section. A ticket that it gets goes through the loop
once before it waits. -/
def World.enter (limits : CoordinatorLimits) (w : World) (request : Request)
    (others : Nat → Bool) (polls : Polls) (allocations : Allocations) : Answer × World :=
  match w.coordinator.enter limits request.thread request.device
      (w.reenters request.device request.lineage) (w.depth others request.lineage)
      allocations with
  | (c, .queued ticket) =>
    let call : Waiting := ⟨ticket, request.thread, request.device⟩
    { w with calls := w.calls ++ [call] }.settle call w.calls
      (c.turn request.thread request.device ticket polls allocations)
  | (c, ended) => w.settle ⟨0, request.thread, request.device⟩ w.calls (c, ended)

/-- A waiting call wakes up. -/
def World.wake (w : World) (call : Waiting) (polls : Polls) (allocations : Allocations) :
    Answer × World :=
  w.settle call (w.calls.erase call)
    (w.coordinator.turn call.thread call.device call.ticket polls allocations)

/-- The destructor of a lease starts. -/
def World.disarm (w : World) (lease : Nat) : World :=
  { w with leases := w.leases.map (fun l => if l.id = lease then { l with active := false } else l) }

def World.release (w : World) (lease : Lease) : World :=
  { w with coordinator := w.coordinator.release lease.device, leases := w.leases.erase lease }

inductive Label
  /-- Before the lock: the device is invalid, or the probe has answered. -/
  | refuse (request : Request) (polls : Polls) (code : AcquireCode)
  | enter (request : Request) (others : Nat → Bool) (polls : Polls)
      (allocations : Allocations) (answer : Answer)
  | wake (call : Waiting) (polls : Polls) (allocations : Allocations) (answer : Answer)
  | disarm (lease : Nat)
  | release (lease : Lease)
  | shutdown

/-- What `acquire` returns before it has the lock. -/
def refusal (limits : CoordinatorLimits) (request : Request) (polls : Polls) :
    Option AcquireCode :=
  if !validPhysicalDeviceId request.device limits.maxDeviceIdBytes then some .invalidDeviceId
  else if polls.deadline then some .deadlineExceeded
  else if polls.cancelled then some .cancelled
  else none

inductive Step (limits : CoordinatorLimits) : World → Label → World → Prop
  | refuse {w : World} {request : Request} {polls : Polls} {code : AcquireCode} :
      refusal limits request polls = some code →
      Step limits w (.refuse request polls code) w
  | enter {w : World} {request : Request} {others : Nat → Bool} {polls : Polls}
      {allocations : Allocations} :
      validPhysicalDeviceId request.device limits.maxDeviceIdBytes = true →
      Step limits w
        (.enter request others polls allocations (w.enter limits request others polls allocations).1)
        (w.enter limits request others polls allocations).2
  | wake {w : World} {call : Waiting} {polls : Polls} {allocations : Allocations} :
      call ∈ w.calls →
      Step limits w (.wake call polls allocations (w.wake call polls allocations).1)
        (w.wake call polls allocations).2
  | disarm {w : World} {lease : Nat} : Step limits w (.disarm lease) (w.disarm lease)
  | release {w : World} {lease : Lease} : lease ∈ w.leases → lease.active = false →
      Step limits w (.release lease) (w.release lease)
  | shutdown {w : World} :
      Step limits w .shutdown { w with coordinator := w.coordinator.shutdown }

/-- Any number of callers on one coordinator. -/
def system (limits : CoordinatorLimits) : Transition.System World Label where
  start w := w = .start
  step := Step limits

end Baas.Procedure
