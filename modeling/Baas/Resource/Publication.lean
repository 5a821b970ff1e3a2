import Mathlib.Data.List.Basic
import Mathlib.Logic.Function.Basic
import Mathlib.Algebra.Group.Nat.Defs
import Baas.Lib.OrderedMap
import Baas.Lib.Transition

/-! The delivery of updates: `PublicationJob`s in a linked queue, drained by one thread at
a time. A step is one section under a lock, or what a thread does alone between two of
them. A thread that runs a callback may enter the store again, so each thread has a stack
of the calls it is in, innermost first. -/
namespace Baas.Resource.Publication

open Transition

abbrev Thread := Nat
abbrev SlotRef := Nat
abbrev JobRef := Nat

structure SubscriberSlot where
  accepting : Bool := true
  entered : Nat := 0

variable {U : Type}

structure PublicationJob (U : Type) where
  update : U
  slots : List SlotRef := []
  next : Option JobRef := none
  done : Bool := false

/-- Where the thread that drains the queue is: before the next job, before the next slot
of a job, past the entry of a callback, or in the callback. -/
inductive Drain
  | top
  | invoking (job : JobRef) (rest : List SlotRef)
  | entered (job : JobRef) (slot : SlotRef) (rest : List SlotRef)
  | calling (job : JobRef) (slot : SlotRef) (rest : List SlotRef) (previousSlot : Option SlotRef)

inductive Frame
  | committed (job : JobRef)
  | finalized (job : JobRef)
  | enqueued (job : JobRef) (leader : Bool)
  | waiting (job : JobRef)
  | draining (previousDrainer : Bool) (drain : Drain)
  | unsubscribing (slot : SlotRef)

/-- The calls of a thread and its two thread-local variables. -/
structure ThreadState where
  frames : List Frame := []
  publicationDrainer : Bool := false
  callbackSlot : Option SlotRef := none

/-- `mutation` is the thread that holds `mutation_mutex`. `subscriptions` gives the id that
the living `Subscription` of a slot holds. Slots and jobs are numbered as they are made. -/
structure State (U : Type) where
  maximum : Nat
  slots : SlotRef → SubscriberSlot := fun _ => { accepting := false }
  slotCount : Nat := 0
  registered : OrderedMap Nat SlotRef := .empty
  nextId : Nat := 0
  subscriptions : SlotRef → Option Nat := fun _ => none
  jobs : JobRef → Option (PublicationJob U) := fun _ => none
  jobCount : Nat := 0
  publicationHead : Option JobRef := none
  publicationTail : Option JobRef := none
  publicationActive : Bool := false
  mutation : Option Thread := none
  threads : Thread → ThreadState := fun _ => {}

def State.frames (s : State U) (t : Thread) : List Frame := (s.threads t).frames

def State.setFrames (s : State U) (t : Thread) (frames : List Frame) : State U :=
  { s with threads := Function.update s.threads t { s.threads t with frames } }

def State.setJob (s : State U) (job : JobRef) (value : PublicationJob U) : State U :=
  { s with jobs := Function.update s.jobs job (some value) }

def State.setSlot (s : State U) (slot : SlotRef) (value : SubscriberSlot) : State U :=
  { s with slots := Function.update s.slots slot value }

/-- A thread calls the store when it is in no call, or from a callback. -/
def free : List Frame → Bool
  | [] => true
  | .draining _ (.calling ..) :: _ => true
  | _ => false

/-! The sections. -/

/-- The change of the cache, under `mutation_mutex`. -/
def commit (s : State U) (t : Thread) (update : U) : State U :=
  ({ s with
    mutation := some t
    jobs := Function.update s.jobs s.jobCount (some { update })
    jobCount := s.jobCount + 1 }).setFrames t (.committed s.jobCount :: s.frames t)

/-- The slots of the map that accept, in the order the map has them. -/
def acceptingSlots (s : State U) : List SlotRef :=
  (s.registered.toList.map Prod.snd).filter (fun slot => (s.slots slot).accepting)

def linkTail (s : State U) (job : JobRef) : State U :=
  match s.publicationTail with
  | none => { s with publicationHead := some job }
  | some tail =>
    { s with
      jobs := Function.update s.jobs tail
        ((s.jobs tail).map (fun last => { last with next := some job })) }

def enqueuePublication (s : State U) (job : JobRef) : State U :=
  { linkTail s job with publicationTail := some job, publicationActive := true }

/-- `drain_or_wait` up to its loop or its wait. -/
def drainOrWait (s : State U) (t : Thread) (job : JobRef) (leader : Bool) (rest : List Frame) :
    State U :=
  if leader then
    { s with
      threads := Function.update s.threads t
        { s.threads t with
          frames := .draining (s.threads t).publicationDrainer .top :: rest
          publicationDrainer := true } }
  else if (s.threads t).publicationDrainer then s.setFrames t rest
  else s.setFrames t (.waiting job :: rest)

/-- The queue is empty: the drain is over. -/
def retireDrain (s : State U) (t : Thread) (previous : Bool) (rest : List Frame) : State U :=
  { s with
    publicationTail := none
    publicationActive := false
    threads := Function.update s.threads t
      { s.threads t with frames := rest, publicationDrainer := previous } }

def popJob (s : State U) (head : JobRef) (job : PublicationJob U) : State U :=
  ({ s with
    publicationHead := job.next
    publicationTail := if job.next = none then none else s.publicationTail }).setJob head
      { job with next := none }

/-- The loop of `subscribe_updates` that looks for an id not in use. -/
def unusedId (registered : OrderedMap Nat SlotRef) : Nat → Nat → Option Nat
  | 0, _ => none
  | attempts + 1, id =>
    if registered.contains id then unusedId registered attempts ((id + 1) % 2 ^ 64) else some id

def subscribe (s : State U) (id : Nat) : State U :=
  { s with
    slots := Function.update s.slots s.slotCount {}
    slotCount := s.slotCount + 1
    registered := s.registered.insert id s.slotCount
    nextId := (id + 1) % 2 ^ 64
    subscriptions := Function.update s.subscriptions s.slotCount (some id) }

/-- The first section of the destructor of a `Subscription`. -/
def close (s : State U) (slot : SlotRef) (id : Nat) : State U :=
  ({ s with
    registered := s.registered.erase id
    subscriptions := Function.update s.subscriptions slot none }).setSlot slot
      { s.slots slot with accepting := false }

inductive Action (U : Type)
  | commit (job : JobRef) (update : U)
  | finalize (job : JobRef)
  | enqueue (job : JobRef)
  | unlock
  | wake
  | pop (job : JobRef)
  | retire
  | examine (job : JobRef) (slot : SlotRef) (accepted : Bool)
  | call (job : JobRef) (slot : SlotRef)
  | leave
  | finish (job : JobRef)
  | subscribe (slot : SlotRef)
  | unsubscribe (slot : SlotRef)
  | unsubscribed (slot : SlotRef)

structure Label (U : Type) where
  thread : Thread
  action : Action U

inductive Step (s : State U) : Label U → State U → Prop
  | commit {t : Thread} (update : U) : free (s.frames t) → s.mutation = none →
      Step s ⟨t, .commit s.jobCount update⟩ (commit s t update)
  | finalize {t : Thread} {j : JobRef} {job : PublicationJob U} {rest : List Frame}
      (slots : List SlotRef) : s.frames t = .committed j :: rest → s.jobs j = some job →
      slots.Perm (acceptingSlots s) →
      Step s ⟨t, .finalize j⟩ ((s.setJob j { job with slots }).setFrames t (.finalized j :: rest))
  | enqueue {t : Thread} {j : JobRef} {rest : List Frame} : s.frames t = .finalized j :: rest →
      Step s ⟨t, .enqueue j⟩
        ((enqueuePublication s j).setFrames t (.enqueued j (!s.publicationActive) :: rest))
  | unlock {t : Thread} {j : JobRef} {leader : Bool} {rest : List Frame} :
      s.frames t = .enqueued j leader :: rest →
      Step s ⟨t, .unlock⟩ (drainOrWait { s with mutation := none } t j leader rest)
  | wake {t : Thread} {j : JobRef} {job : PublicationJob U} {rest : List Frame} :
      s.frames t = .waiting j :: rest → s.jobs j = some job → job.done = true →
      Step s ⟨t, .wake⟩ (s.setFrames t rest)
  | pop {t : Thread} {p : Bool} {j : JobRef} {job : PublicationJob U} {rest : List Frame} :
      s.frames t = .draining p .top :: rest → s.publicationHead = some j → s.jobs j = some job →
      Step s ⟨t, .pop j⟩ ((popJob s j job).setFrames t (.draining p (.invoking j job.slots) :: rest))
  | retire {t : Thread} {p : Bool} {rest : List Frame} :
      s.frames t = .draining p .top :: rest → s.publicationHead = none →
      Step s ⟨t, .retire⟩ (retireDrain s t p rest)
  | skip {t : Thread} {p : Bool} {j : JobRef} {slot : SlotRef} {more : List SlotRef}
      {rest : List Frame} : s.frames t = .draining p (.invoking j (slot :: more)) :: rest →
      (s.slots slot).accepting = false →
      Step s ⟨t, .examine j slot false⟩ (s.setFrames t (.draining p (.invoking j more) :: rest))
  | enter {t : Thread} {p : Bool} {j : JobRef} {slot : SlotRef} {more : List SlotRef}
      {rest : List Frame} : s.frames t = .draining p (.invoking j (slot :: more)) :: rest →
      (s.slots slot).accepting = true →
      Step s ⟨t, .examine j slot true⟩
        ((s.setSlot slot { s.slots slot with entered := (s.slots slot).entered + 1 }).setFrames t
          (.draining p (.entered j slot more) :: rest))
  | call {t : Thread} {p : Bool} {j : JobRef} {slot : SlotRef} {more : List SlotRef}
      {rest : List Frame} : s.frames t = .draining p (.entered j slot more) :: rest →
      Step s ⟨t, .call j slot⟩
        { s with
          threads := Function.update s.threads t
            { s.threads t with
              frames := .draining p (.calling j slot more (s.threads t).callbackSlot) :: rest
              callbackSlot := some slot } }
  | leave {t : Thread} {p : Bool} {j : JobRef} {slot : SlotRef} {more : List SlotRef}
      {previous : Option SlotRef} {rest : List Frame} :
      s.frames t = .draining p (.calling j slot more previous) :: rest →
      Step s ⟨t, .leave⟩
        { s.setSlot slot { s.slots slot with entered := (s.slots slot).entered - 1 } with
          threads := Function.update s.threads t
            { s.threads t with
              frames := .draining p (.invoking j more) :: rest
              callbackSlot := previous } }
  | finish {t : Thread} {p : Bool} {j : JobRef} {job : PublicationJob U} {rest : List Frame} :
      s.frames t = .draining p (.invoking j []) :: rest → s.jobs j = some job →
      Step s ⟨t, .finish j⟩
        ((s.setJob j { job with done := true }).setFrames t (.draining p .top :: rest))
  | subscribe {t : Thread} {id : Nat} : free (s.frames t) → s.registered.size < s.maximum →
      unusedId s.registered (s.registered.size + 1) s.nextId = some id →
      Step s ⟨t, .subscribe s.slotCount⟩ (subscribe s id)
  | unsubscribeSelf {t : Thread} {slot : SlotRef} {id : Nat} : free (s.frames t) →
      s.subscriptions slot = some id → (s.threads t).callbackSlot = some slot →
      Step s ⟨t, .unsubscribed slot⟩ (close s slot id)
  | unsubscribe {t : Thread} {slot : SlotRef} {id : Nat} : free (s.frames t) →
      s.subscriptions slot = some id → (s.threads t).callbackSlot ≠ some slot →
      Step s ⟨t, .unsubscribe slot⟩
        ((close s slot id).setFrames t (.unsubscribing slot :: s.frames t))
  | unsubscribed {t : Thread} {slot : SlotRef} {rest : List Frame} :
      s.frames t = .unsubscribing slot :: rest → (s.slots slot).entered = 0 →
      Step s ⟨t, .unsubscribed slot⟩ (s.setFrames t rest)

def deliverySystem (U : Type) : System (State U) (Label U) where
  start s := ∃ maximum, s = { maximum }
  step := Step

end Baas.Resource.Publication
