import Baas.Trigger.Ingress

/-! Every run of an ingress: which frames a request is made of, and what errors leave
behind. -/
namespace Baas.Trigger

open TriggerSession TriggerCommandCatalog Transition JsonText

inductive Frame
  | json (text : Bytes)
  | binary (bytes : Bytes)

inductive Op
  | frame (frame : Frame)
  | takeReady
  | reset
  | close

/-- What a call gives back: frames have a result, `take_ready` may have an item. -/
inductive Answer
  | result (result : TriggerIngressResult)
  | taken (item : Option TriggerIngressItem)
  | done

structure Call where
  op : Op
  answer : Answer

variable (limits : TriggerIngressLimits) (decode : Decode)

def apply (s : TriggerIngress) : Op → Answer × TriggerIngress
  | .frame (.json text) =>
    let (result, t) := s.receiveJsonFrame limits decode text
    (.result result, t)
  | .frame (.binary bytes) =>
    let (result, t) := s.receiveBinaryFrame limits bytes
    (.result result, t)
  | .takeReady =>
    let (item, t) := s.takeReady
    (.taken item, t)
  | .reset => (.done, s.reset)
  | .close => (.done, s.close)

def ingressSystem : System TriggerIngress Call where
  start s := s = {}
  step s call t := apply limits decode s call.op = (call.answer, t)

abbrev IngressEvent := Event TriggerIngress Call

def Op.frame? : Op → Option Frame
  | .frame f => some f
  | _ => none

/-- The frames of a history. -/
def frames (es : List IngressEvent) : List Frame := es.filterMap (fun e => e.label.op.frame?)

/-- The envelope stands in the text, and the catalogue knows its command. -/
def Announced (text : Bytes) (envelope : CommandEnvelope)
    (descriptor : TriggerCommandDescriptor) : Prop :=
  decode text = .ok envelope ∧ lookup envelope.command = some descriptor

/-- The item is made of the last frames: one JSON envelope, and the binary frame behind it
if the command needs one. -/
def Paired (log : List Frame) (item : TriggerIngressItem) : Prop :=
  ∃ earlier text, Announced decode text item.envelope item.descriptor ∧
    ((item.descriptor.inboundBinary ≠ .required ∧ item.binary = none ∧
        log = earlier ++ [.json text]) ∨
      ∃ bytes, item.descriptor.inboundBinary = .required ∧ item.binary = some bytes ∧
        log = earlier ++ [.json text, .binary bytes])

def Answer.disposition : Answer → TriggerIngressDisposition
  | .result r => r.disposition
  | _ => .none

structure IngressExact (es : List IngressEvent) (s : TriggerIngress) : Prop where
  exclusive : s.pendingBinary = none ∨ s.ready = none
  ready : ∀ item, s.ready = some item → Paired decode (frames es) item
  /-- A request is ready with its last frame, and no earlier than it was taken before. -/
  completed : ∀ before e after, es = before ++ e :: after → ∀ item,
    e.target.ready = some item → e.source.ready = some item ∨ e.source.ready = none ∧
      e.label.op.frame?.isSome = true ∧ Paired decode (frames (before ++ [e])) item
  fatal : ∀ e ∈ es, e.label.answer.disposition = .fatal → e.target.closed = true
  shut : ∀ before e after, es = before ++ e :: after → e.target.closed = true →
    e.target = { closed := true } ∧ ∀ later ∈ after, later.target = { closed := true } ∧
      (later.label.op.frame?.isSome = true →
        later.label.answer = .result { error := .closed })
  rejected : ∀ e ∈ es, e.label.answer.disposition = .commandRejection → e.target = {}

/-! The rules of the single calls. -/

variable {limits : TriggerIngressLimits} {decode : Decode} {s t : TriggerIngress}
  {es : List IngressEvent}

/-- The item or the promise that an ingress holds, and where it is from. -/
structure Held (decode : Decode) (log : List Frame) (s : TriggerIngress) : Prop where
  shut : s.closed = true → s = { closed := true }
  exclusive : s.pendingBinary = none ∨ s.ready = none
  pending : ∀ pending, s.pendingBinary = some pending → ∃ earlier text,
    log = earlier ++ [.json text] ∧ Announced decode text pending.envelope pending.descriptor ∧
      pending.descriptor.inboundBinary = .required
  ready : ∀ item, s.ready = some item → Paired decode log item

/-- What a frame may do: the ingress is closed, stays closed, or holds at most what the
frames so far, this one among them, make of it. -/
inductive Effect (decode : Decode) (s : TriggerIngress) (log : List Frame) :
    TriggerIngressResult × TriggerIngress → Prop
  | fatal {result : TriggerIngressResult} :
      result.disposition = .fatal → s.closed = false →
        Effect decode s log (result, { closed := true })
  | closed : s = { closed := true } → Effect decode s log ({ error := .closed }, s)
  | rejected {result : TriggerIngressResult} :
      result.disposition = .commandRejection → s.closed = false →
        Effect decode s log (result, {})
  | awaiting {result : TriggerIngressResult} {pending : PendingBinary}
      {earlier : List Frame} {text : Bytes} :
      result.disposition = .none → s.closed = false → log = earlier ++ [.json text] →
        Announced decode text pending.envelope pending.descriptor →
        pending.descriptor.inboundBinary = .required →
        Effect decode s log (result, { pendingBinary := some pending })
  | ready {result : TriggerIngressResult} {item : TriggerIngressItem} :
      result.disposition = .none → s.closed = false → s.ready = none → Paired decode log item →
        Effect decode s log (result, { ready := some item })

theorem reject_fatal {log : List Frame} {error : TriggerIngressError}
    (opened : s.closed = false) (fatal : triggerIngressDisposition error = .fatal)
    (envelopeError : EnvelopeError) (errorOffset : Nat) (left : TriggerIngress) :
    Effect decode s log (left.reject error envelopeError errorOffset) := by
  unfold TriggerIngress.reject TriggerIngressResult.disposition
  simp only [fatal, if_true]
  exact .fatal fatal opened

theorem complete_effect {log : List Frame} {envelope : CommandEnvelope} {binary : Option Bytes}
    {mode : ResponseMode} {descriptor : TriggerCommandDescriptor} (opened : s.closed = false)
    (free : s.ready = none)
    (paired : ∀ admission, Paired decode log ⟨envelope, binary, admission, descriptor⟩) :
    Effect decode s log
      (TriggerIngress.complete {} envelope binary mode descriptor) := by
  unfold TriggerIngress.complete
  split
  · exact .rejected rfl opened
  · exact .ready rfl opened free (paired _)

theorem receiveEnvelope_effect {log : List Frame} {text : Bytes} {envelope : CommandEnvelope}
    (parsed : decode text = .ok envelope) (n : Nat) (idle : s = {}) :
    Effect decode s (log ++ [.json text]) (s.receiveEnvelope n envelope) := by
  subst idle
  unfold TriggerIngress.receiveEnvelope
  split
  · exact .rejected rfl rfl
  next descriptor known =>
  have announced : Announced decode text envelope descriptor := ⟨parsed, known⟩
  split
  · exact .rejected rfl rfl
  split
  · exact .rejected rfl rfl
  split
  · exact .rejected rfl rfl
  split
  · next required => exact .awaiting rfl rfl rfl announced required
  · next other =>
    exact complete_effect rfl rfl (fun _ => ⟨log, text, announced, .inl ⟨other, rfl, rfl⟩⟩)

theorem Held.idle {log : List Frame} (held : Held decode log s) (opened : s.closed = false)
    (free : s.ready = none) (unpromised : s.pendingBinary = none) : s = {} := by
  cases s
  simp_all

theorem receiveJsonFrame_effect {log : List Frame} (held : Held decode log s) (text : Bytes) :
    Effect decode s (log ++ [.json text]) (s.receiveJsonFrame limits decode text) := by
  unfold TriggerIngress.receiveJsonFrame
  split
  · next shut => exact .closed (held.shut shut)
  next opened =>
  have opened : s.closed = false := Bool.not_eq_true _ ▸ opened
  split
  · exact reject_fatal opened rfl _ _ _
  next free =>
  split
  · exact reject_fatal opened rfl _ _ _
  next unpromised =>
  split
  · exact reject_fatal opened rfl _ _ _
  split
  · exact reject_fatal opened rfl _ _ _
  split
  · exact reject_fatal opened rfl _ _ _
  next envelope parsed =>
  refine receiveEnvelope_effect parsed _ (held.idle opened ?_ ?_)
  · simpa using free
  · simpa using unpromised

theorem receiveBinaryFrame_effect {log : List Frame} (held : Held decode log s)
    (bytes : Bytes) :
    Effect decode s (log ++ [.binary bytes]) (s.receiveBinaryFrame limits bytes) := by
  unfold TriggerIngress.receiveBinaryFrame
  split
  · next shut => exact .closed (held.shut shut)
  next opened =>
  have opened : s.closed = false := Bool.not_eq_true _ ▸ opened
  split
  · exact reject_fatal opened rfl _ _ _
  next free =>
  have free : s.ready = none := by simpa using free
  split
  · exact reject_fatal opened rfl _ _ _
  next pending promised =>
  obtain ⟨earlier, text, rfl, announced, required⟩ := held.pending pending promised
  dsimp only
  split
  · exact reject_fatal opened rfl _ _ _
  split
  · exact reject_fatal opened rfl _ _ _
  split
  · exact reject_fatal opened rfl _ _ _
  have idle : { s with pendingBinary := none } = ({} : TriggerIngress) := by
    rw [opened, free]
  rw [idle]
  refine complete_effect opened free (fun _ => ⟨earlier, text, announced, .inr ?_⟩)
  exact ⟨bytes, required, rfl, List.append_assoc earlier _ _⟩

theorem Effect.held {log : List Frame} {result : TriggerIngressResult}
    (effect : Effect decode s log (result, t)) : Held decode log t := by
  cases effect with
  | fatal =>
    exact ⟨fun _ => rfl, .inl rfl, fun _ none => (by cases none), fun _ none => (by cases none)⟩
  | closed shut =>
    subst shut
    exact ⟨fun _ => rfl, .inl rfl, fun _ none => (by cases none), fun _ none => (by cases none)⟩
  | rejected =>
    exact ⟨fun shut => (by cases shut), .inl rfl, fun _ none => (by cases none),
      fun _ none => (by cases none)⟩
  | awaiting _ _ ends announced required =>
    refine ⟨fun shut => (by cases shut), .inr rfl, fun pending same => ?_,
      fun _ none => (by cases none)⟩
    cases same
    exact ⟨_, _, ends, announced, required⟩
  | ready _ _ _ paired =>
    refine ⟨fun shut => (by cases shut), .inl rfl, fun _ none => (by cases none),
      fun item same => ?_⟩
    cases same
    exact paired

/-- What one call does, by its operation. -/
structure StepFacts (decode : Decode) (log : List Frame) (s : TriggerIngress) (call : Call)
    (t : TriggerIngress) : Prop where
  held : Held decode log t
  grows : ∀ item, t.ready = some item → s.ready = some item ∨ s.ready = none ∧
    call.op.frame?.isSome = true ∧ Paired decode log item
  fatal : call.answer.disposition = .fatal → t.closed = true
  shut : s.closed = true → t = { closed := true } ∧
    (call.op.frame?.isSome = true → call.answer = .result { error := .closed })
  rejected : call.answer.disposition = .commandRejection → t = {}

theorem Effect.facts {log : List Frame} {result : TriggerIngressResult} {frame : Frame}
    (effect : Effect decode s log (result, t)) :
    StepFacts decode log s ⟨.frame frame, .result result⟩ t where
  held := effect.held
  grows := by
    intro item there
    cases effect with
    | fatal => cases there
    | closed => exact .inl there
    | rejected => cases there
    | awaiting => cases there
    | ready _ _ free paired =>
      cases there
      exact .inr ⟨free, rfl, paired⟩
  fatal := by
    intro bad
    have bad : result.disposition = .fatal := bad
    cases effect with
    | fatal => rfl
    | closed => cases bad
    | rejected other => cases other.symm.trans bad
    | awaiting other => cases other.symm.trans bad
    | ready other => cases other.symm.trans bad
  shut := by
    intro shut
    cases effect with
    | fatal _ opened => cases opened.symm.trans shut
    | closed same => exact ⟨same, fun _ => rfl⟩
    | rejected _ opened => cases opened.symm.trans shut
    | awaiting _ opened => cases opened.symm.trans shut
    | ready _ opened => cases opened.symm.trans shut
  rejected := by
    intro bad
    have bad : result.disposition = .commandRejection := bad
    cases effect with
    | fatal other => cases other.symm.trans bad
    | closed => cases bad
    | rejected => rfl
    | awaiting other => cases other.symm.trans bad
    | ready other => cases other.symm.trans bad

/-- A call without a frame drops what is held, hands it out, or leaves it. -/
theorem quiet_facts {log : List Frame} {call : Call} (held : Held decode log s)
    (quiet : call.op.frame? = none) (calm : call.answer.disposition = .none)
    (change : t = s ∨ s.closed = false ∧ t = {} ∨ t = { closed := true }) :
    StepFacts decode (log ++ call.op.frame?.toList) s call t := by
  rw [quiet, Option.toList_none, List.append_nil]
  have empty (shut : Bool) : Held decode log { closed := shut } :=
    ⟨fun same => congrArg _ same, .inl rfl, fun _ there => (by cases there),
      fun _ there => (by cases there)⟩
  have silent {P : Prop} (framed : call.op.frame?.isSome = true) : P := by
    rw [quiet] at framed
    cases framed
  refine ⟨?_, ?_, fun bad => ?_, fun shut => ⟨?_, silent⟩, fun bad => ?_⟩
  · obtain rfl | ⟨-, rfl⟩ | rfl := change
    · exact held
    · exact empty false
    · exact empty true
  · intro item there
    obtain rfl | ⟨-, rfl⟩ | rfl := change
    · exact .inl there
    · cases there
    · cases there
  · rw [calm] at bad
    cases bad
  · obtain rfl | ⟨opened, -⟩ | rfl := change
    · exact held.shut shut
    · cases opened.symm.trans shut
    · rfl
  · rw [calm] at bad
    cases bad

theorem Held.unready {log : List Frame} {item : TriggerIngressItem} (held : Held decode log s)
    (there : s.ready = some item) : s.closed = false ∧ { s with ready := none } =
      ({} : TriggerIngress) := by
  have opened : s.closed = false := by
    by_contra shut
    rw [held.shut (Bool.not_eq_false _ ▸ shut)] at there
    cases there
  have unpromised : s.pendingBinary = none :=
    held.exclusive.resolve_right (by rw [there]; exact Option.some_ne_none item)
  rw [opened, unpromised]
  exact ⟨rfl, rfl⟩

theorem apply_facts {log : List Frame} {call : Call} (held : Held decode log s)
    (step : apply limits decode s call.op = (call.answer, t)) :
    StepFacts decode (log ++ call.op.frame?.toList) s call t := by
  obtain ⟨op, answer⟩ := call
  cases op with
  | frame frame =>
    cases frame with
    | json text =>
      cases step
      exact (receiveJsonFrame_effect held text).facts
    | binary bytes =>
      cases step
      exact (receiveBinaryFrame_effect held bytes).facts
  | takeReady =>
    cases step
    refine quiet_facts held rfl rfl ?_
    split
    · exact .inl rfl
    · next item there =>
      obtain ⟨opened, empty⟩ := held.unready there
      exact .inr (.inl ⟨opened, empty⟩)
  | reset =>
    cases step
    refine quiet_facts held rfl rfl ?_
    unfold TriggerIngress.reset
    split
    · exact .inl rfl
    · next opened => exact .inr (.inl ⟨Bool.not_eq_true _ ▸ opened, rfl⟩)
  | close =>
    cases step
    exact quiet_facts held rfl rfl (.inr (.inr rfl))

/-! Whole runs. -/

theorem frames_append (es fs : List IngressEvent) : frames (es ++ fs) = frames es ++ frames fs :=
  List.filterMap_append

theorem frames_snoc (es : List IngressEvent) (e : IngressEvent) :
    frames (es ++ [e]) = frames es ++ e.label.op.frame?.toList := by
  rw [frames_append]
  cases there : e.label.op.frame? with
  | none => simp [frames, there]
  | some frame => simp [frames, there]

theorem run_held (run : Run (ingressSystem limits decode) es s) : Held decode (frames es) s := by
  refine run.history (fun es s => Held decode (frames es) s) ?_ ?_
  · rintro s rfl
    exact ⟨fun shut => (by cases shut), .inl rfl, fun _ there => (by cases there),
      fun _ there => (by cases there)⟩
  · intro es s call t _ held step
    rw [frames_snoc]
    exact (apply_facts held step).held

/-- Every event of a run keeps to the rules, after the events before it. -/
theorem run_facts {before after : List IngressEvent} {e : IngressEvent}
    (run : Run (ingressSystem limits decode) (before ++ e :: after) s) :
    StepFacts decode (frames (before ++ [e])) e.source e.label e.target := by
  obtain ⟨prior, step⟩ := run.upto
  rw [frames_snoc]
  exact apply_facts (run_held prior) step

theorem mem_facts (run : Run (ingressSystem limits decode) es s) {e : IngressEvent}
    (member : e ∈ es) : ∃ log, StepFacts decode log e.source e.label e.target := by
  obtain ⟨before, after, rfl⟩ := List.append_of_mem member
  exact ⟨_, run_facts run⟩

theorem run_shut {before after : List IngressEvent} {e : IngressEvent}
    (run : Run (ingressSystem limits decode) (before ++ e :: after) s)
    (shut : e.target.closed = true) : s = { closed := true } := by
  have first := (run_facts run).held.shut shut
  refine run.since (fun _ => True) (fun _ s => s = { closed := true }) ?_ first (fun _ _ => trivial)
  rintro es s call t rfl step -
  have closed : Held decode [] ({ closed := true } : TriggerIngress) :=
    ⟨fun _ => rfl, .inl rfl, fun _ there => (by cases there), fun _ there => (by cases there)⟩
  exact ((apply_facts closed step).shut rfl).1

/-- What an ingress makes of any sequence of frames and calls. -/
theorem ingress_exact (run : Run (ingressSystem limits decode) es s) :
    IngressExact decode es s where
  exclusive := (run_held run).exclusive
  ready := (run_held run).ready
  completed := by
    rintro before e after rfl item there
    exact (run_facts run).grows item there
  fatal := by
    intro e member bad
    obtain ⟨log, facts⟩ := mem_facts run member
    exact facts.fatal bad
  shut := by
    rintro before e after rfl shut
    refine ⟨(run_facts run).held.shut shut, fun later member => ?_⟩
    obtain ⟨middle, rest, rfl⟩ := List.append_of_mem member
    have whole : before ++ e :: (middle ++ later :: rest) =
        (before ++ e :: middle) ++ later :: rest := by simp
    rw [whole] at run
    have closed := run_shut run.upto.1 shut
    exact (run_facts run).shut (by rw [closed])
  rejected := by
    intro e member bad
    obtain ⟨log, facts⟩ := mem_facts run member
    exact facts.rejected bad

def ingressNext (limits : TriggerIngressLimits) (decode : Decode) (s : TriggerIngress)
    (op : Op) : Call × TriggerIngress :=
  (⟨op, (apply limits decode s op).1⟩, (apply limits decode s op).2)

theorem ingress_plays (ops : List Op) : Run (ingressSystem limits decode)
    (play (ingressNext limits decode) {} ops).1 (play (ingressNext limits decode) {} ops).2 :=
  run_play (fun _ _ => rfl) ops rfl

/-- Every text is the envelope of an import. -/
def importDecode : Decode := fun text =>
  .ok ⟨ascii "import_config", 5, none, text, true⟩

/-- A promise, its binary frame, and the item that is taken. -/
def importOps : List Op := [.frame (.json [1, 2]), .frame (.binary [7]), .takeReady]

theorem ingress_exact_import :
    IngressExact importDecode (play (ingressNext {} importDecode) {} importOps).1
        (play (ingressNext {} importDecode) {} importOps).2 ∧
      (play (ingressNext {} importDecode) {} importOps).1.map
          (fun e => e.target.ready.map TriggerIngressItem.binary) =
        [none, some (some [7]), none] :=
  ⟨ingress_exact (ingress_plays importOps), by decide +kernel⟩

end Baas.Trigger
