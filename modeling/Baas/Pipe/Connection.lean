import Baas.Lib.Interaction
import Baas.Pipe.OpenRequest

/-! The loop that serves one connection of the pipe host: what it reads, what it asks of its
writer, its handler and the host, and how it ends. -/
namespace Baas.Pipe

open JsonText Interaction

/-- A host is only built with valid limits. -/
structure PipeHost where
  limits : PipeHostLimits
  valid : limits.valid = true

inductive PipeHandlerAction
  | continueConnection | closeConnection
deriving DecidableEq

/-- What a callback of the handler comes to. -/
inductive HandlerAnswer
  | threw
  | returned (action : PipeHandlerAction) (error : Option PipeHostError)

/-- What the loop asks. `retain` asks nothing: it marks that `count` payload bytes of a frame
of the declared length were taken out of the read buffer. -/
inductive PipeQuery
  | reserveIngress (bytes : Nat)
  | releaseIngress (bytes : Nat)
  | retain (declared count : Nat)
  | create (request : PipeOpenRequest)
  | onOpen
  | onFrame (frame : Frame)
  | onClose
  | transportPoisoned
  | write (frames : List Frame)
  | closeStream

abbrev PipeAnswer : PipeQuery → Type
  | .reserveIngress _ => Bool
  | .create _ => Bool
  | .onOpen => HandlerAnswer
  | .onFrame _ => HandlerAnswer
  | .transportPoisoned => Bool
  | .write _ => Option PipeHostError
  | _ => Unit

abbrev Program := Interaction PipeQuery PipeAnswer Empty

def ask (q : PipeQuery) : Program (PipeAnswer q) := query q

/-- `terminal_error`; what the write comes to is dropped. -/
def terminalError (error : PipeHostError) : Program Unit :=
  ask (.write [⟨FrameKind.error.value, pipeHostErrorName error⟩,
    ⟨FrameKind.close.value, []⟩]) >>= fun _ => pure ()

def tellUnlessPoisoned (error : PipeHostError) : Program Unit :=
  ask .transportPoisoned >>= fun poisoned =>
    if poisoned then pure () else terminalError error

def reserveFor (bytes : Nat) : Program Bool :=
  if bytes = 0 then pure true else ask (.reserveIngress bytes)

def releaseFor (bytes : Nat) : Program Unit :=
  if bytes = 0 then pure () else ask (.releaseIngress bytes)

/-- What `process_frame` changes of its caller. -/
structure Progress where
  opened : Bool
  keepRunning : Bool
  handler : Bool
deriving DecidableEq

def applyHandlerResult (progress : Progress) :
    HandlerAnswer → Program (Progress × Option PipeHostError)
  | .threw => pure (progress, some .handlerFailed)
  | .returned action error =>
    ask .transportPoisoned >>= fun poisoned =>
      if poisoned then pure (progress, some .writeFailed)
      else
        match error, action with
        | some error, _ => pure (progress, some error)
        | none, .continueConnection => pure (progress, none)
        | none, .closeConnection =>
          ask (.write [⟨FrameKind.close.value, []⟩]) >>= fun write =>
            match write with
            | some error => pure (progress, some error)
            | none => pure ({ progress with keepRunning := false }, none)

/-- The first half of `process_frame`, up to `on_open`. -/
def processOpen (host : PipeHost) (frame : Frame) (progress : Progress) :
    Program (Progress × Option PipeHostError) :=
  if frame.kind ≠ FrameKind.json.value then pure (progress, some .firstFrameNotJson)
  else
    match decodePipeOpen frame.payload host.limits with
    | .error error => pure (progress, some error)
    | .ok request =>
      ask (.create request) >>= fun created =>
        if !created then pure (progress, some .channelUnavailable)
        else
          let progress := { progress with handler := true }
          match encodePipeOpenOk request.channel with
          | .error _ => pure (progress, some .atomicWriteTooLarge)
          | .ok response =>
            ask (.write [⟨FrameKind.json.value, response.drop headerSize⟩]) >>= fun write =>
              match write with
              | some error => pure (progress, some error)
              | none => ask .onOpen >>= applyHandlerResult { progress with opened := true }

def processFrame (host : PipeHost) (frame : Frame) (progress : Progress) :
    Program (Progress × Option PipeHostError) :=
  if !progress.opened then processOpen host frame progress
  else if frame.kind = FrameKind.close.value then
    if frame.payload ≠ [] then pure (progress, some .nonemptyClose)
    else pure ({ progress with keepRunning := false }, none)
  else if frame.kind = FrameKind.error.value then
    pure ({ progress with keepRunning := false }, none)
  else if frame.kind ≠ FrameKind.json.value ∧ frame.kind ≠ FrameKind.bytes.value then
    pure (progress, some .unsupportedFrameKind)
  else ask (.onFrame frame) >>= applyHandlerResult progress

/-- The local variables of `connection_loop`, and the error it ends with. -/
structure Connection where
  decoder : Decoder
  progress : Progress
  openHeader : Bytes
  openExpected : Option Nat
  openPayload : Bytes
  openReservation : Nat
  decoderReservation : Nat
  ended : Option PipeHostError

def Connection.fresh : Connection :=
  { decoder := .fresh, progress := ⟨false, true, false⟩, openHeader := [], openExpected := none,
    openPayload := [], openReservation := 0, decoderReservation := 0, ended := none }

def Connection.stopped (s : Connection) (error : Option PipeHostError) : Connection :=
  { s with progress := { s.progress with keepRunning := false }, ended := error }

def failConnection (s : Connection) (error : PipeHostError) : Program Connection :=
  tellUnlessPoisoned error >>= fun _ => pure (s.stopped (some error))

/-- What the loop checks of the ten bytes of the opening header. -/
def openDeclared (limits : PipeHostLimits) (header : Bytes) : Except PipeHostError Nat :=
  if header.take 4 ≠ magic ∨ header.getD 4 0 ≠ version then .error .framingError
  else if header.getD 5 0 ≠ FrameKind.json.value then .error .firstFrameNotJson
  else if limits.maxOpenJsonBytes < declaredPayloadSize header then .error .openJsonTooLarge
  else .ok (declaredPayloadSize header)

/-- The opening frame is complete. -/
def presentOpen (host : PipeHost) (s : Connection) : Program Connection :=
  processFrame host ⟨FrameKind.json.value, s.openPayload⟩ s.progress >>= fun processed =>
    releaseFor s.openReservation >>= fun _ =>
      let s := { s with
        progress := processed.1, openPayload := [], openReservation := 0,
        openExpected := none, openHeader := [] }
      match processed.2 with
      | some error => failConnection s error
      | none => pure s

def takeOpenPayload (host : PipeHost) (s : Connection) (expected : Nat) (input : Bytes) :
    Program (Connection × Bytes) :=
  let count := min (expected - s.openPayload.length) input.length
  ask (.retain expected count) >>= fun _ =>
    let s := { s with openPayload := s.openPayload ++ input.take count }
    if s.openPayload.length = expected then
      presentOpen host s >>= fun s => pure (s, input.drop count)
    else pure (s, input.drop count)

/-- The opening header is complete. -/
def judgeOpenHeader (host : PipeHost) (s : Connection) (input : Bytes) :
    Program (Connection × Bytes) :=
  match openDeclared host.limits s.openHeader with
  | .error error => failConnection s error >>= fun s => pure (s, input)
  | .ok declared =>
    reserveFor declared >>= fun granted =>
      let s := { s with openExpected := some declared }
      if !granted then failConnection s .ingressBudgetExhausted >>= fun s => pure (s, input)
      else takeOpenPayload host { s with openReservation := declared } declared input

def openOnce (host : PipeHost) (s : Connection) (input : Bytes) : Program (Connection × Bytes) :=
  if s.openHeader.length < headerSize then
    let count := min (headerSize - s.openHeader.length) input.length
    let s := { s with openHeader := s.openHeader ++ input.take count }
    if s.openHeader.length < headerSize then pure (s, input.drop count)
    else judgeOpenHeader host s (input.drop count)
  else takeOpenPayload host s (s.openExpected.getD 0) input

/-- `process_decoded`. -/
def processDecoded (host : PipeHost) : List Frame → Connection → Program Connection
  | [], s => pure s
  | frame :: frames, s =>
    processFrame host frame s.progress >>= fun processed =>
      let s := { s with progress := processed.1 }
      match processed.2 with
      | some error => failConnection s error
      | none => if !s.progress.keepRunning then pure s else processDecoded host frames s

/-- A declared length is reserved before the payload follows. -/
def reserveDeclared (s : Connection) : Program Connection :=
  match s.decoder.expected with
  | none => pure s
  | some expected =>
    reserveFor expected >>= fun granted =>
      if !granted then failConnection s .ingressBudgetExhausted
      else pure { s with decoderReservation := expected }

def headerOnce (host : PipeHost) (s : Connection) (input : Bytes) :
    Program (Connection × Bytes) :=
  let count := min (headerSize - s.decoder.bufferedBytes) input.length
  let decoded := s.decoder.feed (input.take count)
  let s := { s with decoder := decoded.1 }
  let rest := input.drop count
  if decoded.1.error.isSome then failConnection s .framingError >>= fun s => pure (s, rest)
  else
    processDecoded host decoded.2 s >>= fun s =>
      if !s.progress.keepRunning then pure (s, rest)
      else reserveDeclared s >>= fun s => pure (s, rest)

def payloadFed (host : PipeHost) (s : Connection) (frames : List Frame) : Program Connection :=
  if s.decoder.error.isSome then failConnection s .framingError
  else processDecoded host frames s

/-- Nothing stays reserved once the decoder has given its frame away. -/
def releaseDecoded (s : Connection) : Program Connection :=
  if s.decoder.expected.isNone then
    releaseFor s.decoderReservation >>= fun _ => pure { s with decoderReservation := 0 }
  else pure s

def payloadOnce (host : PipeHost) (s : Connection) (expected : Nat) (input : Bytes) :
    Program (Connection × Bytes) :=
  let count := min (expected - s.decoder.payload.length) input.length
  ask (.retain expected count) >>= fun _ =>
    let decoded := s.decoder.feed (input.take count)
    payloadFed host { s with decoder := decoded.1 } decoded.2 >>= fun s =>
      releaseDecoded s >>= fun s => pure (s, input.drop count)

/-- The body of the loop over one chunk. -/
def consumeOnce (host : PipeHost) (s : Connection) (input : Bytes) :
    Program (Connection × Bytes) :=
  if !s.progress.opened then openOnce host s input
  else
    match s.decoder.expected with
    | none => headerOnce host s input
    | some expected => payloadOnce host s expected input

/-- The loop over one chunk; every round takes at least one byte. -/
def consume (host : PipeHost) : Nat → Connection → Bytes → Program Connection
  | 0, s, _ => pure s
  | rounds + 1, s, input =>
    if input = [] ∨ s.progress.keepRunning = false then pure s
    else consumeOnce host s input >>= fun next => consume host rounds next.1 next.2

inductive Reading
  | timedOut | error | eof | threw
  | bytes (chunk : Bytes)

/-- One turn of the outer loop: what the stream gives, and whether the clock was past the
opening deadline before and after. -/
structure Turn where
  pastBefore : Bool
  reading : Reading
  pastAfter : Bool

/-- `terminal_error` and out of the loop. -/
def leave (s : Connection) (error : PipeHostError) : Program Connection :=
  terminalError error >>= fun _ => pure (s.stopped (some error))

/-- Something of a frame has arrived, but not all of it. -/
def Connection.midFrame (s : Connection) : Bool :=
  s.decoder.bufferedBytes ≠ 0 || s.openHeader.length ≠ 0 || s.openExpected.isSome

def takeTurn (host : PipeHost) (s : Connection) (turn : Turn) : Program Connection :=
  if !s.progress.opened && turn.pastBefore then leave s .openTimeout
  else
    match turn.reading with
    | .timedOut => leave s (if s.progress.opened then .readTimeout else .openTimeout)
    | .error => leave s .readFailed
    | .eof => if s.midFrame then leave s .truncatedFrame else pure (s.stopped none)
    | .threw => failConnection s .handlerFailed
    | .bytes chunk =>
      if chunk = [] ∨ host.limits.maxReadChunkBytes < chunk.length then leave s .readFailed
      else if !s.progress.opened && turn.pastAfter then leave s .openTimeout
      else consume host chunk.length s chunk

def readLoop (host : PipeHost) : Connection → List Turn → Program Connection
  | s, [] => pure s
  | s, turn :: turns =>
    if s.progress.keepRunning = false then pure s
    else takeTurn host s turn >>= fun s => readLoop host s turns

/-- How far a connection has come: its stream may still have something to give. -/
inductive Outcome
  | waiting
  | ended (error : Option PipeHostError)
deriving DecidableEq

def closeHandler (created : Bool) : Program Unit :=
  if created then ask .onClose else pure ()

/-- The end of `connection_loop`. -/
def finish (s : Connection) : Program Outcome :=
  releaseFor s.openReservation >>= fun _ =>
    releaseFor s.decoderReservation >>= fun _ =>
      closeHandler s.progress.handler >>= fun _ =>
        ask .closeStream >>= fun _ => pure (.ended s.ended)

/-- `connection_loop`, as far as the turns that the stream has given so far take it. -/
def connectionLoop (host : PipeHost) (turns : List Turn) : Program Outcome :=
  readLoop host .fresh turns >>= fun s =>
    if s.progress.keepRunning then pure .waiting else finish s

end Baas.Pipe
