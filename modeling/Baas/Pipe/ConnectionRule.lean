import Baas.Pipe.Connection

/-! What a connection should come to, from its whole stream: decode everything, then apply the
rules to the frames. -/
namespace Baas.Pipe

/-- How a connection stands once the rules were applied to all that has arrived. -/
inductive Standing
  | waiting (opened midFrame : Bool) (reserved : Nat)
  | stopped (created : Bool) (error : Option PipeHostError)

def stopWith (created : Bool) (error : PipeHostError) : Program Standing :=
  tellUnlessPoisoned error >>= fun _ => pure (.stopped created (some error))

/-- A frame was refused. The opening frame gives up its reservation before the peer is told,
later ones after. -/
def refuse (opened created : Bool) (error : PipeHostError) (reserved : Nat) : Program Standing :=
  if opened then stopWith created error >>= fun standing => releaseFor reserved >>= fun _ =>
    pure standing
  else releaseFor reserved >>= fun _ => stopWith created error

/-- One frame, reserved already; then the rest. -/
def ruleFrame (host : PipeHost) (opened : Bool) (frame : Frame) (reserved : Nat)
    (rest : Program Standing) : Program Standing :=
  processFrame host frame ⟨opened, true, opened⟩ >>= fun processed =>
    match processed.2 with
    | some error => refuse opened processed.1.handler error reserved
    | none =>
      releaseFor reserved >>= fun _ =>
        if processed.1.keepRunning then rest else pure (.stopped processed.1.handler none)

/-- After the last complete frame: a framing error, a frame that has only begun, or nothing. -/
def ruleTail (opened : Bool) (tail : Decoder) : Program Standing :=
  if tail.error.isSome then stopWith opened .framingError
  else
    match tail.expected with
    | none => pure (.waiting opened (tail.bufferedBytes ≠ 0) 0)
    | some expected =>
      reserveFor expected >>= fun granted =>
        if !granted then stopWith opened .ingressBudgetExhausted
        else pure (.waiting opened true expected)

def ruleFrames (host : PipeHost) : Bool → List Frame → Decoder → Program Standing
  | opened, [], tail => ruleTail opened tail
  | opened, frame :: frames, tail =>
    reserveFor frame.payload.length >>= fun granted =>
      if !granted then stopWith opened .ingressBudgetExhausted
      else ruleFrame host opened frame frame.payload.length (ruleFrames host true frames tail)

/-- The rules for the opening frame that need its header only. -/
def openRefusal (limits : PipeHostLimits) (stream : Bytes) : Option PipeHostError :=
  if stream.length < headerSize then none
  else
    match openDeclared limits (stream.take headerSize) with
    | .error error => some error
    | .ok _ => none

/-- The whole stream decoded at once, and the rules applied to what was decoded. -/
def ruling (host : PipeHost) (stream : Bytes) : Program Standing :=
  match openRefusal host.limits stream with
  | some error => stopWith false error
  | none =>
    let decoded := Decoder.fresh.feed stream
    ruleFrames host false decoded.2 decoded.1

/-- What cut a stream short. -/
inductive Closing
  | openTimeout | readTimeout | readFailed | eof | threw

/-- The stream holds the whole opening frame. -/
def opens (stream : Bytes) : Bool := !(Decoder.fresh.feed stream).2.isEmpty

/-- What the turns give: the stream up to where it was cut short. -/
def received (limits : PipeHostLimits) : Bytes → List Turn → Bytes × Option Closing
  | stream, [] => (stream, none)
  | stream, turn :: turns =>
    if !opens stream && turn.pastBefore then (stream, some .openTimeout)
    else
      match turn.reading with
      | .timedOut => (stream, some (if opens stream then .readTimeout else .openTimeout))
      | .error => (stream, some .readFailed)
      | .eof => (stream, some .eof)
      | .threw => (stream, some .threw)
      | .bytes chunk =>
        if chunk = [] ∨ limits.maxReadChunkBytes < chunk.length then (stream, some .readFailed)
        else if !opens stream && turn.pastAfter then (stream, some .openTimeout)
        else received limits (stream ++ chunk) turns

def tellError (error : PipeHostError) : Program (Option PipeHostError) :=
  terminalError error >>= fun _ => pure (some error)

def tellClosing (midFrame : Bool) : Closing → Program (Option PipeHostError)
  | .openTimeout => tellError .openTimeout
  | .readTimeout => tellError .readTimeout
  | .readFailed => tellError .readFailed
  | .eof => if midFrame then tellError .truncatedFrame else pure none
  | .threw => tellUnlessPoisoned .handlerFailed >>= fun _ => pure (some .handlerFailed)

def closed (created : Bool) (error : Option PipeHostError) : Program Outcome :=
  closeHandler created >>= fun _ => ask .closeStream >>= fun _ => pure (.ended error)

def conclude : Standing → Option Closing → Program Outcome
  | .stopped created error, _ => closed created error
  | .waiting _ _ _, none => pure .waiting
  | .waiting opened midFrame reserved, some closing =>
    tellClosing midFrame closing >>= fun error =>
      releaseFor reserved >>= fun _ => closed opened error

/-- What the turns of a connection come to by its whole stream. -/
def ruledConnection (host : PipeHost) (turns : List Turn) : Program Outcome :=
  let stream := received host.limits [] turns
  ruling host stream.1 >>= fun standing => conclude standing stream.2

end Baas.Pipe
