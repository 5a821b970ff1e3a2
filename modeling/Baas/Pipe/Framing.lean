import Mathlib.Data.List.TakeDrop
import Mathlib.Algebra.Group.Nat.Defs

/-! The BPIP wire format: frame headers, the encoder, and the incremental decoder. -/
namespace Baas.Pipe

abbrev Bytes := List UInt8

def magic : Bytes := [0x42, 0x50, 0x49, 0x50]
def version : UInt8 := 1
def headerSize : Nat := 10
def maxPayloadSize : Nat := 64 * 1024 * 1024

inductive FrameKind
  | json | bytes | close | error
deriving DecidableEq

def FrameKind.value : FrameKind → UInt8
  | .json => 1
  | .bytes => 2
  | .close => 3
  | .error => 4

def isKnownKind (kind : UInt8) : Bool :=
  FrameKind.json.value ≤ kind && kind ≤ FrameKind.error.value

inductive FramingError
  | invalidMagic
  | unsupportedVersion (observed : UInt8)
  | payloadTooLarge (declared : Nat)
deriving DecidableEq

structure Frame where
  kind : UInt8
  payload : Bytes
deriving DecidableEq

/-- `decode_u32_le` at the length field of a header. -/
def declaredPayloadSize (header : Bytes) : Nat :=
  (header.getD 6 0).toNat + (header.getD 7 0).toNat * 2 ^ 8 +
    (header.getD 8 0).toNat * 2 ^ 16 + (header.getD 9 0).toNat * 2 ^ 24

def encodeHeader (kind : UInt8) (payloadSize : Nat) : Except FramingError Bytes :=
  if maxPayloadSize < payloadSize then .error (.payloadTooLarge payloadSize)
  else .ok (magic ++ [version, kind, UInt8.ofNat payloadSize, UInt8.ofNat (payloadSize / 2 ^ 8),
    UInt8.ofNat (payloadSize / 2 ^ 16), UInt8.ofNat (payloadSize / 2 ^ 24)])

def encodeFrame (kind : UInt8) (payload : Bytes) : Except FramingError Bytes :=
  match encodeHeader kind payload.length with
  | .error e => .error e
  | .ok header => .ok (header ++ payload)

structure Decoder where
  header : Bytes
  kind : UInt8
  expected : Option Nat
  payload : Bytes
  error : Option FramingError
deriving DecidableEq

namespace Decoder

def fresh : Decoder := ⟨[], 0, none, [], none⟩

def clearPendingFrame (d : Decoder) : Decoder :=
  { d with header := [], kind := 0, expected := none, payload := [] }

def poison (d : Decoder) (error : FramingError) : Decoder :=
  { d.clearPendingFrame with error := some error }

def bufferedBytes (d : Decoder) : Nat := d.header.length + d.payload.length

/-- Takes what belongs to the payload; gives the frame when that was all of it. -/
def takePayload (d : Decoder) (expected : Nat) (input : Bytes) :
    Decoder × Option Frame × Bytes :=
  let count := min (expected - d.payload.length) input.length
  let payload := d.payload ++ input.take count
  if payload.length = expected then
    (d.clearPendingFrame, some ⟨d.kind, payload⟩, input.drop count)
  else ({ d with payload }, none, input.drop count)

/-- What a complete header says. -/
def openFrame (d : Decoder) (input : Bytes) : Decoder × Option Frame × Bytes :=
  if d.header.take 4 ≠ magic then (d.poison .invalidMagic, none, input)
  else
    let observed := d.header.getD 4 0
    if observed ≠ version then (d.poison (.unsupportedVersion observed), none, input)
    else
      let kind := d.header.getD 5 0
      let declared := declaredPayloadSize d.header
      if maxPayloadSize < declared then (d.poison (.payloadTooLarge declared), none, input)
      else if declared = 0 then (d.clearPendingFrame, some ⟨kind, []⟩, input)
      else { d with kind, expected := some declared }.takePayload declared input

/-- The body of the loop of `feed`. -/
def feedOnce (d : Decoder) (input : Bytes) : Decoder × Option Frame × Bytes :=
  if d.header.length < headerSize then
    let count := min (headerSize - d.header.length) input.length
    let d := { d with header := d.header ++ input.take count }
    if d.header.length < headerSize then (d, none, input.drop count)
    else d.openFrame (input.drop count)
  else d.takePayload (d.expected.getD 0) input

/-- Every round takes at least one byte, so there are no more rounds than bytes. -/
def feedLoop : Nat → Decoder → Bytes → Decoder × List Frame
  | 0, d, _ => (d, [])
  | rounds + 1, d, input =>
    if input = [] ∨ d.error.isSome then (d, [])
    else
      let (d, frame, input) := d.feedOnce input
      let (d, frames) := feedLoop rounds d input
      (d, frame.toList ++ frames)

def feed (d : Decoder) (input : Bytes) : Decoder × List Frame := feedLoop input.length d input

end Decoder

end Baas.Pipe
