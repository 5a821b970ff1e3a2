import Baas.Lib.ByteOrder
import Baas.Lib.JsonText
import Baas.Pipe.Framing

/-! The limits and errors of the pipe host, and the parser of the opening frame. -/
namespace Baas.Pipe

open JsonText

inductive PipeChannel
  | provider | sync | trigger | remote
deriving DecidableEq

def pipeChannelName : PipeChannel → Bytes
  | .provider => ascii "provider"
  | .sync => ascii "sync"
  | .trigger => ascii "trigger"
  | .remote => ascii "remote"

structure PipeOpenRequest where
  channel : PipeChannel
  name : Bytes
deriving DecidableEq

/-- Timeouts are in the readings of the stream, see `Turn`. -/
structure PipeHostLimits where
  maxOpenJsonBytes : Nat
  maxNameBytes : Nat
  maxReadChunkBytes : Nat
  maxAtomicWriteBytes : Nat
  maxTotalIngressRetainedBytes : Nat
  maxTotalEgressRetainedBytes : Nat
  maxOpenJsonDepth : Nat
  maxOpenJsonNodes : Nat

/-- `none` of the source is the absence of an error. -/
inductive PipeHostError
  | invalidLimits | listenerClosed | connectionLimit | readFailed | truncatedFrame | framingError
  | firstFrameNotJson | openJsonTooLarge | malformedOpenJson | duplicateOpenField
  | invalidOpenType | unsupportedChannel | invalidOpenName | unsupportedFrameKind | nonemptyClose
  | channelUnavailable | handlerFailed | atomicWriteTooLarge | ingressBudgetExhausted
  | egressBudgetExhausted | writeFailed | openTimeout | readTimeout
deriving DecidableEq

def pipeHostErrorName : PipeHostError → Bytes
  | .invalidLimits => ascii "invalid_limits"
  | .listenerClosed => ascii "listener_closed"
  | .connectionLimit => ascii "connection_limit"
  | .readFailed => ascii "read_failed"
  | .truncatedFrame => ascii "truncated_frame"
  | .framingError => ascii "framing_error"
  | .firstFrameNotJson => ascii "first_frame_not_json"
  | .openJsonTooLarge => ascii "open_json_too_large"
  | .malformedOpenJson => ascii "malformed_open_json"
  | .duplicateOpenField => ascii "duplicate_open_field"
  | .invalidOpenType => ascii "invalid_open_type"
  | .unsupportedChannel => ascii "unsupported_channel"
  | .invalidOpenName => ascii "invalid_open_name"
  | .unsupportedFrameKind => ascii "unsupported_frame_kind"
  | .nonemptyClose => ascii "nonempty_close"
  | .channelUnavailable => ascii "channel_unavailable"
  | .handlerFailed => ascii "handler_failed"
  | .atomicWriteTooLarge => ascii "atomic_write_too_large"
  | .ingressBudgetExhausted => ascii "ingress_budget_exhausted"
  | .egressBudgetExhausted => ascii "egress_budget_exhausted"
  | .writeFailed => ascii "write_failed"
  | .openTimeout => ascii "open_timeout"
  | .readTimeout => ascii "read_timeout"

def mebibyte : Nat := 1024 * 1024

/-- `valid_limits`, without the connection count and the timeouts. -/
def PipeHostLimits.valid (limits : PipeHostLimits) : Bool :=
  0 < limits.maxOpenJsonBytes && limits.maxOpenJsonBytes ≤ maxPayloadSize &&
  0 < limits.maxNameBytes && limits.maxNameBytes ≤ limits.maxOpenJsonBytes &&
  0 < limits.maxReadChunkBytes && limits.maxReadChunkBytes ≤ mebibyte &&
  headerSize ≤ limits.maxAtomicWriteBytes && limits.maxAtomicWriteBytes ≤ 128 * mebibyte &&
  headerSize ≤ limits.maxTotalIngressRetainedBytes &&
  limits.maxTotalIngressRetainedBytes ≤ 256 * mebibyte &&
  2 * headerSize ≤ limits.maxTotalEgressRetainedBytes &&
  limits.maxTotalEgressRetainedBytes ≤ 256 * mebibyte &&
  0 < limits.maxOpenJsonDepth && limits.maxOpenJsonDepth ≤ 64 &&
  0 < limits.maxOpenJsonNodes && limits.maxOpenJsonNodes ≤ 4096

/-- The rest of a character: its continuation bytes, and the scalar they make. -/
def validScalar (bits minimum : Nat) (tail : Bytes) : Bool :=
  let value := tail.foldl (fun value byte => value * 64 + (byte &&& 0x3F).toNat) bits
  tail.all (fun byte => byte &&& 0xC0 = 0x80) && minimum ≤ value && value ≤ 0x10FFFF &&
    !(0xD800 ≤ value && value ≤ 0xDFFF)

def validUtf8 : Bytes → Bool
  | [] => true
  | lead :: rest =>
    if lead ≤ 0x7F then validUtf8 rest
    else if lead &&& 0xE0 = 0xC0 then
      match rest with
      | a :: rest => validScalar (lead &&& 0x1F).toNat 0x80 [a] && validUtf8 rest
      | _ => false
    else if lead &&& 0xF0 = 0xE0 then
      match rest with
      | a :: b :: rest => validScalar (lead &&& 0x0F).toNat 0x800 [a, b] && validUtf8 rest
      | _ => false
    else if lead &&& 0xF8 = 0xF0 then
      match rest with
      | a :: b :: c :: rest =>
        validScalar (lead &&& 0x07).toNat 0x10000 [a, b, c] && validUtf8 rest
      | _ => false
    else false

namespace OpenParser

def consume (c : UInt8) : Bytes → Option Bytes
  | [] => none
  | first :: rest => if first = c then some rest else none

def hex4 : Bytes → Option (Nat × Bytes)
  | a :: b :: c :: d :: rest => do
    let a ← hexDigit a
    let b ← hexDigit b
    let c ← hexDigit c
    let d ← hexDigit d
    some (((a * 16 + b) * 16 + c) * 16 + d, rest)
  | _ => none

/-- The scalar after `\u`, with its low surrogate where it has one. -/
def scalar (input : Bytes) : Option (Nat × Bytes) :=
  match hex4 input with
  | none => none
  | some (high, rest) =>
    if 0xD800 ≤ high ∧ high ≤ 0xDBFF then
      match rest with
      | 92 :: 117 :: rest =>
        match hex4 rest with
        | none => none
        | some (low, rest) =>
          if low < 0xDC00 ∨ 0xDFFF < low then none
          else some (0x10000 + (high - 0xD800) * 1024 + (low - 0xDC00), rest)
      | _ => none
    else if 0xDC00 ≤ high ∧ high ≤ 0xDFFF then none
    else some (high, rest)

def escaped (c : UInt8) (rest : Bytes) : Option (Bytes × Bytes) :=
  match c with
  | 34 => some ([34], rest)
  | 92 => some ([92], rest)
  | 47 => some ([47], rest)
  | 98 => some ([8], rest)
  | 102 => some ([12], rest)
  | 110 => some ([10], rest)
  | 114 => some ([13], rest)
  | 116 => some ([9], rest)
  | 117 => (scalar rest).map (fun found => (utf8Bytes found.1, found.2))
  | _ => none

/-- The bytes one step of a string adds, and what is left. -/
def stringPiece (c : UInt8) (rest : Bytes) : Option (Bytes × Bytes) :=
  if c < 0x20 then none
  else if c ≠ 92 then some ([c], rest)
  else
    match rest with
    | [] => none
    | e :: rest => escaped e rest

def stringBody (limits : PipeHostLimits) : Nat → Bytes → Bytes → Option (Bytes × Bytes)
  | 0, _, _ => none
  | _, _, [] => none
  | fuel + 1, output, c :: rest =>
    if c = 34 then some (output, rest)
    else
      match stringPiece c rest with
      | none => none
      | some (piece, rest) =>
        if limits.maxOpenJsonBytes < (output ++ piece).length then none
        else stringBody limits fuel (output ++ piece) rest

def parseString (limits : PipeHostLimits) (input : Bytes) : Option (Bytes × Bytes) :=
  match consume 34 input with
  | none => none
  | some rest => stringBody limits rest.length [] rest

def isDigit (c : UInt8) : Bool := 48 ≤ c && c ≤ 57

/-- One digit or more. -/
def digits (input : Bytes) : Option Bytes :=
  let rest := input.dropWhile isDigit
  if rest.length = input.length then none else some rest

def skipInteger : Bytes → Option Bytes
  | [] => none
  | c :: rest =>
    if c = 48 then some rest
    else if 49 ≤ c ∧ c ≤ 57 then some (rest.dropWhile isDigit)
    else none

def skipFraction : Bytes → Option Bytes
  | 46 :: rest => digits rest
  | input => some input

def skipSign : Bytes → Bytes
  | 43 :: rest => rest
  | 45 :: rest => rest
  | input => input

def skipExponent : Bytes → Option Bytes
  | 101 :: rest => digits (skipSign rest)
  | 69 :: rest => digits (skipSign rest)
  | input => some input

def skipNumber (input : Bytes) : Option Bytes :=
  let unsigned := match input with
    | 45 :: rest => rest
    | input => input
  (skipInteger unsigned).bind (fun rest => (skipFraction rest).bind skipExponent)

def skipLiteral (input : Bytes) : Option Bytes :=
  [ascii "true", ascii "false", ascii "null"].findSome? (fun word =>
    if word.isPrefixOf input then some (input.drop word.length) else none)

/-- A refusal says whether it is for a name given twice; the number is that of the nodes so
far. -/
abbrev Skipped := Except Bool (Nat × Bytes)

def found (nodes : Nat) : Option Bytes → Skipped
  | none => .error false
  | some rest => .ok (nodes, rest)

mutual

def skipValue (limits : PipeHostLimits) : Nat → Nat → Nat → Bytes → Skipped
  | 0, _, _, _ => .error false
  | fuel + 1, depth, nodes, input =>
    if limits.maxOpenJsonDepth < depth ∨ limits.maxOpenJsonNodes < nodes + 1 then .error false
    else
      match skipWhitespace input with
      | [] => .error false
      | 34 :: rest => found (nodes + 1) ((parseString limits (34 :: rest)).map Prod.snd)
      | 123 :: rest =>
        match skipWhitespace rest with
        | 125 :: rest => .ok (nodes + 1, rest)
        | rest => skipMembers limits fuel depth (nodes + 1) [] rest
      | 91 :: rest =>
        match skipWhitespace rest with
        | 93 :: rest => .ok (nodes + 1, rest)
        | rest => skipElements limits fuel depth (nodes + 1) rest
      | input => found (nodes + 1) ((skipLiteral input).orElse (fun _ => skipNumber input))

def skipMembers (limits : PipeHostLimits) : Nat → Nat → Nat → List Bytes → Bytes → Skipped
  | 0, _, _, _, _ => .error false
  | fuel + 1, depth, nodes, keys, input =>
    match parseString limits input with
    | none => .error false
    | some (key, rest) =>
      if key ∈ keys then .error true
      else
        match consume 58 (skipWhitespace rest) with
        | none => .error false
        | some rest =>
          match skipValue limits fuel (depth + 1) nodes rest with
          | .error duplicate => .error duplicate
          | .ok (nodes, rest) =>
            match skipWhitespace rest with
            | 125 :: rest => .ok (nodes, rest)
            | 44 :: rest => skipMembers limits fuel depth nodes (keys ++ [key]) (skipWhitespace rest)
            | _ => .error false

def skipElements (limits : PipeHostLimits) : Nat → Nat → Nat → Bytes → Skipped
  | 0, _, _, _ => .error false
  | fuel + 1, depth, nodes, input =>
    match skipValue limits fuel (depth + 1) nodes input with
    | .error duplicate => .error duplicate
    | .ok (nodes, rest) =>
      match skipWhitespace rest with
      | 93 :: rest => .ok (nodes, rest)
      | 44 :: rest => skipElements limits fuel depth nodes (skipWhitespace rest)
      | _ => .error false

end

/-- The three members that matter. -/
structure Fields where
  type : Option Bytes
  channel : Option Bytes
  name : Option Bytes

def Fields.set (fields : Fields) (key value : Bytes) : Fields :=
  if key = ascii "type" then { fields with type := some value }
  else if key = ascii "channel" then { fields with channel := some value }
  else { fields with name := some value }

def wanted (key : Bytes) : Bool :=
  key = ascii "type" || key = ascii "channel" || key = ascii "name"

/-- The value of one member of the request. -/
def member (limits : PipeHostLimits) (key : Bytes) (fields : Fields) (nodes : Nat)
    (input : Bytes) : Except Bool (Fields × Nat × Bytes) :=
  if wanted key then
    match parseString limits input with
    | none => .error false
    | some (value, rest) => .ok (fields.set key value, nodes, rest)
  else
    match skipValue limits (2 * input.length + 2) 1 nodes input with
    | .error duplicate => .error duplicate
    | .ok (nodes, rest) => .ok (fields, nodes, rest)

def members (limits : PipeHostLimits) :
    Nat → List Bytes → Fields → Nat → Bytes → Except Bool (Fields × Bytes)
  | 0, _, _, _, _ => .error false
  | fuel + 1, keys, fields, nodes, input =>
    match parseString limits input with
    | none => .error false
    | some (key, rest) =>
      if key ∈ keys then .error true
      else
        match consume 58 (skipWhitespace rest) with
        | none => .error false
        | some rest =>
          match member limits key fields nodes (skipWhitespace rest) with
          | .error duplicate => .error duplicate
          | .ok (fields, nodes, rest) =>
            match skipWhitespace rest with
            | 125 :: rest => .ok (fields, rest)
            | 44 :: rest => members limits fuel (keys ++ [key]) fields nodes (skipWhitespace rest)
            | _ => .error false

def channelFrom (value : Bytes) : Option PipeChannel :=
  [PipeChannel.provider, .sync, .trigger, .remote].find?
    (fun channel => pipeChannelName channel = value)

def accept (limits : PipeHostLimits) (fields : Fields) : Except PipeHostError PipeOpenRequest :=
  if fields.type ≠ some (ascii "open") then .error .invalidOpenType
  else
    match fields.channel.bind channelFrom with
    | none => .error .unsupportedChannel
    | some channel =>
      match fields.name with
      | none => .error .invalidOpenName
      | some name =>
        if name = [] ∨ limits.maxNameBytes < name.length ∨
            name.any (fun c => c < 0x20 || c = 0x7F) then .error .invalidOpenName
        else .ok ⟨channel, name⟩

def failure (duplicate : Bool) : PipeHostError :=
  if duplicate then .duplicateOpenField else .malformedOpenJson

def object (limits : PipeHostLimits) (input : Bytes) : Except Bool (Fields × Bytes) :=
  match skipWhitespace input with
  | 125 :: rest => .ok (⟨none, none, none⟩, rest)
  | rest => members limits rest.length [] ⟨none, none, none⟩ 0 rest

def parse (limits : PipeHostLimits) (input : Bytes) : Except PipeHostError PipeOpenRequest :=
  if !validUtf8 input then .error .malformedOpenJson
  else
    match consume 123 (skipWhitespace input) with
    | none => .error .malformedOpenJson
    | some rest =>
      match object limits rest with
      | .error duplicate => .error (failure duplicate)
      | .ok (fields, rest) =>
        if skipWhitespace rest ≠ [] then .error .malformedOpenJson else accept limits fields

end OpenParser

def decodePipeOpen (payload : Bytes) (limits : PipeHostLimits) :
    Except PipeHostError PipeOpenRequest :=
  if !limits.valid then .error .invalidLimits
  else if limits.maxOpenJsonBytes < payload.length then .error .openJsonTooLarge
  else OpenParser.parse limits payload

example : (decodePipeOpen
    (ascii "\x7b\"type\":\"open\",\"x\":[1],\"channel\":\"sync\",\"name\":\"a\"\x7d")
    ⟨4096, 128, 65536, 75497472, 134217728, 134217728, 16, 256⟩).toOption =
      some ⟨.sync, ascii "a"⟩ := by
  decide +kernel

def encodePipeOpenOk (channel : PipeChannel) : Except FramingError Bytes :=
  encodeFrame FrameKind.json.value (ascii "\x7b\"type\":\"open_ok\",\"channel\":\"" ++
    pipeChannelName channel ++ ascii "\"\x7d")

end Baas.Pipe
