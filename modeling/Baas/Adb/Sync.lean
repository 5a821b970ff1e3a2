import Baas.Lib.Decimal
import Baas.Lib.JsonText
import Baas.Lib.Program

/-! `ServiceAdbSync::push`: a file goes to a device as a run of frames on one stream, read
from its source chunk by chunk, and the device answers with a status. -/
namespace Baas.Adb

open JsonText (ascii)

abbrev Bytes := List UInt8

inductive AdbTransportError
  | invalidArgument | capacity | connectionFailed | timeout | cancelled | protocolError
  | adbFail | localIoError | closed | internalError
deriving DecidableEq

structure Failure where
  error : AdbTransportError
  message : Bytes := []
deriving DecidableEq

structure AdbSyncLimits where
  maxPathBytes : Nat := 1024
  maxFileBytes : Nat := 134217728
  dataChunkBytes : Nat := 65536
  maxFailMessageBytes : Nat := 65536

/-- What the constructor asks of the limits; `operation_timeout` is part of the clock. -/
structure ServiceAdbSync where
  limits : AdbSyncLimits
  pathBytes : 0 < limits.maxPathBytes ∧ limits.maxPathBytes ≤ 1024
  fileBytes : 0 < limits.maxFileBytes
  chunkBytes : 0 < limits.dataChunkBytes ∧ limits.dataChunkBytes ≤ 65536
  failBytes : 0 < limits.maxFailMessageBytes

/-! The remote path. -/

/-- How many bytes follow a lead byte, and the bits it gives. -/
def leadOf (lead : UInt8) : Option (Nat × Nat) :=
  if 0xC2 ≤ lead ∧ lead ≤ 0xDF then some (1, (lead &&& 0x1F).toNat)
  else if 0xE0 ≤ lead ∧ lead ≤ 0xEF then some (2, (lead &&& 0x0F).toNat)
  else if 0xF0 ≤ lead ∧ lead ≤ 0xF4 then some (3, (lead &&& 0x07).toNat)
  else none

def continued (codepoint : Nat) : Bytes → Option Nat
  | [] => some codepoint
  | byte :: rest =>
    if byte &&& 0xC0 ≠ 0x80 then none
    else continued (codepoint <<< 6 ||| (byte &&& 0x3F).toNat) rest

def validUtf8 : Bytes → Bool
  | [] => true
  | lead :: rest =>
    if lead < 0x80 then validUtf8 rest
    else
      match leadOf lead with
      | none => false
      | some (continuation, start) =>
        if continuation > rest.length then false
        else
          match continued start (rest.take continuation) with
          | none => false
          | some codepoint =>
            if (continuation = 2 ∧ codepoint < 0x800) ∨ (continuation = 3 ∧ codepoint < 0x10000) ∨
                (0xD800 ≤ codepoint ∧ codepoint ≤ 0xDFFF) ∨ codepoint > 0x10FFFF then false
            else validUtf8 (rest.drop continuation)
termination_by text => text.length
decreasing_by all_goals simp only [List.length_drop, List.length_cons]; omega

def safeRemotePath (path : Bytes) (maximum : Nat) : Bool :=
  if path = [] ∨ path.length > maximum ∨ path.head? ≠ some 47 ∨ path.getLast? = some 47 ∨
      !validUtf8 path then false
  else if path.any (fun byte => byte < 0x20 || byte = 0x7F || byte = 92 || byte = 44) then false
  else ((path.drop 1).splitOn 47).all (fun part =>
    !(part = [] || part = ascii "." || part = ascii ".."))

/-! Frames. -/

def le32 (value : Nat) : Bytes :=
  [UInt8.ofNat (value &&& 0xFF), UInt8.ofNat (value >>> 8 &&& 0xFF),
    UInt8.ofNat (value >>> 16 &&& 0xFF), UInt8.ofNat (value >>> 24 &&& 0xFF)]

def decodeLe32 (bytes : Bytes) : Nat :=
  (bytes.getD 0 0).toNat ||| (bytes.getD 1 0).toNat <<< 8 ||| (bytes.getD 2 0).toNat <<< 16 |||
    (bytes.getD 3 0).toNat <<< 24

def header (id : String) (value : Nat) : Bytes := ascii id ++ le32 value

/-! The stream. -/

inductive AdbStreamStatus
  | ok | eof | timeout | cancelled | error
deriving DecidableEq

def mapStreamStatus : AdbStreamStatus → AdbTransportError
  | .timeout => .timeout
  | .cancelled => .cancelled
  | .eof => .protocolError
  | .error => .connectionFailed
  | .ok => .internalError

/-- How a turn of the loop of `write_all_until` goes: it sees a stop request or the deadline,
or the byte stream answers. -/
inductive WriteTurn
  | stopped (error : AdbTransportError)
  | answered (status : AdbStreamStatus) (transferred : Nat)

/-- What a read gives once the response is used up. -/
inductive Ending
  | eof
  | failed (error : AdbTransportError)
deriving DecidableEq

/-- The other side of a stream: how it opens, how each write goes, and what it answers, cut
into reads of at most `split` bytes. -/
structure Peer where
  opened : Except Failure Unit
  entered : Nat → Option AdbTransportError
  turn : Nat → WriteTurn
  response : Bytes
  ending : Ending
  split : Nat → Nat
  maxResponseBytes : Nat
  maxTotalBytes : Nat

/-- What has happened on the stream: the bytes the device has got, the bytes read of its
response and the ones still to come. -/
structure World where
  entries : Nat := 0
  turns : Nat := 0
  reads : Nat := 0
  sourceReads : Nat := 0
  sent : Bytes := []
  received : Bytes := []
  answer : Bytes

abbrev Step (α : Type) := Program World Failure α

variable (peer : Peer)

/-- A turn of the loop of `write_all_until`; the byte stream may take bytes and fail. -/
def writeSome (bytes : Bytes) : Step Nat := fun world =>
  let next := { world with turns := world.turns + 1 }
  match peer.turn world.turns with
  | .stopped error => (.error ⟨error, []⟩, next)
  | .answered status transferred =>
    let next := { next with sent := next.sent ++ bytes.take transferred }
    if status ≠ .ok ∨ transferred = 0 then (.error ⟨mapStreamStatus status, []⟩, next)
    else if transferred > bytes.length then (.error ⟨.protocolError, []⟩, next)
    else (.ok transferred, next)

def writeLoop : Nat → Bytes → Step Unit
  | 0, _ => pure ()
  | left + 1, bytes =>
    if bytes = [] then pure ()
    else do
      let transferred ← writeSome peer bytes
      writeLoop left (bytes.drop transferred)

/-- `write_all_until`: a turn sends at least one byte, so there are at most as many turns. -/
def writeAll (bytes : Bytes) : Step Unit := fun world =>
  let next := { world with entries := world.entries + 1 }
  match peer.entered world.entries with
  | some error => (.error ⟨error, []⟩, next)
  | none =>
    if bytes.length > peer.maxTotalBytes then (.error ⟨.capacity, []⟩, next)
    else writeLoop peer bytes.length bytes next

/-- `read_some_until`. -/
def readSome (maximum : Nat) : Step Bytes := fun world =>
  if world.answer = [] ∧ peer.ending = .failed .closed then (.error ⟨.closed, []⟩, world)
  else if maximum = 0 ∨ maximum > peer.maxResponseBytes then (.error ⟨.capacity, []⟩, world)
  else if world.answer = [] then
    match peer.ending with
    | .eof => (.ok [], world)
    | .failed error => (.error ⟨error, []⟩, world)
  else
    let transferred := min (max 1 (peer.split world.reads)) maximum
    (.ok (world.answer.take transferred),
      { world with
        reads := world.reads + 1
        received := world.received ++ world.answer.take transferred
        answer := world.answer.drop transferred })

/-- `read_exact`. -/
def readExact (count : Nat) : Step Bytes :=
  if count = 0 then pure []
  else do
    let chunk ← readSome peer count
    if chunk = [] then Program.raise ⟨.protocolError, ascii "truncated ADB SYNC frame"⟩
    else do
      let rest ← readExact (count - chunk.length)
      pure (chunk ++ rest)
termination_by count
decreasing_by
  have := List.length_pos_iff.mpr ‹chunk ≠ []›
  omega

variable (service : ServiceAdbSync)

def readFail : Step Bytes := do
  let encodedSize ← readExact peer 4
  let size := decodeLe32 encodedSize
  if size > service.limits.maxFailMessageBytes then
    Program.raise ⟨.capacity, ascii "ADB SYNC FAIL exceeds limit"⟩
  else readExact peer size

/-- The length in an `OKAY` is read and ignored. -/
def expectStatus : Step Unit := do
  let word ← readExact peer 4
  if word ≠ ascii "OKAY" ∧ word ≠ ascii "FAIL" then
    Program.raise ⟨.protocolError, ascii "unexpected ADB SYNC status"⟩
  else if word = ascii "FAIL" then do
    let message ← readFail peer service
    Program.raise ⟨.adbFail, message⟩
  else do
    let _ ← readExact peer 4
    pure ()

/-! The push. -/

/-- The reader of the source: how many of the wanted bytes its next call gives. -/
abbrev Reader := Nat → Nat → Except Failure Nat

/-- The reader of `push`: a span in memory, unless the caller has asked to stop. -/
def spanReader (stopped : Nat → Bool) : Reader := fun call wanted =>
  if stopped call then .error ⟨.cancelled, []⟩ else .ok wanted

structure PushRequest where
  remotePath : Bytes
  permissions : Nat
  modifiedTime : Nat
  /-- The seconds of the system clock when `DONE` is sent. -/
  now : Int

def effectiveMtime (requested : Nat) (now : Int) : Nat :=
  if requested ≠ 0 then requested
  else if now ≤ 0 then 1
  else min now.toNat (2 ^ 32 - 1)

def modePath (request : PushRequest) : Bytes :=
  request.remotePath ++ ascii "," ++ Decimal.decimal (0o100000 ||| request.permissions)

variable (reader : Reader) (content : Bytes)

def readSource (total wanted : Nat) : Step Bytes := fun world =>
  let next := { world with sourceReads := world.sourceReads + 1 }
  match reader world.sourceReads wanted with
  | .error failure => (.error failure, next)
  | .ok got =>
    if got ≠ wanted then
      (.error ⟨.localIoError, ascii "local source changed or read failed"⟩, next)
    else (.ok ((content.drop total).take got), next)

/-- The `DATA` frames from `total` on. -/
def sendData (total : Nat) : Step Unit :=
  if total < content.length then do
    let wanted := min service.limits.dataChunkBytes (content.length - total)
    let chunk ← readSource reader content total wanted
    writeAll peer (header "DATA" wanted)
    writeAll peer chunk
    sendData (total + wanted)
  else pure ()
termination_by content.length - total
decreasing_by
  have := service.chunkBytes.1
  omega

/-- The steps of `push_impl` before `DONE`. -/
def pushBody (request : PushRequest) : Step Unit := do
  Program.refuseIf (!safeRemotePath request.remotePath service.limits.maxPathBytes ∨
    request.permissions > 0o777) ⟨.invalidArgument, []⟩
  Program.refuseIf (content.length > service.limits.maxFileBytes)
    ⟨.capacity, ascii "local source exceeds ADB SYNC limit"⟩
  Program.refuseIf ((modePath request).length > service.limits.maxPathBytes)
    ⟨.capacity, ascii "ADB SYNC SEND path exceeds limit"⟩
  Program.query (fun _ => peer.opened)
  writeAll peer (header "SEND" (modePath request).length)
  writeAll peer (modePath request)
  sendData peer service reader content 0

/-- `push_impl`, for a source whose size is that of `content`. -/
def pushImpl (request : PushRequest) : Step Nat := do
  pushBody peer service reader content request
  writeAll peer (header "DONE" (effectiveMtime request.modifiedTime request.now))
  expectStatus peer service
  pure content.length

def push (stopped : Nat → Bool) (request : PushRequest) : Step Nat :=
  pushImpl peer service (spanReader stopped) content request

end Baas.Adb
