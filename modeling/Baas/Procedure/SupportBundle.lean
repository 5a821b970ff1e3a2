import Mathlib.Algebra.Group.Nat.Defs
import Baas.Lib.ByteOrder
import Baas.Lib.JsonGrammar
import Baas.Lib.JsonText

/-! `preflight_zip`: the container of a co_detect support bundle is checked byte for byte before
anything in it is unpacked. No stop is requested while it runs. -/
namespace Baas.SupportBundle

open JsonText (ascii)

abbrev Bytes := List UInt8

inductive CoDetectSupportBundleError
  | archiveTooLarge | invalidZip | unsupportedZipFeature | entryLimitExceeded | entryNameInvalid
  | duplicateEntry | entryOrderMismatch | manifestTooLarge | memberLimitExceeded
  | compressionLimitExceeded | workLimitExceeded
deriving DecidableEq

/-- How the check ends early: it fails, or it reads a byte that the archive does not have. -/
inductive Fault
  | failed (error : CoDetectSupportBundleError) (memberIndex : Option Nat)
  | outside
deriving DecidableEq

structure CoDetectSupportBundleLimits where
  maxArchiveBytes : Nat := 67108864
  maxEntries : Nat := 256
  maxManifestBytes : Nat := 1048576
  maxMemberBytes : Nat := 16777216
  maxTotalUncompressedBytes : Nat := 134217728
  maxCompressionRatio : Nat := 128

/-- The part of `valid_limits` about the limits of the container. -/
def validLimits (limits : CoDetectSupportBundleLimits) : Bool :=
  limits.maxArchiveBytes ≠ 0 && limits.maxArchiveBytes ≤ 67108864 &&
    limits.maxEntries ≠ 0 && limits.maxEntries ≤ 4096 &&
    limits.maxManifestBytes ≠ 0 && limits.maxManifestBytes ≤ limits.maxMemberBytes &&
    limits.maxMemberBytes ≠ 0 && limits.maxMemberBytes ≤ limits.maxTotalUncompressedBytes &&
    limits.maxTotalUncompressedBytes ≠ 0 && limits.maxTotalUncompressedBytes ≤ 268435456 &&
    limits.maxCompressionRatio ≠ 0 && limits.maxCompressionRatio ≤ 4096

abbrev ValidLimits := { limits : CoDetectSupportBundleLimits // validLimits limits }

abbrev Checked (α : Type) := Except Fault α

def failIf (c : Prop) [Decidable c] (error : CoDetectSupportBundleError)
    (memberIndex : Option Nat) : Checked Unit :=
  if c then .error (.failed error memberIndex) else .ok ()

/-! Reading. -/

def byteAt (archive : Bytes) (offset : Nat) : Checked Nat :=
  match archive[offset]? with
  | some byte => .ok byte.toNat
  | none => .error .outside

def le16 (archive : Bytes) (offset : Nat) : Checked Nat := do
  let b0 ← byteAt archive offset
  let b1 ← byteAt archive (offset + 1)
  .ok (b0 ||| b1 <<< 8)

def le32 (archive : Bytes) (offset : Nat) : Checked Nat := do
  let b0 ← byteAt archive offset
  let b1 ← byteAt archive (offset + 1)
  let b2 ← byteAt archive (offset + 2)
  let b3 ← byteAt archive (offset + 3)
  .ok (b0 ||| b1 <<< 8 ||| b2 <<< 16 ||| b3 <<< 24)

/-- The bytes that `assign` and `memcmp` read. -/
def slice (archive : Bytes) (offset size : Nat) : Checked Bytes :=
  if offset + size ≤ archive.length then .ok ((archive.drop offset).take size)
  else .error .outside

/-! Names. -/

def digit (value : Nat) : UInt8 := (ascii "0123456789abcdef").getD value 0

/-- The digits from the last one on. -/
def digits : Nat → Nat → Bytes → Bytes
  | 0, _, result => result
  | left + 1, value, result => digits left (value >>> 4) (digit (value &&& 0xf) :: result)

def physicalMemberName (logicalIndex : Nat) : Bytes :=
  ascii "m" ++ digits 8 (logicalIndex % 2 ^ 32) []

def expectedEntryName (archiveIndex : Nat) : Bytes :=
  if archiveIndex = 0 then ascii "bundle.magic"
  else if archiveIndex = 1 then ascii "manifest.json"
  else physicalMemberName (archiveIndex - 2)

structure ZipEntry where
  name : Bytes
  versionNeeded : Nat
  flags : Nat
  method : Nat
  crc32 : Nat
  compressedSize : Nat
  uncompressedSize : Nat
  localOffset : Nat
deriving DecidableEq

def regularPhysicalType (versionMade externalAttributes : Nat) : Bool :=
  if externalAttributes &&& 0x10 ≠ 0 then false
  else if versionMade >>> 8 ≠ 3 then true
  else
    let type := (externalAttributes >>> 16 &&& 0xffff) &&& 0o170000
    type = 0 || type = 0o100000

/-! The central directory. -/

def memberIndex (index : Nat) : Option Nat := if index ≥ 2 then some (index - 2) else none

/-- What is asked of an entry once its header has been read. `total` is what the members so far
unpack to, and the result is that with this entry. -/
def checkEntry (limits : CoDetectSupportBundleLimits) (index total : Nat) (names : List Bytes)
    (entry : ZipEntry) : Checked Nat := do
  failIf (entry.name.any (fun c => c = 0 || c = 47 || c = 92)) .entryNameInvalid (some index)
  failIf (entry.name ∈ names) .duplicateEntry (some index)
  failIf (entry.name ≠ expectedEntryName index) .entryOrderMismatch (some index)
  failIf ((index < 2 ∧ entry.method ≠ 0) ∨ (index = 0 ∧ entry.uncompressedSize ≠ 16) ∨
      (index = 1 ∧ entry.uncompressedSize > limits.maxManifestBytes))
    (if index = 1 then .manifestTooLarge else .unsupportedZipFeature) (some index)
  failIf (index ≥ 2 ∧ (entry.uncompressedSize = 0 ∨
      entry.uncompressedSize > limits.maxMemberBytes)) .memberLimitExceeded (memberIndex index)
  failIf (index ≥ 2 ∧ entry.uncompressedSize >
      limits.maxTotalUncompressedBytes - min total limits.maxTotalUncompressedBytes)
    .memberLimitExceeded (memberIndex index)
  failIf (entry.uncompressedSize ≠ 0 ∧ (entry.compressedSize = 0 ∨
      entry.compressedSize > (2 ^ 64 - 1) / limits.maxCompressionRatio ∨
      entry.uncompressedSize > entry.compressedSize * limits.maxCompressionRatio))
    .compressionLimitExceeded (memberIndex index)
  .ok (if index ≥ 2 then total + entry.uncompressedSize else total)

/-- The header at `cursor`, and the total after it. -/
def centralEntry (archive : Bytes) (limits : CoDetectSupportBundleLimits)
    (eocd cursor index total : Nat) (names : List Bytes) : Checked (ZipEntry × Nat) := do
  failIf (cursor > eocd ∨ eocd - cursor < 46) .invalidZip (some index)
  let signature ← le32 archive cursor
  failIf (signature ≠ 0x02014b50) .invalidZip (some index)
  let versionMade ← le16 archive (cursor + 4)
  let versionNeeded ← le16 archive (cursor + 6)
  let flags ← le16 archive (cursor + 8)
  let method ← le16 archive (cursor + 10)
  let crc32 ← le32 archive (cursor + 16)
  let compressedSize ← le32 archive (cursor + 20)
  let uncompressedSize ← le32 archive (cursor + 24)
  let nameSize ← le16 archive (cursor + 28)
  let extraSize ← le16 archive (cursor + 30)
  let commentSize ← le16 archive (cursor + 32)
  let diskStart ← le16 archive (cursor + 34)
  let externalAttributes ← le32 archive (cursor + 38)
  let localOffset ← le32 archive (cursor + 42)
  failIf (versionNeeded ≥ 45 ∨ compressedSize = 0xffffffff ∨ uncompressedSize = 0xffffffff ∨
    localOffset = 0xffffffff) .unsupportedZipFeature (some index)
  failIf (flags ≠ 0 ∨ (method ≠ 0 ∧ method ≠ 8) ∨ (method = 0 ∧ versionNeeded ≠ 10) ∨
    (method = 8 ∧ versionNeeded ≠ 20) ∨ extraSize ≠ 0 ∨ commentSize ≠ 0 ∨ diskStart ≠ 0 ∨
    !regularPhysicalType versionMade externalAttributes) .unsupportedZipFeature (some index)
  failIf (nameSize = 0 ∨ nameSize > 32 ∨ nameSize > eocd - cursor - 46 - extraSize - commentSize)
    .entryNameInvalid (some index)
  let name ← slice archive (cursor + 46) nameSize
  let entry : ZipEntry := ⟨name, versionNeeded, flags, method, crc32, compressedSize,
    uncompressedSize, localOffset⟩
  let total ← checkEntry limits index total names entry
  .ok (entry, total)

def centralLoop (archive : Bytes) (limits : CoDetectSupportBundleLimits) (eocd : Nat) :
    Nat → (cursor index total : Nat) → List Bytes → Checked (List ZipEntry × Nat)
  | 0, cursor, _, _, _ => .ok ([], cursor)
  | left + 1, cursor, index, total, names => do
    let (entry, total) ← centralEntry archive limits eocd cursor index total names
    let (entries, last) ← centralLoop archive limits eocd left (cursor + 46 + entry.name.length)
      (index + 1) total (entry.name :: names)
    .ok (entry :: entries, last)

/-! The local headers. -/

/-- Where the header after that of `entry` has to be. -/
def localEntry (archive : Bytes) (centralOffset index expected : Nat) (entry : ZipEntry) :
    Checked Nat := do
  failIf (entry.localOffset ≠ expected ∨ entry.localOffset > centralOffset ∨
    centralOffset - entry.localOffset < 30) .entryOrderMismatch (some index)
  let signature ← le32 archive entry.localOffset
  failIf (signature ≠ 0x04034b50) .entryOrderMismatch (some index)
  let nameSize ← le16 archive (entry.localOffset + 26)
  let extraSize ← le16 archive (entry.localOffset + 28)
  failIf (extraSize ≠ 0 ∨ nameSize ≠ entry.name.length) .unsupportedZipFeature (some index)
  let versionNeeded ← le16 archive (entry.localOffset + 4)
  let flags ← le16 archive (entry.localOffset + 6)
  let method ← le16 archive (entry.localOffset + 8)
  let crc32 ← le32 archive (entry.localOffset + 14)
  let compressedSize ← le32 archive (entry.localOffset + 18)
  let uncompressedSize ← le32 archive (entry.localOffset + 22)
  failIf (entry.versionNeeded ≠ versionNeeded ∨ entry.flags ≠ flags ∨ entry.method ≠ method ∨
    entry.crc32 ≠ crc32 ∨ entry.compressedSize ≠ compressedSize ∨
    entry.uncompressedSize ≠ uncompressedSize) .unsupportedZipFeature (some index)
  let nameOffset := entry.localOffset + 30
  failIf (nameOffset > centralOffset ∨ nameSize > centralOffset - nameOffset)
    .entryOrderMismatch (some index)
  let name ← slice archive nameOffset nameSize
  failIf (name ≠ entry.name) .entryOrderMismatch (some index)
  let dataOffset := nameOffset + nameSize
  failIf (dataOffset > centralOffset ∨ entry.compressedSize > centralOffset - dataOffset)
    .invalidZip (some index)
  .ok (dataOffset + entry.compressedSize)

def localLoop (archive : Bytes) (centralOffset : Nat) :
    (index expected : Nat) → List ZipEntry → Checked Nat
  | _, expected, [] => .ok expected
  | index, expected, entry :: entries => do
    let next ← localEntry archive centralOffset index expected entry
    localLoop archive centralOffset (index + 1) next entries

/-- `preflight_zip`, with the work that is left afterwards. -/
def preflightZip (archive : Bytes) (limits : CoDetectSupportBundleLimits) (work : Nat) :
    Checked (List ZipEntry × Nat) := do
  failIf (archive.length < 22 ∨ archive.length > limits.maxArchiveBytes)
    (if archive.length > limits.maxArchiveBytes then .archiveTooLarge else .invalidZip) none
  failIf (archive.length > work) .workLimitExceeded none
  let first ← le32 archive 0
  failIf (first ≠ 0x04034b50) .invalidZip none
  let eocd := archive.length - 22
  let signature ← le32 archive eocd
  let comment ← le16 archive (eocd + 20)
  failIf (signature ≠ 0x06054b50 ∨ comment ≠ 0) .invalidZip none
  let disk ← le16 archive (eocd + 4)
  let centralDisk ← le16 archive (eocd + 6)
  failIf (disk ≠ 0 ∨ centralDisk ≠ 0) .unsupportedZipFeature none
  let diskEntries ← le16 archive (eocd + 8)
  let entryCount ← le16 archive (eocd + 10)
  failIf (diskEntries = 0xffff ∨ entryCount = 0xffff) .unsupportedZipFeature none
  failIf (diskEntries ≠ entryCount ∨ entryCount < 3) .invalidZip none
  failIf (entryCount > limits.maxEntries + 2) .entryLimitExceeded none
  let centralSize ← le32 archive (eocd + 12)
  let centralOffset ← le32 archive (eocd + 16)
  failIf (centralSize = 0xffffffff ∨ centralOffset = 0xffffffff ∨ centralOffset > eocd ∨
    centralSize ≠ eocd - centralOffset) .unsupportedZipFeature none
  let (entries, cursor) ← centralLoop archive limits eocd entryCount centralOffset 0 0 []
  failIf (cursor ≠ eocd) .invalidZip none
  let last ← localLoop archive centralOffset 0 0 entries
  failIf (last ≠ centralOffset) .invalidZip none
  .ok (entries, work - archive.length)

end Baas.SupportBundle
