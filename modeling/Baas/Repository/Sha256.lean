import Baas.Lib.Fips180
import Baas.Lib.JsonText

/-! The `Sha256` classes of the repository code. There are three of them, in the tree format,
in the snapshot and in the updater; they differ in nothing but the tables they spell out. -/
namespace Baas.Digest

open Fips180 (Word Chain Working)
open JsonText (ascii)

/-- `sha256_constants` and the first value of `state_`. -/
structure Tables where
  constants : List Word
  initial : Chain

structure Sha256 where
  state : Chain
  block : List UInt8 := List.replicate 64 0
  blockSize : Nat := 0
  totalBytes : Nat := 0

def Tables.start (tables : Tables) : Sha256 := { state := tables.initial }

/-! `transform`. -/

def word (block : List UInt8) (index : Nat) : Word :=
  let offset := index * 4
  (block.getD offset 0).toBitVec.setWidth 32 <<< 24 |||
    (block.getD (offset + 1) 0).toBitVec.setWidth 32 <<< 16 |||
    (block.getD (offset + 2) 0).toBitVec.setWidth 32 <<< 8 |||
    (block.getD (offset + 3) 0).toBitVec.setWidth 32

def load (block : List UInt8) : List Word :=
  (List.range 16).foldl (fun schedule index => schedule.set index (word block index))
    (List.replicate 64 0)

def extendStep (schedule : List Word) (index : Nat) : List Word :=
  let at15 := schedule.getD (index - 15) 0
  let at2 := schedule.getD (index - 2) 0
  let s0 := at15.rotateRight 7 ^^^ at15.rotateRight 18 ^^^ at15 >>> 3
  let s1 := at2.rotateRight 17 ^^^ at2.rotateRight 19 ^^^ at2 >>> 10
  schedule.set index (schedule.getD (index - 16) 0 + s0 + schedule.getD (index - 7) 0 + s1)

def extend (schedule : List Word) : List Word := (List.range' 16 48).foldl extendStep schedule

def round (constants schedule : List Word) (v : Working) (index : Nat) : Working :=
  let s1 := v.e.rotateRight 6 ^^^ v.e.rotateRight 11 ^^^ v.e.rotateRight 25
  let t1 := v.h + s1 + ((v.e &&& v.f) ^^^ (~~~v.e &&& v.g)) + constants.getD index 0 +
    schedule.getD index 0
  let s0 := v.a.rotateRight 2 ^^^ v.a.rotateRight 13 ^^^ v.a.rotateRight 22
  let t2 := s0 + ((v.a &&& v.b) ^^^ (v.a &&& v.c) ^^^ (v.b &&& v.c))
  { a := t1 + t2, b := v.a, c := v.b, d := v.c, e := v.d + t1, f := v.e, g := v.f, h := v.g }

def locals (state : Chain) : Working :=
  ⟨state[0], state[1], state[2], state[3], state[4], state[5], state[6], state[7]⟩

def addLocals (state : Chain) (v : Working) : Chain :=
  #v[state[0] + v.a, state[1] + v.b, state[2] + v.c, state[3] + v.d, state[4] + v.e,
    state[5] + v.f, state[6] + v.g, state[7] + v.h]

def Sha256.transform (tables : Tables) (hash : Sha256) : Sha256 :=
  let schedule := extend (load hash.block)
  let v := (List.range 64).foldl (round tables.constants schedule) (locals hash.state)
  { hash with state := addLocals hash.state v }

/-! `update` and `finish`. -/

/-- `block_[block_size_++] = value`. -/
def Sha256.write (hash : Sha256) (value : UInt8) : Sha256 :=
  { hash with block := hash.block.set hash.blockSize value, blockSize := hash.blockSize + 1 }

def updateByte (tables : Tables) (hash : Sha256) (value : UInt8) : Sha256 :=
  let hash := hash.write value
  let hash := { hash with totalBytes := (hash.totalBytes + 1) % 2 ^ 64 }
  if hash.blockSize = 64 then { hash.transform tables with blockSize := 0 } else hash

def Sha256.update (tables : Tables) (hash : Sha256) (input : List UInt8) : Sha256 :=
  input.foldl (updateByte tables) hash

/-- `while (block_size_ < limit) block_[block_size_++] = 0`. -/
def Sha256.fill (hash : Sha256) (limit : Nat) : Sha256 :=
  if hash.blockSize < limit then (hash.write 0).fill limit else hash
termination_by limit - hash.blockSize
decreasing_by simp only [Sha256.write]; omega

def Sha256.finish (tables : Tables) (hash : Sha256) : List UInt8 :=
  let bits := hash.totalBytes * 8 % 2 ^ 64
  let hash := hash.write 0x80
  let hash :=
    if hash.blockSize > 56 then { (hash.fill 64).transform tables with blockSize := 0 } else hash
  let hash := hash.fill 56
  let hash := (List.range 8).foldl (fun (hash : Sha256) index =>
    { hash with block := hash.block.set (63 - index) (UInt8.ofNat (bits >>> (index * 8))) }) hash
  let hash := hash.transform tables
  hash.state.toList.flatMap (fun word : Word =>
    (List.range 4).map (fun byte => UInt8.ofNat (word >>> ((3 - byte) * 8)).toNat))

/-- The digest of a text that arrives in chunks. -/
def digest (tables : Tables) (chunks : List (List UInt8)) : List UInt8 :=
  (chunks.foldl (Sha256.update tables) tables.start).finish tables

/-! The three classes. -/

def treeFormat : Tables where
  constants := [
    0x428a2f98, 0x71374491, 0xb5c0fbcf, 0xe9b5dba5, 0x3956c25b, 0x59f111f1, 0x923f82a4,
    0xab1c5ed5, 0xd807aa98, 0x12835b01, 0x243185be, 0x550c7dc3, 0x72be5d74, 0x80deb1fe,
    0x9bdc06a7, 0xc19bf174, 0xe49b69c1, 0xefbe4786, 0x0fc19dc6, 0x240ca1cc, 0x2de92c6f,
    0x4a7484aa, 0x5cb0a9dc, 0x76f988da, 0x983e5152, 0xa831c66d, 0xb00327c8, 0xbf597fc7,
    0xc6e00bf3, 0xd5a79147, 0x06ca6351, 0x14292967, 0x27b70a85, 0x2e1b2138, 0x4d2c6dfc,
    0x53380d13, 0x650a7354, 0x766a0abb, 0x81c2c92e, 0x92722c85, 0xa2bfe8a1, 0xa81a664b,
    0xc24b8b70, 0xc76c51a3, 0xd192e819, 0xd6990624, 0xf40e3585, 0x106aa070, 0x19a4c116,
    0x1e376c08, 0x2748774c, 0x34b0bcb5, 0x391c0cb3, 0x4ed8aa4a, 0x5b9cca4f, 0x682e6ff3,
    0x748f82ee, 0x78a5636f, 0x84c87814, 0x8cc70208, 0x90befffa, 0xa4506ceb, 0xbef9a3f7,
    0xc67178f2]
  initial := #v[0x6a09e667, 0xbb67ae85, 0x3c6ef372, 0xa54ff53a, 0x510e527f, 0x9b05688c,
    0x1f83d9ab, 0x5be0cd19]

def snapshot : Tables where
  constants := [
    0x428a2f98, 0x71374491, 0xb5c0fbcf, 0xe9b5dba5, 0x3956c25b, 0x59f111f1, 0x923f82a4,
    0xab1c5ed5, 0xd807aa98, 0x12835b01, 0x243185be, 0x550c7dc3, 0x72be5d74, 0x80deb1fe,
    0x9bdc06a7, 0xc19bf174, 0xe49b69c1, 0xefbe4786, 0x0fc19dc6, 0x240ca1cc, 0x2de92c6f,
    0x4a7484aa, 0x5cb0a9dc, 0x76f988da, 0x983e5152, 0xa831c66d, 0xb00327c8, 0xbf597fc7,
    0xc6e00bf3, 0xd5a79147, 0x06ca6351, 0x14292967, 0x27b70a85, 0x2e1b2138, 0x4d2c6dfc,
    0x53380d13, 0x650a7354, 0x766a0abb, 0x81c2c92e, 0x92722c85, 0xa2bfe8a1, 0xa81a664b,
    0xc24b8b70, 0xc76c51a3, 0xd192e819, 0xd6990624, 0xf40e3585, 0x106aa070, 0x19a4c116,
    0x1e376c08, 0x2748774c, 0x34b0bcb5, 0x391c0cb3, 0x4ed8aa4a, 0x5b9cca4f, 0x682e6ff3,
    0x748f82ee, 0x78a5636f, 0x84c87814, 0x8cc70208, 0x90befffa, 0xa4506ceb, 0xbef9a3f7,
    0xc67178f2]
  initial := #v[0x6a09e667, 0xbb67ae85, 0x3c6ef372, 0xa54ff53a, 0x510e527f, 0x9b05688c,
    0x1f83d9ab, 0x5be0cd19]

def updater : Tables where
  constants := [
    0x428a2f98, 0x71374491, 0xb5c0fbcf, 0xe9b5dba5, 0x3956c25b, 0x59f111f1, 0x923f82a4,
    0xab1c5ed5, 0xd807aa98, 0x12835b01, 0x243185be, 0x550c7dc3, 0x72be5d74, 0x80deb1fe,
    0x9bdc06a7, 0xc19bf174, 0xe49b69c1, 0xefbe4786, 0x0fc19dc6, 0x240ca1cc, 0x2de92c6f,
    0x4a7484aa, 0x5cb0a9dc, 0x76f988da, 0x983e5152, 0xa831c66d, 0xb00327c8, 0xbf597fc7,
    0xc6e00bf3, 0xd5a79147, 0x06ca6351, 0x14292967, 0x27b70a85, 0x2e1b2138, 0x4d2c6dfc,
    0x53380d13, 0x650a7354, 0x766a0abb, 0x81c2c92e, 0x92722c85, 0xa2bfe8a1, 0xa81a664b,
    0xc24b8b70, 0xc76c51a3, 0xd192e819, 0xd6990624, 0xf40e3585, 0x106aa070, 0x19a4c116,
    0x1e376c08, 0x2748774c, 0x34b0bcb5, 0x391c0cb3, 0x4ed8aa4a, 0x5b9cca4f, 0x682e6ff3,
    0x748f82ee, 0x78a5636f, 0x84c87814, 0x8cc70208, 0x90befffa, 0xa4506ceb, 0xbef9a3f7,
    0xc67178f2]
  initial := #v[0x6a09e667, 0xbb67ae85, 0x3c6ef372, 0xa54ff53a, 0x510e527f, 0x9b05688c,
    0x1f83d9ab, 0x5be0cd19]

/-! The digest that names a generation. -/

/-- A `std::string`: its size fits the 64 bits it is written in. -/
abbrev StdString := { text : List UInt8 // text.length < 2 ^ 64 }

structure RuntimeRepository where
  id : StdString
  commit : StdString
  root : StdString
  manifest : StdString
  manifestSha256 : StdString
deriving DecidableEq

def hexDigit (value : Nat) : UInt8 := (ascii "0123456789abcdef").getD value 0

def hex (digest : List UInt8) : List UInt8 :=
  digest.flatMap (fun value => [hexDigit (value.toNat >>> 4), hexDigit (value.toNat &&& 0x0f)])

/-- The eight bytes of the length: `length[7 - index]` is its byte number `index`. -/
def lengthField (size : Nat) : List UInt8 :=
  (List.range 8).foldl (fun length index =>
    length.set (7 - index) (UInt8.ofNat (size >>> (index * 8)))) (List.replicate 8 0)

def snapshotSchema : List UInt8 := ascii "baas.runtime-repositories.snapshot/v1"

/-- `add_field`. -/
def addField (hash : Sha256) (value : List UInt8) : Sha256 :=
  (hash.update snapshot (lengthField value.length)).update snapshot value

def fields (item : RuntimeRepository) : List StdString :=
  [item.id, item.commit, item.root, item.manifest, item.manifestSha256]

def runtimeRepositoryGeneration (repositories : RuntimeRepository × RuntimeRepository) :
    Except String (List UInt8) :=
  if repositories.1.id.val ≠ ascii "resources" ∨ repositories.2.id.val ≠ ascii "scripts" then
    .error "repositories are not canonically ordered"
  else
    let hash := addField snapshot.start snapshotSchema
    let hash := (fields repositories.1).foldl (fun hash value => addField hash value.val) hash
    let hash := (fields repositories.2).foldl (fun hash value => addField hash value.val) hash
    .ok (hex (hash.finish snapshot))

end Baas.Digest
