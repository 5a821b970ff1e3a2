import Mathlib.Data.BitVec
import Mathlib.Data.Nat.NthRoot.Defs
import Mathlib.Data.List.Basic

/-! SHA-256 as the Secure Hash Standard states it, over messages of whole bytes: words of 32
bits, the padded message cut into blocks, and one compression for each block. -/
namespace Fips180

abbrev Word := BitVec 32
abbrev Chain := Vector Word 8

def rotr (n : Nat) (x : Word) : Word := x >>> n ||| x <<< (32 - n)
def ch (x y z : Word) : Word := (x &&& y) ^^^ (~~~x &&& z)
def maj (x y z : Word) : Word := (x &&& y) ^^^ (x &&& z) ^^^ (y &&& z)
def upperSigma0 (x : Word) : Word := rotr 2 x ^^^ rotr 13 x ^^^ rotr 22 x
def upperSigma1 (x : Word) : Word := rotr 6 x ^^^ rotr 11 x ^^^ rotr 25 x
def lowerSigma0 (x : Word) : Word := rotr 7 x ^^^ rotr 18 x ^^^ x >>> 3
def lowerSigma1 (x : Word) : Word := rotr 17 x ^^^ rotr 19 x ^^^ x >>> 10

/-- The first 64 primes: the numbers from 2 on that no smaller prime divides. -/
def primes : List Nat :=
  (List.range' 2 310).foldl (fun found n => if found.any (· ∣ n) then found else found ++ [n]) []

/-- The first 32 bits of the fractional part of the `k`-th root of `p`. -/
def rootBits (k p : Nat) : Word := BitVec.ofNat 32 (Nat.nthRoot k (p * 2 ^ (32 * k)))

def constants : List Word := primes.map (rootBits 3)
def initial : List Word := (primes.take 8).map (rootBits 2)

/-- `size` bytes of a number, the most significant one first. -/
def bigEndian (size x : Nat) : List UInt8 :=
  (List.range size).map (fun i => UInt8.ofNat (x / 256 ^ (size - 1 - i)))

@[simp] theorem bigEndian_length (size x : Nat) : (bigEndian size x).length = size := by
  simp [bigEndian]

theorem bigEndian_succ (size x : Nat) :
    bigEndian (size + 1) x = bigEndian size (x / 256) ++ [UInt8.ofNat x] := by
  rw [bigEndian, List.range_succ, List.map_append, bigEndian]
  congr 1
  · apply List.map_congr_left
    intro i there
    have below := List.mem_range.mp there
    have lower : size + 1 - 1 - i = (size - 1 - i) + 1 := by omega
    rw [lower, Nat.pow_succ', Nat.div_div_eq_div_mul]
  · simp

theorem bigEndian_injective {size x y : Nat} (small : x < 256 ^ size) (small' : y < 256 ^ size)
    (same : bigEndian size x = bigEndian size y) : x = y := by
  induction size generalizing x y with
  | zero => omega
  | succ size ih =>
    rw [bigEndian_succ, bigEndian_succ] at same
    obtain ⟨front, last⟩ := List.append_inj same (by simp)
    have high := ih (Nat.div_lt_of_lt_mul (by rwa [Nat.pow_succ'] at small))
      (Nat.div_lt_of_lt_mul (by rwa [Nat.pow_succ'] at small')) front
    have low : x % 256 = y % 256 := by
      have bytes := congrArg UInt8.toNat (List.cons.inj last).1
      rwa [UInt8.toNat_ofNat', UInt8.toNat_ofNat'] at bytes
    omega

/-! The padded message is a whole number of blocks of 64 bytes. -/

def padding (length : Nat) : List UInt8 :=
  0x80 :: List.replicate ((119 - length % 64) % 64) 0 ++ bigEndian 8 (8 * length)

def blocks (text : List UInt8) : List (List UInt8) :=
  if 64 ≤ text.length then text.take 64 :: blocks (text.drop 64) else []
termination_by text.length
decreasing_by simp only [List.length_drop]; omega

/-- Word `t` of a block. -/
def wordAt (block : List UInt8) (t : Nat) : Word :=
  BitVec.ofNat 32 ((((block.getD (4 * t) 0).toNat * 256 + (block.getD (4 * t + 1) 0).toNat) * 256 +
    (block.getD (4 * t + 2) 0).toNat) * 256 + (block.getD (4 * t + 3) 0).toNat)

/-- The message schedule of a block. -/
def schedule (block : List UInt8) (t : Nat) : Word :=
  if t < 16 then wordAt block t
  else lowerSigma1 (schedule block (t - 2)) + schedule block (t - 7) +
    lowerSigma0 (schedule block (t - 15)) + schedule block (t - 16)
termination_by t

structure Working where
  a : Word
  b : Word
  c : Word
  d : Word
  e : Word
  f : Word
  g : Word
  h : Word

def round (block : List UInt8) (v : Working) (t : Nat) : Working :=
  let t1 := v.h + upperSigma1 v.e + ch v.e v.f v.g + constants.getD t 0 + schedule block t
  let t2 := upperSigma0 v.a + maj v.a v.b v.c
  { a := t1 + t2, b := v.a, c := v.b, d := v.c, e := v.d + t1, f := v.e, g := v.f, h := v.g }

def start (chain : Chain) : Working :=
  ⟨chain.get 0, chain.get 1, chain.get 2, chain.get 3, chain.get 4, chain.get 5, chain.get 6,
    chain.get 7⟩

def combine (chain : Chain) (v : Working) : Chain :=
  #v[v.a + chain.get 0, v.b + chain.get 1, v.c + chain.get 2, v.d + chain.get 3,
    v.e + chain.get 4, v.f + chain.get 5, v.g + chain.get 6, v.h + chain.get 7]

def compress (chain : Chain) (block : List UInt8) : Chain :=
  combine chain ((List.range 64).foldl (round block) (start chain))

def initialChain : Chain := Vector.ofFn (fun i => initial.getD i 0)

def sha256 (message : List UInt8) : List UInt8 :=
  let chain := (blocks (message ++ padding message.length)).foldl compress initialChain
  chain.toList.flatMap (fun word => bigEndian 4 word.toNat)

theorem schedule_first {block : List UInt8} {t : Nat} (early : t < 16) :
    schedule block t = wordAt block t := by
  rw [schedule, if_pos early]

theorem schedule_later {block : List UInt8} {t : Nat} (late : 16 ≤ t) :
    schedule block t = lowerSigma1 (schedule block (t - 2)) + schedule block (t - 7) +
      lowerSigma0 (schedule block (t - 15)) + schedule block (t - 16) := by
  rw [schedule, if_neg (Nat.not_lt.mpr late)]

theorem rotateRight_eq {n : Nat} (small : n < 32) (x : Word) : x.rotateRight n = rotr n x := by
  rw [BitVec.rotateRight_def, Nat.mod_eq_of_lt small, rotr]

/-! Blocks of a text in two parts. -/

theorem blocks_short {text : List UInt8} (short : text.length < 64) : blocks text = [] := by
  unfold blocks
  rw [if_neg (Nat.not_le.mpr short)]

theorem blocks_nil : blocks [] = [] := blocks_short (by decide)

theorem blocks_cons {block rest : List UInt8} (full : block.length = 64) :
    blocks (block ++ rest) = block :: blocks rest := by
  rw [blocks, if_pos (by simp [full]), List.take_left' full, List.drop_left' full]

theorem blocks_append {n : Nat} {whole rest : List UInt8} (full : whole.length = 64 * n) :
    blocks (whole ++ rest) = blocks whole ++ blocks rest := by
  induction n generalizing whole with
  | zero =>
    obtain rfl : whole = [] := List.length_eq_zero_iff.mp full
    rw [blocks_nil]
    rfl
  | succ n ih =>
    have split := List.take_append_drop 64 whole
    have head : (whole.take 64).length = 64 := List.length_take_of_le (by omega)
    have tail : (whole.drop 64).length = 64 * n := by
      rw [List.length_drop]
      omega
    rw [← split, List.append_assoc, blocks_cons head, blocks_cons head, ih tail, List.cons_append]

end Fips180
