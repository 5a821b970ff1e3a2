import Mathlib.Data.List.DropRight
import Baas.Lib.ByteOrder
import Baas.Lib.JsonText

/-! The paths of a configuration archive, from `ConfigArchiveCodec.cpp`. -/
namespace Baas.ConfigArchive

open JsonText (ascii)

abbrev Text := List UInt8

inductive Error where
  | unsafePath | capacity | duplicatePath
deriving DecidableEq

structure Limits where
  maxPathBytes : Nat
  maxDepth : Nat

structure NormalizedPath where
  value : Text
  key : Text
  directory : Bool

def continuation (byte : UInt8) : Bool := byte &&& 0xC0 = 0x80

/-- The bits of the continuation bytes appended to those of the lead. -/
def codePoint (lead : Nat) (tail : List UInt8) : Nat :=
  tail.foldl (fun code byte => code * 64 + byte.toNat % 64) lead

def scalar (code least : Nat) : Bool :=
  least ≤ code && code ≤ 0x10FFFF && !(0xD800 ≤ code && code ≤ 0xDFFF)

def validUtf8 : Text → Bool
  | [] => true
  | lead :: rest =>
    if lead ≤ 0x7F then validUtf8 rest
    else if 0xC2 ≤ lead ∧ lead ≤ 0xDF then
      match rest with
      | b :: rest =>
        continuation b && scalar (codePoint (lead.toNat % 32) [b]) 0x80 && validUtf8 rest
      | _ => false
    else if 0xE0 ≤ lead ∧ lead ≤ 0xEF then
      match rest with
      | b :: c :: rest =>
        continuation b && continuation c &&
          scalar (codePoint (lead.toNat % 16) [b, c]) 0x800 && validUtf8 rest
      | _ => false
    else if 0xF0 ≤ lead ∧ lead ≤ 0xF4 then
      match rest with
      | b :: c :: d :: rest =>
        continuation b && continuation c && continuation d &&
          scalar (codePoint (lead.toNat % 8) [b, c, d]) 0x10000 && validUtf8 rest
      | _ => false
    else false

def lower (byte : UInt8) : UInt8 := if 65 ≤ byte ∧ byte ≤ 90 then byte + 32 else byte

def upper (byte : UInt8) : UInt8 := if 97 ≤ byte ∧ byte ≤ 122 then byte - 32 else byte

def reservedComponent (component : Text) : Bool :=
  let base := component.takeWhile (· ≠ 46)
  if 8 < base.length then false
  else if base.any (fun byte => 0x7F < byte) then false
  else
    let value := base.map upper
    if value = ascii "CON" ∨ value = ascii "PRN" ∨ value = ascii "AUX" ∨ value = ascii "NUL" then
      true
    else value.length = 4 && ((ascii "COM").isPrefixOf value || (ascii "LPT").isPrefixOf value) &&
      value[3]?.any (fun digit => 49 ≤ digit && digit ≤ 57)

def unsafeComponent (component : Text) : Bool :=
  component = [] || component = [46] || component = [46, 46] || component.contains 58 ||
    component.getLast? = some 46 || component.getLast? = some 32 || reservedComponent component

/-- A control byte or one of `<>"|?*`. -/
def forbidden (byte : UInt8) : Bool :=
  byte < 0x20 || byte = 0x7F || [60, 62, 34, 124, 63, 42].contains byte

def checkComponents (limits : Limits) : Nat → List Text → Except Error Unit
  | _, [] => .ok ()
  | depth, component :: rest =>
    if unsafeComponent component then .error .unsafePath
    else if component.any forbidden then .error .unsafePath
    else if limits.maxDepth < depth + 1 then .error .capacity
    else checkComponents limits (depth + 1) rest

def slashed (input : Text) : Text := input.map (fun byte => if byte = 92 then 47 else byte)

def normalizePath (input : Text) (directory : Bool) (limits : Limits) :
    Except Error NormalizedPath :=
  if input = [] ∨ limits.maxPathBytes < input.length ∨ validUtf8 input = false ∨ 0 ∈ input then
    .error (if limits.maxPathBytes < input.length then .capacity else .unsafePath)
  else
    let input := slashed input
    if input.head? = some 47 then .error .unsafePath
    else if !directory && input.getLast? = some 47 then .error .unsafePath
    else
      let input := if directory then input.rdropWhile (· = 47) else input
      if input = [] then .error .unsafePath
      else
        match checkComponents limits 0 (input.splitOn 47) with
        | .error error => .error error
        | .ok () => .ok ⟨input, input.map lower, directory⟩

/-- The folded paths seen so far, and those of them that are files. -/
structure PathSet where
  all : List Text := []
  files : List Text := []

/-- The texts before the separators of a key. -/
def parents (key : Text) : List Text :=
  ((List.range key.length).filter (fun i => key[i]? = some 47)).map key.take

def PathSet.insert (paths : PathSet) (path : NormalizedPath) : PathSet × Bool :=
  if path.key ∈ paths.all then (paths, false)
  else
    let paths := { paths with all := path.key :: paths.all }
    if (parents path.key).any (· ∈ paths.files) then (paths, false)
    else if path.directory then (paths, true)
    else if paths.all.any ((path.key ++ [47]).isPrefixOf ·) then (paths, false)
    else ({ paths with files := path.key :: paths.files }, true)

/-- The checks that decoding and encoding make of each path in turn. -/
def insertPaths (limits : Limits) : PathSet → List (Text × Bool) → Except Error PathSet
  | paths, [] => .ok paths
  | paths, (input, directory) :: rest =>
    match normalizePath input directory limits with
    | .error error => .error error
    | .ok normalized =>
      match paths.insert normalized with
      | (_, false) => .error .duplicatePath
      | (paths, true) => insertPaths limits paths rest

end Baas.ConfigArchive
