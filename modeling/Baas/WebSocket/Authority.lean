import Baas.Lib.Decimal
import Mathlib.Data.List.Induction

/-! The `Host` field of a handshake: three scanners over one string, and the hosts and ports
they are meant to take. -/
namespace Baas.WebSocket

open Decimal

abbrev Bytes := List UInt8

def isAsciiHex (c : UInt8) : Bool :=
  isDigit c || (97 ≤ c && c ≤ 102) || (65 ≤ c && c ≤ 70)

def isAlnum (c : UInt8) : Bool :=
  isDigit c || (97 ≤ c && c ≤ 122) || (65 ≤ c && c ≤ 90)

/-- The loop of `valid_decimal_port` from the value read so far. -/
def portFrom (port : Nat) : Bytes → Bool
  | [] => true
  | c :: rest =>
    if !isDigit c then false
    else
      let digit := c.toNat - 48
      if port > (65535 - digit) / 10 then false else portFrom (port * 10 + digit) rest

def validDecimalPort (value : Bytes) : Bool :=
  if value = [] then false else portFrom 0 value

def validIpv4Component (component : Bytes) : Bool :=
  if component = [] ∨ component.length > 3 then false
  else if !component.all isDigit then false
  else !(valueOf component > 255)

def validIpv4 (value : Bytes) : Bool :=
  (value.splitOn 46).all validIpv4Component && (value.splitOn 46).length = 4

def validLabel (label : Bytes) : Bool :=
  if label = [] ∨ label.length > 63 then false
  else if !(label.head?.any isAlnum) || !(label.getLast?.any isAlnum) then false
  else label.all (fun c => isAlnum c || c = 45)

/-- The loop over the labels. It ends where nothing is left, so an empty last label is
not looked at. -/
def validLabels : List Bytes → Bool
  | [] => true
  | [label] => if label = [] then true else validLabel label
  | label :: rest => validLabel label && validLabels rest

def validDnsName (value : Bytes) : Bool :=
  if value = [] then false
  else
    let value := if value.getLast? = some 46 then value.dropLast else value
    if value = [] ∨ value.length > 253 then false else validLabels (value.splitOn 46)

/-- The groups of one side of a compression, counted on top of `groups`. -/
def ipv6Groups (mayEndInIpv4 : Bool) : Nat → List Bytes → Option Nat
  | groups, [] => some groups
  | groups, group :: rest =>
    if group = [] then none
    else if group.contains 46 then
      if !mayEndInIpv4 || rest ≠ [] || !validIpv4 group then none
      else ipv6Groups mayEndInIpv4 (groups + 2) rest
    else if group.length > 4 || !group.all isAsciiHex then none
    else ipv6Groups mayEndInIpv4 (groups + 1) rest

def validIpv6Side (side : Bytes) (groups : Nat) (mayEndInIpv4 : Bool) : Option Nat :=
  if side = [] then some groups else ipv6Groups mayEndInIpv4 groups (side.splitOn 58)

/-- What stands before and behind the first such byte. -/
def cutAt (byte : UInt8) : Bytes → Option (Bytes × Bytes)
  | [] => none
  | c :: rest =>
    if c = byte then some ([], rest)
    else (cutAt byte rest).map (fun (before, after) => (c :: before, after))

/-- What stands before and behind the first two colons in a row. -/
def findCompression : Bytes → Option (Bytes × Bytes)
  | a :: b :: rest =>
    if a = 58 ∧ b = 58 then some ([], rest)
    else (findCompression (b :: rest)).map (fun (left, right) => (a :: left, right))
  | _ => none

def validIpv6 (value : Bytes) : Bool :=
  if value = [] then false
  else
    match findCompression value with
    | none => validIpv6Side value 0 true = some 8
    | some (left, right) =>
      if (findCompression right).isSome then false
      else
        match validIpv6Side left 0 false with
        | none => false
        | some groups =>
          match validIpv6Side right groups true with
          | none => false
          | some groups => groups < 8

/-- Bytes that stand in no host and no port. -/
def outsideAuthority (c : UInt8) : Bool :=
  c ≤ 0x20 || 0x7F ≤ c || c = 44 || c = 64 || c = 47 || c = 92 || c = 63 || c = 35

def numericCandidate (host : Bytes) : Bool := host.all (fun c => isDigit c || c = 46)

def validHost (host : Bytes) : Bool :=
  if numericCandidate host then validIpv4 host else validDnsName host

def validAuthority (value : Bytes) : Bool :=
  if value = [] then false
  else if value.any outsideAuthority then false
  else if value.head? = some 91 then
    match cutAt 93 value with
    | none => false
    | some (opened, suffix) =>
      if opened.length = 1 || !validIpv6 (opened.drop 1) then false
      else suffix = [] || suffix.head? = some 58 && validDecimalPort (suffix.drop 1)
  else
    match cutAt 58 value with
    | none => validHost value
    | some (host, port) =>
      if port.contains 58 then false
      else if host = [] || !validDecimalPort port then false
      else validHost host

end Baas.WebSocket
