import Mathlib.Algebra.GroupWithZero.Nat
import Kld.Mgr.Pki

/-!
# IP addresses as texts

An IPv4 address is four decimal octets without leading zeros. An IPv6 address is eight
hexadecimal groups: one run of zeros may be left out, and the last two groups may be
written as an IPv4 address.
-/

namespace Kld.Pki.IpAddr

def isIpv4 : IpAddr → Bool
  | .v4 _ => true
  | .v6 _ => false

def isIpv6 : IpAddr → Bool
  | .v4 _ => false
  | .v6 _ => true

def toDigit (radix : Nat) (c : Char) : Option Nat :=
  Option.filter (fun digit => decide (digit < radix)) <|
    if c.isDigit then some (c.toNat - '0'.toNat)
    else if c.isLower then some (c.toNat - 'a'.toNat + 10)
    else if c.isUpper then some (c.toNat - 'A'.toNat + 10)
    else none

/-- A reader answers what it read and the characters that are left. -/
abbrev Reader (α : Type) := List Char → Option (α × List Char)

def readNumber (radix maxDigits bound : Nat) (allowZeroPrefix : Bool) : Reader Nat := fun cs =>
  let digits := (cs.map (toDigit radix)).takeWhile Option.isSome
  let value := (digits.filterMap id).foldl (fun value digit => radix * value + digit) 0
  if digits.length = 0 ∨ maxDigits < digits.length ∨ bound ≤ value ∨
      (!allowZeroPrefix ∧ cs.head? = some '0' ∧ 1 < digits.length) then none
  else some (value, cs.drop digits.length)

/-- All but the first of several parts follow a separator. -/
def readSeparator {α : Type} (separator : Char) (index : Nat) (inner : Reader α) : Reader α :=
  fun cs =>
    if index = 0 then inner cs
    else if cs.head? = some separator then inner cs.tail
    else none

def readOctet : Reader Nat := readNumber 10 3 256 false

def readIpv4Addr : Reader (Nat × Nat) := fun cs => do
  let (first, cs) ← readSeparator '.' 0 readOctet cs
  let (second, cs) ← readSeparator '.' 1 readOctet cs
  let (third, cs) ← readSeparator '.' 2 readOctet cs
  let (fourth, cs) ← readSeparator '.' 3 readOctet cs
  pure ((256 * first + second, 256 * third + fourth), cs)

/-- At most `left` groups, and whether they end with an IPv4 address. -/
def readGroups : (left index : Nat) → List Char → List Nat × Bool × List Char
  | 0, _, cs => ([], false, cs)
  | left + 1, index, cs =>
    match if left = 0 then none else readSeparator ':' index readIpv4Addr cs with
    | some ((high, low), rest) => ([high, low], true, rest)
    | none =>
      match readSeparator ':' index (readNumber 16 4 65536 true) cs with
      | some (group, rest) =>
        let (groups, ipv4, rest) := readGroups left (index + 1) rest
        (group :: groups, ipv4, rest)
      | none => ([], false, cs)

def ofGroups (groups : List Nat) : BitVec 128 :=
  .ofNat 128 (groups.foldl (fun value group => 65536 * value + group) 0)

def readIpv6Addr : Reader (BitVec 128) := fun cs =>
  let (head, headIpv4, cs) := readGroups 8 0 cs
  if head.length = 8 then some (ofGroups head, cs)
  else if headIpv4 then none
  else
    match cs with
    | ':' :: ':' :: cs =>
      let (tail, _, cs) := readGroups (7 - head.length) 0 cs
      some (ofGroups (head ++ List.replicate (8 - head.length - tail.length) 0 ++ tail), cs)
    | _ => none

def readIpAddr : Reader IpAddr := fun cs =>
  match readIpv4Addr cs with
  | some ((high, low), cs) => some (.v4 (.ofNat 32 (65536 * high + low)), cs)
  | none => (readIpv6Addr cs).map fun (bits, cs) => (.v6 bits, cs)

def fromStr (s : String) : Option IpAddr := do
  let (address, rest) ← readIpAddr s.toList
  if rest = [] then some address else none

/-- The digits of a number of `width` digits, all of them written. -/
def digitsOf (base width value : Nat) : List Nat :=
  (List.range width).map fun i => value / base ^ (width - 1 - i) % base

def ipv4ToText (bits : Nat) : String :=
  ".".intercalate ((digitsOf 256 4 bits).map toString)

structure Span where
  start : Nat
  len : Nat

/-- The first of the longest runs of zeros. -/
def longestZeros (segments : List Nat) : Span :=
  let (longest, _) := segments.zipIdx.foldl (fun (longest, current) (segment, i) =>
    if segment = 0 then
      let current := ⟨if current.len = 0 then i else current.start, current.len + 1⟩
      (if longest.len < current.len then current else longest, current)
    else (longest, ⟨0, 0⟩)) ((⟨0, 0⟩, ⟨0, 0⟩) : Span × Span)
  longest

def fmtSubslice (segments : List Nat) : String :=
  ":".intercalate (segments.map fun segment => String.ofList (Nat.toDigits 16 segment))

def toText : IpAddr → String
  | .v4 bits => ipv4ToText bits.toNat
  | .v6 bits =>
    let segments := digitsOf 65536 8 bits.toNat
    if segments.take 6 = [0, 0, 0, 0, 0, 0xFFFF] then
      "::ffff:" ++ ipv4ToText (bits.toNat % 2 ^ 32)
    else
      let zeroes := longestZeros segments
      if 1 < zeroes.len then
        fmtSubslice (segments.take zeroes.start) ++ "::" ++
          fmtSubslice (segments.drop (zeroes.start + zeroes.len))
      else fmtSubslice segments

example : fromStr "2001:db8::ff00:42:8329" = some (.v6 0x20010db8000000000000ff0000428329) ∧
    fromStr "::ffff:192.0.2.128" = some (.v6 0xffffc0000280) ∧ fromStr "192.0.02.128" = none := by
  decide

end Kld.Pki.IpAddr
