import HttpRelay.Text.Blank
import HttpRelay.Text.Numeral

/-!
Literal network addresses: strict dotted and colon notation, and the shortest colon notation.
-/

namespace HttpRelay

inductive Address where
  | v4 (octets : List Nat)
  | v6 (groups : List Nat)
deriving DecidableEq, Repr

namespace Address

def decimalText (n : Nat) : List Char := Nat.toDigits 10 n

def hexText (n : Nat) : List Char := Nat.toDigits 16 n

def hexValue? (c : Char) : Option Nat :=
  if '0' ≤ c ∧ c ≤ '9' then some (c.toNat - '0'.toNat)
  else if 'a' ≤ c ∧ c ≤ 'f' then some (c.toNat - 'a'.toNat + 10)
  else if 'A' ≤ c ∧ c ≤ 'F' then some (c.toNat - 'A'.toNat + 10)
  else none

def octet? (cs : List Char) : Option Nat :=
  match cs with
  | [] => none
  | ['0'] => some 0
  | '0' :: _ => none
  | _ => if cs.length ≤ 3 then (Text.digitsFrom 0 cs).filter (· < 256) else none

def octets? (cs : List Char) : Option (List Nat) :=
  match Text.splitAll '.' cs with
  | [a, b, c, d] => [a, b, c, d].mapM octet?
  | _ => none

def group? (cs : List Char) : Option Nat :=
  if cs.length = 0 ∨ 4 < cs.length then none
  else cs.foldl (fun n c => n.bind fun v => (hexValue? c).map (16 * v + ·)) (some 0)

/-- Groups separated by colons; the last one may be a dotted address that fills two groups. -/
def groups? (cs : List Char) : Option (List Nat) :=
  if cs.isEmpty then some []
  else
    let pieces := Text.splitAll ':' cs
    let last := pieces.getLastD []
    if '.' ∈ last then do
      let init ← pieces.dropLast.mapM group?
      let tail ← octets? last
      match tail with
      | [a, b, c, d] => some (init ++ [256 * a + b, 256 * c + d])
      | _ => none
    else pieces.mapM group?

def splitGap : List Char → Option (List Char × List Char)
  | ':' :: ':' :: rest => some ([], rest)
  | c :: rest => (splitGap rest).map fun (left, right) => (c :: left, right)
  | [] => none

def sixGroups? (cs : List Char) : Option (List Nat) :=
  match splitGap cs with
  | none => (groups? cs).filter (·.length = 8)
  | some (left, right) =>
    if '.' ∈ left then none
    else do
      let front ← groups? left
      let back ← groups? right
      if front.length + back.length < 8 then
        some (front ++ List.replicate (8 - front.length - back.length) 0 ++ back)
      else none

def parse? (s : String) : Option Address :=
  ((octets? s.toList).map v4).orElse fun _ => (sixGroups? s.toList).map v6

/-- The start and length of the first longest run of zeros among the groups from `index` on. -/
def longestRun (index start length bestStart bestLength : Nat) : List Nat → Nat × Nat
  | [] => if bestLength < length then (start, length) else (bestStart, bestLength)
  | g :: rest =>
    if g = 0 then longestRun (index + 1) start (length + 1) bestStart bestLength rest
    else
      let (s, l) := if bestLength < length then (start, length) else (bestStart, bestLength)
      longestRun (index + 1) (index + 1) 0 s l rest

def joinWith (sep : Char) : List (List Char) → List Char
  | [] => []
  | [p] => p
  | p :: ps => p ++ sep :: joinWith sep ps

def groupsText (groups : List Nat) : List Char :=
  let (start, length) := longestRun 0 0 0 0 0 groups
  if 2 ≤ length then
    joinWith ':' ((groups.take start).map hexText) ++ [':', ':'] ++
      joinWith ':' ((groups.drop (start + length)).map hexText)
  else joinWith ':' (groups.map hexText)

def chars : Address → List Char
  | .v4 octets => joinWith '.' (octets.map decimalText)
  | .v6 [0, 0, 0, 0, 0, 0xffff, a, b] =>
    "::ffff:".toList ++ joinWith '.' ([a / 256, a % 256, b / 256, b % 256].map decimalText)
  | .v6 groups => groupsText groups

def text (a : Address) : String := String.ofList a.chars

end Address

end HttpRelay
