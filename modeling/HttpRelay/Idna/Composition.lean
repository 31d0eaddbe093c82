import HttpRelay.Text.CodeRanges
import HttpRelay.Idna.CompositionTable

namespace HttpRelay.Idna

open Text (CodeRanges)

structure Pairing where
  whole : Nat
  first : Nat
  second : Nat
  composes : Bool

def Pairing.ofText (text : String) : Pairing :=
  let composes := !text.endsWith "!"
  let digits := String.ofList (text.toList.filter (· ≠ '!'))
  match digits.splitOn "=" with
  | [whole, parts] =>
    match parts.splitOn "," with
    | [first, second] =>
      ⟨CodeRanges.hexNumber whole.toList, CodeRanges.hexNumber first.toList,
        CodeRanges.hexNumber second.toList, composes⟩
    | _ => ⟨0, 0, 0, false⟩
  | _ => ⟨0, 0, 0, false⟩

def pairings : List Pairing := (CodeRanges.words compositionText).map Pairing.ofText

structure ClassRange where
  first : Nat
  last : Nat
  combining : Nat

def ClassRange.ofText (text : String) : ClassRange :=
  match text.splitOn ":" with
  | [range, value] =>
    let (first, last) := CodeRanges.rangeOfText range
    ⟨first, last, CodeRanges.hexNumber value.toList⟩
  | _ => ⟨0, 0, 0⟩

def classRanges : List ClassRange := (CodeRanges.words combiningClassText).map ClassRange.ofText

def combiningClass (n : Nat) : Nat :=
  if n < 0x300 then 0
  else ((classRanges.find? fun r => r.first ≤ n && n ≤ r.last).map (·.combining)).getD 0

def markRanges : CodeRanges := .ofText markText

def isMark (c : Char) : Bool := markRanges.contains c.toNat

def syllableBase : Nat := 0xac00
def leadBase : Nat := 0x1100
def vowelBase : Nat := 0x1161
def tailBase : Nat := 0x11a7

def splitSyllable (n : Nat) : List Nat :=
  let index := n - syllableBase
  let tail := index % 28
  let parts := [leadBase + index / 588, vowelBase + index % 588 / 28]
  if tail = 0 then parts else parts ++ [tailBase + tail]

def isSyllable (n : Nat) : Bool := syllableBase ≤ n && n < syllableBase + 11172

def decompose : Nat → Nat → List Nat
  | 0, n => [n]
  | depth + 1, n =>
    if n < 0xc0 then [n]
    else if isSyllable n then splitSyllable n
    else match pairings.find? (·.whole = n) with
      | some p => decompose depth p.first ++ [p.second]
      | none => [n]

def insertMark (n : Nat) : List Nat → List Nat
  | [] => [n]
  | m :: rest =>
    if combiningClass m ≠ 0 ∧ combiningClass m < combiningClass n then m :: insertMark n rest
    else n :: m :: rest

def order : List Nat → List Nat
  | [] => []
  | n :: rest => if combiningClass n = 0 then n :: order rest else insertMark n (order rest)

def compose? (a b : Nat) : Option Nat :=
  if b < 0x300 then none
  else if leadBase ≤ a ∧ a < leadBase + 19 ∧ vowelBase ≤ b ∧ b < vowelBase + 21 then
    some (syllableBase + ((a - leadBase) * 21 + (b - vowelBase)) * 28)
  else if isSyllable a ∧ (a - syllableBase) % 28 = 0 ∧ tailBase < b ∧ b < tailBase + 28 then
    some (a + (b - tailBase))
  else (pairings.find? fun p => p.composes && p.first = a && p.second = b).map (·.whole)

/-- Composes a starter with what follows it: `skipped` holds the marks that stayed, in reverse,
and `lastClass` the class of the last of them. -/
def composeFrom (starter : Nat) (skipped : List Nat) (lastClass : Nat) : List Nat → List Nat
  | [] => starter :: skipped.reverse
  | n :: rest =>
    let k := combiningClass n
    let blocked := !skipped.isEmpty && (lastClass = 0 || k ≤ lastClass)
    match if blocked then none else compose? starter n with
    | some whole => composeFrom whole skipped lastClass rest
    | none =>
      if k = 0 then starter :: skipped.reverse ++ composeFrom n [] 0 rest
      else composeFrom starter (n :: skipped) k rest

def recompose : List Nat → List Nat
  | [] => []
  | n :: rest =>
    if combiningClass n = 0 then composeFrom n [] 0 rest else n :: recompose rest

def composed (cs : List Char) : List Char :=
  if cs.all (·.toNat < 0xc0) then cs
  else (recompose (order (cs.flatMap fun c => decompose 4 c.toNat))).map Char.ofNat

end HttpRelay.Idna
