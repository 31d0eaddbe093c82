import HttpRelay.Text.CodeRanges
import HttpRelay.Idna.MappingTable

namespace HttpRelay.Idna

open Text (CodeRanges)

inductive Fate where
  | keep
  | replace (cs : List Char)
  | drop
  | refuse

structure MappingEntry where
  first : Nat
  last : Nat
  stride : Nat
  target : List Nat

def MappingEntry.ofText (text : String) : MappingEntry :=
  match text.splitOn ":" with
  | [source, target] =>
    let targets := (target.splitOn ",").map fun t => CodeRanges.hexNumber t.toList
    match source.splitOn "/" with
    | [range, _] =>
      let (first, last) := CodeRanges.rangeOfText range
      ⟨first, last, 2, targets⟩
    | _ =>
      let (first, last) := CodeRanges.rangeOfText source
      ⟨first, last, 1, targets⟩
  | _ => ⟨0, 0, 1, []⟩

def mappingEntries : Array MappingEntry :=
  ((CodeRanges.words mappingText).map MappingEntry.ofText).toArray

def droppedRanges : CodeRanges := .ofText droppedText

def refusedRanges : CodeRanges := .ofText refusedText

def searchEntry (entries : Array MappingEntry) (n low high : Nat) : Option MappingEntry :=
  if _h : low < high then
    let middle := (low + high) / 2
    match entries[middle]? with
    | none => none
    | some e =>
      if n < e.first then searchEntry entries n low middle
      else if e.last < n then searchEntry entries n (middle + 1) high
      else some e
  else none
termination_by high - low

def MappingEntry.apply (e : MappingEntry) (n : Nat) : Option (List Char) :=
  let offset := n - e.first
  if offset % e.stride ≠ 0 then none
  else match e.target with
    | [t] => some [Char.ofNat (t + offset)]
    | ts => some (ts.map Char.ofNat)

def fate (c : Char) : Fate :=
  let n := c.toNat
  if n < 0x80 then if 'A' ≤ c ∧ c ≤ 'Z' then .replace [c.toLower] else .keep
  else match (searchEntry mappingEntries n 0 mappingEntries.size).bind (·.apply n) with
  | some cs => .replace cs
  | none =>
    if droppedRanges.contains n then .drop
    else if refusedRanges.contains n then .refuse
    else .keep

end HttpRelay.Idna
