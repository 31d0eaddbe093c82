/-!
Sets of code points given as ascending, disjoint ranges, with membership by bisection.
-/

namespace HttpRelay.Text

structure CodeRanges where
  bounds : Array (Nat × Nat)

namespace CodeRanges

def hexDigit (c : Char) : Nat :=
  if '0' ≤ c ∧ c ≤ '9' then c.toNat - '0'.toNat
  else if 'a' ≤ c ∧ c ≤ 'f' then c.toNat - 'a'.toNat + 10
  else 0

def hexNumber (digits : List Char) : Nat :=
  digits.foldl (fun n c => 16 * n + hexDigit c) 0

def rangeOfText (text : String) : Nat × Nat :=
  match text.splitOn "-" with
  | [first, last] => (hexNumber first.toList, hexNumber last.toList)
  | _ => (hexNumber text.toList, hexNumber text.toList)

def words (text : String) : List String :=
  ((text.split fun c => c = ' ' || c = '\n').toList.map (·.toString)).filter (!·.isEmpty)

def ofText (text : String) : CodeRanges := ⟨((words text).map rangeOfText).toArray⟩

def search (bounds : Array (Nat × Nat)) (n low high : Nat) : Bool :=
  if _h : low < high then
    let middle := (low + high) / 2
    match bounds[middle]? with
    | none => false
    | some (first, last) =>
      if n < first then search bounds n low middle
      else if last < n then search bounds n (middle + 1) high
      else true
  else false
termination_by high - low

def contains (t : CodeRanges) (n : Nat) : Bool := search t.bounds n 0 t.bounds.size

end CodeRanges

end HttpRelay.Text
