import HttpRelay.Flate.Bits

/-!
Canonical prefix codes, given by the length of each symbol's code word: shorter words come
first, and words of one length follow the order of their symbols.
-/

namespace HttpRelay.Flate

inductive Halt where
  | incomplete
  | corrupt
  | full
deriving DecidableEq, Repr

/-- How many code words have each length from one on, and the symbols in the order of their
words. -/
structure Huffman where
  counts : List Nat
  symbols : Array Nat

namespace Huffman

def maxLength : Nat := 15

def symbolsOf (length index : Nat) : List Nat → List Nat
  | [] => []
  | l :: rest =>
    if l = length then index :: symbolsOf length (index + 1) rest
    else symbolsOf length (index + 1) rest

def ofLengths (lengths : List Nat) : Huffman :=
  let groups := (List.range maxLength).map fun i => symbolsOf (i + 1) 0 lengths
  ⟨groups.map List.length, groups.flatten.toArray⟩

def used (h : Huffman) : Nat := h.symbols.size

def isComplete (h : Huffman) : Bool :=
  h.counts.foldl (fun total count => 2 * (total + count)) 0 == 65536

/-- Finds the code word at the front of the bits. Among the words of the length read so far,
`first` is the least one and `index` the place of its symbol. -/
def walk (symbols : Array Nat) (word first index : Nat) (s : Source) :
    List Nat → Except Halt (Nat × Source)
  | [] => .error .corrupt
  | count :: rest =>
    match s.bit? with
    | none => .error .incomplete
    | some (b, s) =>
      let word := 2 * word + b.toNat
      if word < first + count then .ok (symbols.getD (index + (word - first)) 0, s)
      else walk symbols word (2 * (first + count)) (index + count) s rest

def read (h : Huffman) (s : Source) : Except Halt (Nat × Source) :=
  walk h.symbols 0 0 0 s h.counts

theorem size_walk {symbols : Array Nat} {word first index : Nat} {s t : Source}
    {counts : List Nat} {v : Nat}
    (h : walk symbols word first index s counts = .ok (v, t)) : t.size < s.size := by
  induction counts generalizing word first index s with
  | nil => simp [walk] at h
  | cons count rest ih =>
    simp only [walk] at h
    split at h
    · simp at h
    · rename_i b s' hb
      have := Source.size_bit hb
      split at h
      · simp only [Except.ok.injEq, Prod.mk.injEq] at h
        simp only [← h.2]
        omega
      · have := ih h
        omega

theorem size_read {h : Huffman} {s t : Source} {v : Nat} (hr : h.read s = .ok (v, t)) :
    t.size < s.size := size_walk hr

end Huffman

end HttpRelay.Flate
