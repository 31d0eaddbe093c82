/-!
UTF-8 as an automaton that reads one byte at a time: whole decoding with replacement
characters, and strict decoding that reports where the input goes wrong. Decoding by segments
repeats strict decoding behind every fault, and holds an incomplete character back.
-/

namespace HttpRelay

abbrev Bytes := List UInt8

namespace Utf8

def encode (s : String) : Bytes := s.toList.flatMap String.utf8EncodeChar

/-- An incomplete character: its bytes so far, their payload, the range in which the next byte
must lie, and how many bytes are missing. -/
structure Pending where
  held : Bytes
  payload : Nat
  low : UInt8
  high : UInt8
  missing : Nat
deriving DecidableEq, Repr

inductive Lead where
  | char (c : Char)
  | opens (p : Pending)
  | invalid

/-- What a byte means where a character may begin. Overlong forms, surrogates and values past
the last code point are excluded by the range of the second byte. -/
def lead (b : UInt8) : Lead :=
  if b < 0x80 then .char (Char.ofNat b.toNat)
  else if b < 0xc2 then .invalid
  else if b < 0xe0 then .opens ⟨[b], b.toNat - 0xc0, 0x80, 0xbf, 1⟩
  else if b = 0xe0 then .opens ⟨[b], 0, 0xa0, 0xbf, 2⟩
  else if b = 0xed then .opens ⟨[b], 0xd, 0x80, 0x9f, 2⟩
  else if b < 0xf0 then .opens ⟨[b], b.toNat - 0xe0, 0x80, 0xbf, 2⟩
  else if b = 0xf0 then .opens ⟨[b], 0, 0x90, 0xbf, 3⟩
  else if b < 0xf4 then .opens ⟨[b], b.toNat - 0xf0, 0x80, 0xbf, 3⟩
  else if b = 0xf4 then .opens ⟨[b], 4, 0x80, 0x8f, 3⟩
  else .invalid

def Pending.accepts (p : Pending) (b : UInt8) : Bool := p.low ≤ b && b ≤ p.high

def Pending.value (p : Pending) (b : UInt8) : Nat := 64 * p.payload + (b.toNat - 0x80)

def Pending.extend (p : Pending) (b : UInt8) : Pending :=
  ⟨p.held ++ [b], p.value b, 0x80, 0xbf, p.missing - 1⟩

abbrev Carry := Option Pending

def replacement : Char := '\ufffd'

def begin (b : UInt8) : List Char × Carry :=
  match lead b with
  | .char c => ([c], none)
  | .opens p => ([], some p)
  | .invalid => ([replacement], none)

/-- Reads one byte: the characters it settles and the state after it. A byte that cannot
continue an incomplete character replaces that character and is read again. -/
def step (s : Carry) (b : UInt8) : List Char × Carry :=
  match s with
  | none => begin b
  | some p =>
    if p.accepts b then
      if p.missing = 1 then ([Char.ofNat (p.value b)], none) else ([], some (p.extend b))
    else
      let (cs, next) := begin b
      (replacement :: cs, next)

def pushAll (text : String) (cs : List Char) : String := cs.foldl String.push text

def scan (text : String) (s : Carry) : Bytes → String × Carry
  | [] => (text, s)
  | b :: rest =>
    let (cs, next) := step s b
    scan (pushAll text cs) next rest

def flush : Carry → List Char
  | none => []
  | some _ => [replacement]

def lossy (bs : Bytes) : String :=
  let (text, s) := scan "" none bs
  pushAll text (flush s)

/-- Where strict decoding stopped: `length` bytes are wrong, or the input ends inside a
character. -/
inductive Fault where
  | invalid (index length : Nat)
  | incomplete (index : Nat)
deriving DecidableEq, Repr

def Fault.message : Fault → String
  | .invalid index length => s!"invalid utf-8 sequence of {length} bytes from index {index}"
  | .incomplete index => s!"incomplete utf-8 byte sequence from index {index}"

def strictFrom (text : String) (index : Nat) (s : Carry) : Bytes → Except Fault String
  | [] =>
    match s with
    | none => .ok text
    | some p => .error (.incomplete (index - p.held.length))
  | b :: rest =>
    match s with
    | none =>
      match lead b with
      | .char c => strictFrom (text.push c) (index + 1) none rest
      | .opens p => strictFrom text (index + 1) (some p) rest
      | .invalid => .error (.invalid index 1)
    | some p =>
      if p.accepts b then
        if p.missing = 1 then strictFrom (text.push (Char.ofNat (p.value b))) (index + 1) none rest
        else strictFrom text (index + 1) (some (p.extend b)) rest
      else .error (.invalid (index - p.held.length) p.held.length)

def strict (bs : Bytes) : Except Fault String := strictFrom "" 0 none bs

theorem held_of_lead {b : UInt8} {p : Pending} (h : lead b = .opens p) : p.held = [b] := by
  unfold lead at h
  repeat' split at h
  all_goals cases h
  all_goals rfl

def Carry.Begun : Carry → Prop
  | none => True
  | some p => p.held ≠ []

theorem strictFrom_invalid {text : String} {index first length : Nat} {s : Carry} {bs : Bytes}
    (hs : s.Begun) (h : strictFrom text index s bs = .error (.invalid first length)) :
    0 < length ∧ bs ≠ [] := by
  induction bs generalizing text index s with
  | nil => cases s <;> cases h
  | cons b rest ih =>
    refine ⟨?_, List.cons_ne_nil b rest⟩
    rw [strictFrom.eq_def] at h
    cases s with
    | none =>
      dsimp only at h
      split at h
      · exact (ih (s := none) trivial h).1
      · rename_i p hlead
        refine (ih (s := some p) ?_ h).1
        rw [Carry.Begun, held_of_lead hlead]
        exact List.cons_ne_nil b []
      · cases h
        exact Nat.one_pos
    | some p =>
      dsimp only at h
      split at h
      · split at h
        · exact (ih (s := none) trivial h).1
        · exact (ih (s := some (p.extend b)) (List.append_ne_nil_of_right_ne_nil _
            (List.cons_ne_nil b [])) h).1
      · cases h
        exact List.length_pos_iff.mpr hs

theorem strict_invalid {bs : Bytes} {index length : Nat}
    (h : strict bs = .error (.invalid index length)) : 0 < length ∧ 0 < bs.length := by
  obtain ⟨hlength, hbs⟩ := strictFrom_invalid (s := none) trivial h
  exact ⟨hlength, List.length_pos_iff.mpr hbs⟩

def nonempty (text : String) : Option String := if text.isEmpty then none else some text

def settle (text : String) (held : Bytes) : String × Bytes :=
  match _h : strict held with
  | .ok more => (text ++ more, [])
  | .error (.incomplete index) => (text ++ lossy (held.take index), held.drop index)
  | .error (.invalid index length) =>
    settle ((text ++ lossy (held.take index)).push replacement) (held.drop (index + length))
termination_by held.length
decreasing_by
  have := strict_invalid (by assumption)
  simp only [List.length_drop]
  omega

def push (held segment : Bytes) : Option String × Bytes :=
  let (text, held) := settle "" (held ++ segment)
  (nonempty text, held)

def finish (held : Bytes) : Option String × Bytes :=
  if held.isEmpty then (none, []) else (some (lossy held), [])

end Utf8

end HttpRelay
