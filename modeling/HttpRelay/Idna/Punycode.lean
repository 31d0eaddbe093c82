namespace HttpRelay.Punycode

def base : Nat := 36
def tMin : Nat := 1
def tMax : Nat := 26
def skew : Nat := 38
def damp : Nat := 700
def initialBias : Nat := 72
def initialCode : Nat := 128

def maxDelta : Nat := UInt32.size

def reduce (delta k : Nat) : Nat × Nat :=
  if 455 < delta then reduce (delta / 35) (k + base) else (delta, k)
termination_by delta
decreasing_by omega

def adapt (delta points : Nat) (first : Bool) : Nat :=
  let delta := if first then delta / damp else delta / 2
  let (delta, k) := reduce (delta + delta / points) 0
  k + 36 * delta / (delta + skew)

def threshold (k bias : Nat) : Nat :=
  if k ≤ bias then tMin else if bias + tMax ≤ k then tMax else k - bias

def digitChar (d : Nat) : Char :=
  if d < 26 then Char.ofNat ('a'.toNat + d) else Char.ofNat ('0'.toNat + d - 26)

def digitValue? (c : Char) : Option Nat :=
  if 'a' ≤ c ∧ c ≤ 'z' then some (c.toNat - 'a'.toNat)
  else if 'A' ≤ c ∧ c ≤ 'Z' then some (c.toNat - 'A'.toNat)
  else if '0' ≤ c ∧ c ≤ '9' then some (c.toNat - '0'.toNat + 26)
  else none

def encodeDelta (q k bias : Nat) : List Char :=
  let t := threshold k bias
  if t ≤ q then digitChar (t + (q - t) % (base - t)) :: encodeDelta ((q - t) / (base - t)) (k + base) bias
  else [digitChar q]
termination_by q
decreasing_by
  rename_i h
  have ht : 1 ≤ t := by
    change 1 ≤ threshold k bias
    unfold threshold tMin tMax
    split
    · omega
    · split <;> omega
  exact Nat.lt_of_le_of_lt (Nat.div_le_self _ _) (by omega)

structure State where
  code : Nat
  delta : Nat
  bias : Nat
  handled : Nat
  written : List Char

def insertAll (basic : Nat) (s : State) : List Nat → State
  | [] => s
  | c :: rest =>
    if c < s.code then insertAll basic { s with delta := s.delta + 1 } rest
    else if c = s.code then
      insertAll basic
        { s with
          delta := 0
          bias := adapt s.delta (s.handled + 1) (s.handled == basic)
          handled := s.handled + 1
          written := s.written ++ encodeDelta s.delta base s.bias } rest
    else insertAll basic s rest

def encodeLoop (label : List Nat) (basic : Nat) (s : State) : List Nat → State
  | [] => s
  | m :: rest =>
    let s := { s with delta := s.delta + (m - s.code) * (s.handled + 1), code := m }
    let s := insertAll basic s label
    encodeLoop label basic { s with delta := s.delta + 1, code := m + 1 } rest

def extendedCodes (label : List Nat) : List Nat :=
  ((label.filter (initialCode ≤ ·)).mergeSort (· ≤ ·)).eraseReps

def encode (label : List Char) : List Char :=
  let basic := label.filter (·.toNat < initialCode)
  let written := if basic.isEmpty then [] else basic ++ ['-']
  let codes := label.map Char.toNat
  (encodeLoop codes basic.length ⟨initialCode, 0, initialBias, basic.length, written⟩
    (extendedCodes codes)).written

def decodeDelta (i weight k bias : Nat) : List Char → Option (Nat × List Char)
  | [] => none
  | c :: rest => do
    let d ← digitValue? c
    let i := i + d * weight
    if maxDelta ≤ i then none
    else
      let t := threshold k bias
      if d < t then some (i, rest) else decodeDelta i (weight * (base - t)) (k + base) bias rest

theorem decodeDelta_length {i weight k bias : Nat} {cs : List Char} {r : Nat × List Char}
    (h : decodeDelta i weight k bias cs = some r) : r.2.length < cs.length := by
  induction cs generalizing i weight k with
  | nil => simp [decodeDelta] at h
  | cons c rest ih =>
    simp only [decodeDelta, Option.bind_eq_bind, Option.bind_eq_some_iff] at h
    obtain ⟨d, -, h⟩ := h
    split at h
    · simp at h
    · split at h
      · simp only [Option.some.injEq] at h
        subst h
        simp
      · have := ih h
        simp only [List.length_cons]
        omega

def decodeFrom (label : List Char) (code i bias : Nat) (cs : List Char) : Option (List Char) :=
  if cs.isEmpty then some label
  else match _h : decodeDelta i 1 base bias cs with
    | none => none
    | some (next, rest) =>
      let points := label.length + 1
      let code := code + next / points
      let place := next % points
      if code < 0x110000 ∧ ¬(0xd800 ≤ code ∧ code < 0xe000) then
        decodeFrom (label.take place ++ Char.ofNat code :: label.drop place) code (place + 1)
          (adapt (next - i) points (i == 0)) rest
      else none
termination_by cs.length
decreasing_by exact decodeDelta_length (by assumption)

/-- The part before the last hyphen is literal; the digits after it place the other characters. -/
def decode (cs : List Char) : Option (List Char) :=
  let after := (cs.reverse.takeWhile (· ≠ '-')).reverse
  let before := cs.take (cs.length - after.length - 1)
  if before.all (·.toNat < initialCode) then decodeFrom before initialCode 0 initialBias after
  else none

end HttpRelay.Punycode
