import HttpRelay.Flate.Huffman

/-!
Inflating: stored blocks, blocks under the fixed code and blocks that bring their own codes.
Output stops once a bound is reached.
-/

namespace HttpRelay.Flate

structure Progress where
  output : ByteArray
  source : Source

structure Stopped where
  halt : Halt
  size : Nat
deriving DecidableEq, Repr

namespace Inflate

def lengthCodes : Array (Nat × Nat) :=
  #[(3, 0), (4, 0), (5, 0), (6, 0), (7, 0), (8, 0), (9, 0), (10, 0), (11, 1), (13, 1), (15, 1),
    (17, 1), (19, 2), (23, 2), (27, 2), (31, 2), (35, 3), (43, 3), (51, 3), (59, 3), (67, 4),
    (83, 4), (99, 4), (115, 4), (131, 5), (163, 5), (195, 5), (227, 5), (258, 0)]

def distanceCodes : Array (Nat × Nat) :=
  #[(1, 0), (2, 0), (3, 0), (4, 0), (5, 1), (7, 1), (9, 2), (13, 2), (17, 3), (25, 3), (33, 4),
    (49, 4), (65, 5), (97, 5), (129, 6), (193, 6), (257, 7), (385, 7), (513, 8), (769, 8),
    (1025, 9), (1537, 9), (2049, 10), (3073, 10), (4097, 11), (6145, 11), (8193, 12),
    (12289, 12), (16385, 13), (24577, 13)]

def number {α : Type} (s : Source) (n : Nat) (f : Nat → α) : Except Halt (α × Source) :=
  match s.number? n with
  | some (v, s) => .ok (f v, s)
  | none => .error .incomplete

def extended (codes : Array (Nat × Nat)) (symbol : Nat) (s : Source) :
    Except Halt (Nat × Source) :=
  match codes[symbol]? with
  | none => .error .corrupt
  | some (base, extra) => number s extra (base + ·)

/-- The byte at a distance behind the end; there are zeros in front of the first byte. -/
def byteBack (output : ByteArray) (distance : Nat) : UInt8 :=
  if distance ≤ output.size then output.get! (output.size - distance) else 0

def copy (output : ByteArray) (distance : Nat) : Nat → ByteArray
  | 0 => output
  | n + 1 => copy (output.push (byteBack output distance)) distance n

theorem size_number {α : Type} {s t : Source} {n : Nat} {f : Nat → α} {v : α}
    (h : number s n f = .ok (v, t)) : t.size + n = s.size := by
  unfold number at h
  split at h
  · rename_i hr
    simp only [Except.ok.injEq, Prod.mk.injEq] at h
    rw [← h.2]
    exact Source.size_number hr
  · simp at h

theorem size_extended {codes : Array (Nat × Nat)} {symbol v : Nat} {s t : Source}
    (h : extended codes symbol s = .ok (v, t)) : t.size ≤ s.size := by
  unfold extended at h
  split at h
  · simp at h
  · have := size_number h
    omega

inductive Token where
  | literal (byte : UInt8)
  | repetition (length distance : Nat)
  | blockEnd

def repetition (distances : Huffman) (symbol : Nat) (s : Source) : Except Halt (Token × Source) :=
  match extended lengthCodes (symbol - 257) s with
  | .error e => .error e
  | .ok (length, s) =>
    match distances.read s with
    | .error e => .error e
    | .ok (d, s) =>
      match extended distanceCodes d s with
      | .error e => .error e
      | .ok (distance, s) => .ok (.repetition length distance, s)

def token (literals distances : Huffman) (s : Source) : Except Halt (Token × Source) :=
  match literals.read s with
  | .error e => .error e
  | .ok (symbol, s) =>
    if symbol < 256 then .ok (.literal symbol.toUInt8, s)
    else if symbol = 256 then .ok (.blockEnd, s)
    else repetition distances symbol s

theorem size_repetition {distances : Huffman} {symbol : Nat} {v : Token} {s t : Source}
    (h : repetition distances symbol s = .ok (v, t)) : t.size ≤ s.size := by
  unfold repetition at h
  split at h
  · simp at h
  · rename_i he
    have h₁ := size_extended he
    split at h
    · simp at h
    · rename_i hr
      have h₂ := Huffman.size_read hr
      split at h
      · simp at h
      · rename_i hd
        have h₃ := size_extended hd
        simp only [Except.ok.injEq, Prod.mk.injEq] at h
        simp only [← h.2]
        omega

theorem size_token {literals distances : Huffman} {v : Token} {s t : Source}
    (h : token literals distances s = .ok (v, t)) : t.size < s.size := by
  unfold token at h
  split at h
  · simp at h
  · rename_i hr
    have hs := Huffman.size_read hr
    split at h
    · simp only [Except.ok.injEq, Prod.mk.injEq] at h
      simp only [← h.2]
      omega
    · split at h
      · simp only [Except.ok.injEq, Prod.mk.injEq] at h
        simp only [← h.2]
        omega
      · have := size_repetition h
        omega

def tokens (bound : Nat) (literals distances : Huffman) (output : ByteArray) (s : Source) :
    Except Stopped Progress :=
  match _h : token literals distances s with
  | .error e => .error ⟨e, output.size⟩
  | .ok (.literal b, s') =>
    if bound ≤ output.size then .error ⟨.full, output.size⟩
    else tokens bound literals distances (output.push b) s'
  | .ok (.repetition length distance, s') =>
    if bound < output.size + length then .error ⟨.full, output.size⟩
    else tokens bound literals distances (copy output distance length) s'
  | .ok (.blockEnd, s') => .ok ⟨output, s'⟩
termination_by s.size
decreasing_by
  all_goals exact size_token _h

theorem size_tokens {bound : Nat} {literals distances : Huffman} {output : ByteArray}
    {s : Source} {p : Progress} (h : tokens bound literals distances output s = .ok p) :
    p.source.size ≤ s.size := by
  fun_induction tokens bound literals distances output s with
  | case1 => simp at h
  | case2 => simp at h
  | case3 _ _ _ _ ht _ ih =>
    have := size_token ht
    have := ih h
    omega
  | case4 => simp at h
  | case5 _ _ _ _ _ ht _ ih =>
    have := size_token ht
    have := ih h
    omega
  | case6 _ _ _ ht =>
    have := size_token ht
    simp only [Except.ok.injEq] at h
    simp only [← h]
    omega

def stored (bound : Nat) (output : ByteArray) : Nat → Bytes → Except Stopped Progress
  | 0, bytes => .ok ⟨output, .ofBytes bytes⟩
  | _ + 1, [] => .error ⟨.incomplete, output.size⟩
  | n + 1, b :: bytes =>
    if bound ≤ output.size then .error ⟨.full, output.size⟩
    else stored bound (output.push b) n bytes

theorem size_stored {bound n : Nat} {output : ByteArray} {bs : Bytes} {p : Progress}
    (h : stored bound output n bs = .ok p) : p.source.size ≤ 8 * bs.length := by
  fun_induction stored bound output n bs with
  | case1 =>
    simp only [Except.ok.injEq] at h
    simp [← h, Source.ofBytes, Source.size]
  | case2 => simp at h
  | case3 => simp at h
  | case4 _ _ _ _ _ ih =>
    have := ih h
    simp only [List.length_cons]
    omega

def storedBlock (bound : Nat) (output : ByteArray) (s : Source) : Except Stopped Progress :=
  match s.align.bytes with
  | a :: b :: c :: d :: bytes =>
    if a + c = 255 ∧ b + d = 255 then stored bound output (a.toNat + 256 * b.toNat) bytes
    else .error ⟨.corrupt, output.size⟩
  | _ => .error ⟨.incomplete, output.size⟩

theorem size_storedBlock {bound : Nat} {output : ByteArray} {s : Source} {p : Progress}
    (h : storedBlock bound output s = .ok p) : p.source.size ≤ s.size := by
  unfold storedBlock at h
  split at h
  · rename_i hb
    split at h
    · have hl := size_stored h
      simp only [Source.align] at hb
      simp only [Source.size, hb, List.length_cons] at hl ⊢
      omega
    · simp at h
  · simp at h

def fixedLiterals : Huffman :=
  .ofLengths (List.replicate 144 8 ++ List.replicate 112 9 ++ List.replicate 24 7 ++
    List.replicate 8 8)

def fixedDistances : Huffman := .ofLengths (List.replicate 32 5)

def lengthOrder : List Nat := [16, 17, 18, 0, 8, 7, 9, 6, 10, 5, 11, 4, 12, 3, 13, 2, 14, 1, 15]

def shortLengths (s : Source) : Nat → Except Halt (List Nat × Source)
  | 0 => .ok ([], s)
  | n + 1 => do
    let (v, s) ← number s 3 id
    let (vs, s) ← shortLengths s n
    pure (v :: vs, s)

theorem size_shortLengths {n : Nat} {s t : Source} {v : List Nat}
    (h : shortLengths s n = .ok (v, t)) : t.size ≤ s.size := by
  induction n generalizing s t v with
  | zero =>
    simp only [shortLengths, Except.ok.injEq, Prod.mk.injEq] at h
    simp [h.2]
  | succ n ih =>
    simp only [shortLengths, bind, Except.bind] at h
    split at h
    · simp at h
    · rename_i hn
      have := size_number hn
      split at h
      · simp at h
      · rename_i hs
        have := ih hs
        simp only [pure, Except.pure, Except.ok.injEq, Prod.mk.injEq] at h
        simp only [← h.2]
        omega

def lengthRun (previous : Option Nat) (symbol : Nat) (s : Source) :
    Except Halt ((Nat × Nat) × Source) :=
  if symbol < 16 then .ok ((symbol, 1), s)
  else if symbol = 16 then
    match previous with
    | none => .error .corrupt
    | some l => number s 2 fun v => (l, 3 + v)
  else if symbol = 17 then number s 3 fun v => (0, 3 + v)
  else number s 7 fun v => (0, 11 + v)

theorem size_lengthRun {previous : Option Nat} {symbol : Nat} {v : Nat × Nat} {s t : Source}
    (h : lengthRun previous symbol s = .ok (v, t)) : t.size ≤ s.size := by
  unfold lengthRun at h
  split at h
  · simp only [Except.ok.injEq, Prod.mk.injEq] at h
    simp [h.2]
  · split at h
    · split at h
      · simp at h
      · have := size_number h
        omega
    · split at h
      all_goals
        have := size_number h
        omega

def codeLengths (code : Huffman) (wanted : Nat) (held : List Nat) (s : Source) :
    Except Halt (List Nat × Source) :=
  if wanted ≤ held.length then
    if held.length = wanted then .ok (held.reverse, s) else .error .corrupt
  else match _h : code.read s with
    | .error e => .error e
    | .ok (symbol, s') =>
      match _h' : lengthRun held.head? symbol s' with
      | .error e => .error e
      | .ok ((l, n), s'') => codeLengths code wanted (List.replicate n l ++ held) s''
termination_by s.size
decreasing_by
  have := Huffman.size_read _h
  have := size_lengthRun _h'
  omega

theorem size_codeLengths {code : Huffman} {wanted : Nat} {held v : List Nat} {s t : Source}
    (h : codeLengths code wanted held s = .ok (v, t)) : t.size ≤ s.size := by
  fun_induction codeLengths code wanted held s with
  | case1 =>
    simp only [Except.ok.injEq, Prod.mk.injEq] at h
    simp [h.2]
  | case2 => simp at h
  | case3 => simp at h
  | case4 => simp at h
  | case5 _ _ _ _ _ hr _ _ _ hl ih =>
    have := Huffman.size_read hr
    have := size_lengthRun hl
    have := ih h
    omega

def sortLengths (lengths : List Nat) : List Nat :=
  (List.range 19).map fun i => ((lengthOrder.zip lengths).lookup i).getD 0

/-- Only a code of at most one word may leave sequences of bits without a meaning. -/
def usable (h : Huffman) : Bool := h.isComplete || h.used ≤ 1

def readCodes (s : Source) : Except Halt ((Huffman × Huffman) × Source) := do
  let (literals, s) ← number s 5 (· + 257)
  let (distances, s) ← number s 5 (· + 1)
  let (lengths, s) ← number s 4 (· + 4)
  if 286 < literals ∨ 30 < distances then throw .corrupt
  let (short, s) ← shortLengths s lengths
  let code := Huffman.ofLengths (sortLengths short)
  if !code.isComplete then throw .corrupt
  let (all, s) ← codeLengths code (literals + distances) [] s
  let literalCode := Huffman.ofLengths (all.take literals)
  let distanceCode := Huffman.ofLengths (all.drop literals)
  if usable literalCode && usable distanceCode then pure ((literalCode, distanceCode), s)
  else throw .corrupt

theorem size_readCodes {s t : Source} {v : Huffman × Huffman}
    (h : readCodes s = .ok (v, t)) : t.size ≤ s.size := by
  simp only [readCodes, bind, Except.bind, pure, Except.pure, throw, throwThe,
    MonadExceptOf.throw] at h
  split at h
  · simp at h
  · rename_i h₁
    have := size_number h₁
    split at h
    · simp at h
    · rename_i h₂
      have := size_number h₂
      split at h
      · simp at h
      · rename_i h₃
        have := size_number h₃
        split at h
        · simp at h
        · split at h
          · simp at h
          · rename_i h₄
            have := size_shortLengths h₄
            split at h
            · simp at h
            · split at h
              · simp at h
              · rename_i h₅
                have := size_codeLengths h₅
                split at h
                · simp only [Except.ok.injEq, Prod.mk.injEq] at h
                  simp only [← h.2]
                  omega
                · simp at h

def block (bound : Nat) (kind : Nat) (output : ByteArray) (s : Source) :
    Except Stopped Progress :=
  match kind with
  | 0 => storedBlock bound output s
  | 1 => tokens bound fixedLiterals fixedDistances output s
  | 2 =>
    match readCodes s with
    | .error e => .error ⟨e, output.size⟩
    | .ok ((literals, distances), s) => tokens bound literals distances output s
  | _ => .error ⟨.corrupt, output.size⟩

theorem size_block {bound kind : Nat} {output : ByteArray} {s : Source} {p : Progress}
    (h : block bound kind output s = .ok p) : p.source.size ≤ s.size := by
  unfold block at h
  split at h
  · exact size_storedBlock h
  · exact size_tokens h
  · split at h
    · simp at h
    · rename_i hr
      have := size_readCodes hr
      have := size_tokens h
      omega
  · simp at h

def blockHead (s : Source) : Except Halt ((Bool × Nat) × Source) :=
  number s 3 fun v => (v % 2 == 1, v / 2)

def blocks (bound : Nat) (output : ByteArray) (s : Source) : Except Stopped Progress :=
  match _h : blockHead s with
  | .error e => .error ⟨e, output.size⟩
  | .ok ((last, kind), s') =>
    match _h' : block bound kind output s' with
    | .error e => .error e
    | .ok p => if last then .ok p else blocks bound p.output p.source
termination_by s.size
decreasing_by
  have := size_number _h
  have := size_block _h'
  omega

end Inflate

/-- Inflates data until `bound` bytes have come out; also gives the bytes behind the data. -/
def inflate (bound : Nat) (bs : Bytes) : Except Stopped (ByteArray × Bytes) :=
  (Inflate.blocks bound .empty (.ofBytes bs)).map fun p => (p.output, p.source.bytes)

end HttpRelay.Flate
