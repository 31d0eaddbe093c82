import HttpRelay.Text.Utf8

namespace HttpRelay.Flate

structure Source where
  bits : List Bool
  bytes : Bytes

namespace Source

def ofBytes (bs : Bytes) : Source := ⟨[], bs⟩

def size (s : Source) : Nat := s.bits.length + 8 * s.bytes.length

def upperBits (b : UInt8) : List Bool :=
  [b &&& 2 != 0, b &&& 4 != 0, b &&& 8 != 0, b &&& 16 != 0, b &&& 32 != 0, b &&& 64 != 0,
    b &&& 128 != 0]

def bit? : Source → Option (Bool × Source)
  | ⟨b :: bits, bytes⟩ => some (b, ⟨bits, bytes⟩)
  | ⟨[], byte :: bytes⟩ => some (byte &&& 1 != 0, ⟨upperBits byte, bytes⟩)
  | ⟨[], []⟩ => none

def number? (s : Source) : Nat → Option (Nat × Source)
  | 0 => some (0, s)
  | n + 1 =>
    match s.bit? with
    | none => none
    | some (b, s) => (s.number? n).map fun (v, s) => (2 * v + b.toNat, s)

def align (s : Source) : Source := ⟨[], s.bytes⟩

theorem size_bit {s t : Source} {b : Bool} (h : s.bit? = some (b, t)) : t.size + 1 = s.size := by
  unfold bit? at h
  split at h
  · simp only [Option.some.injEq, Prod.mk.injEq] at h
    simp only [← h.2, size, List.length_cons]
    omega
  · simp only [Option.some.injEq, Prod.mk.injEq] at h
    simp only [← h.2, size, upperBits, List.length_cons, List.length_nil]
    omega
  · simp at h

theorem size_number {s t : Source} {n v : Nat} (h : s.number? n = some (v, t)) :
    t.size + n = s.size := by
  induction n generalizing s t v with
  | zero =>
    simp only [number?, Option.some.injEq, Prod.mk.injEq] at h
    simp [h.2]
  | succ n ih =>
    simp only [number?] at h
    split at h
    · simp at h
    · rename_i b s' hb
      simp only [Option.map_eq_some_iff, Prod.mk.injEq, Prod.exists] at h
      obtain ⟨v', t', hn, _, rfl⟩ := h
      have := ih hn
      have := size_bit hb
      omega

end Source

end HttpRelay.Flate
