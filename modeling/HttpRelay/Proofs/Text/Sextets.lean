import HttpRelay.Text.Base64
import HttpRelay.Text.Blank

namespace HttpRelay.Base64

variable {a b c d : Char} {n x y z w : Nat} {rest : List Char} {tail : Bytes}

theorem value?_digit (h : n < 64) : value? (digit n) = some n := by
  have hall : ∀ n ∈ List.range 64, value? (digit n) = some n := by decide +kernel
  exact hall n (List.mem_range.mpr h)

theorem digit_mem (n : Nat) : digit n ∈ alphabet := by
  rw [digit, List.getD_eq_getElem?_getD]
  cases h : alphabet[n]? with
  | none => decide
  | some c => exact List.mem_of_getElem? h

theorem digit_ne_pad (n : Nat) : digit n ≠ '=' := by
  have hpad : '=' ∉ alphabet := by decide
  exact fun h => hpad (h ▸ digit_mem n)

theorem decode?_four (hd : d ≠ '=') (ha : value? a = some x) (hb : value? b = some y)
    (hc : value? c = some z) (hw : value? d = some w) (hrest : decode? rest = some tail) :
    decode? (a :: b :: c :: d :: rest) = some ((4 * x + y / 16).toUInt8 ::
      (16 * (y % 16) + z / 4).toUInt8 :: (64 * (z % 4) + w).toUInt8 :: tail) := by
  rw [decode?]
  · simp [ha, hb, hc, hw, hrest]
  · intro _ hpad
    exact absurd hpad hd
  · intro hpad
    exact absurd hpad hd

theorem decode?_three (hc : c ≠ '=') (ha : value? a = some x) (hb : value? b = some y)
    (hz : value? c = some z) (hzero : z % 4 = 0) :
    decode? [a, b, c, '='] =
      some [(4 * x + y / 16).toUInt8, (16 * (y % 16) + z / 4).toUInt8] := by
  rw [decode?]
  · simp [ha, hb, hz, hzero]
  · exact hc

theorem decode?_two (ha : value? a = some x) (hb : value? b = some y) (hzero : y % 16 = 0) :
    decode? [a, b, '=', '='] = some [(4 * x + y / 16).toUInt8] := by
  simp [decode?, ha, hb, hzero]

theorem toUInt8_eq {b : UInt8} (h : n = b.toNat) : n.toUInt8 = b := by
  rw [h]
  exact UInt8.ofNat_toNat

theorem decode?_encode (bs : Bytes) : decode? (encode bs) = some bs := by
  fun_induction encode bs with
  | case1 a b c rest ih =>
    have ha := a.toNat_lt
    have hb := b.toNat_lt
    have hc := c.toNat_lt
    rw [decode?_four (digit_ne_pad _) (value?_digit (by omega)) (value?_digit (by omega))
      (value?_digit (by omega)) (value?_digit (by omega)) ih, toUInt8_eq (b := a) (by omega),
      toUInt8_eq (b := b) (by omega), toUInt8_eq (b := c) (by omega)]
  | case2 a b =>
    have ha := a.toNat_lt
    have hb := b.toNat_lt
    rw [decode?_three (digit_ne_pad _) (value?_digit (by omega)) (value?_digit (by omega))
      (value?_digit (by omega)) (by omega), toUInt8_eq (b := a) (by omega),
      toUInt8_eq (b := b) (by omega)]
  | case3 a =>
    have ha := a.toNat_lt
    rw [decode?_two (value?_digit (by omega)) (value?_digit (by omega)) (by omega),
      toUInt8_eq (b := a) (by omega)]
  | case4 => rfl

theorem encode_inj {bs cs : Bytes} : encode bs = encode cs ↔ bs = cs := by
  constructor
  · intro h
    have hbs := decode?_encode bs
    rw [h, decode?_encode, Option.some_inj] at hbs
    exact hbs.symm
  · exact congrArg encode

theorem mem_encode {bs : Bytes} (h : c ∈ encode bs) : c ∈ alphabet ∨ c = '=' := by
  fun_induction encode bs with
  | case1 _ _ _ _ ih =>
    simp only [List.mem_cons] at h
    rcases h with rfl | rfl | rfl | rfl | h
    · exact .inl (digit_mem _)
    · exact .inl (digit_mem _)
    · exact .inl (digit_mem _)
    · exact .inl (digit_mem _)
    · exact ih h
  | case2 =>
    simp only [List.mem_cons, List.not_mem_nil, or_false] at h
    rcases h with rfl | rfl | rfl | rfl
    · exact .inl (digit_mem _)
    · exact .inl (digit_mem _)
    · exact .inl (digit_mem _)
    · exact .inr rfl
  | case3 =>
    simp only [List.mem_cons, List.not_mem_nil, or_false] at h
    rcases h with rfl | rfl | rfl | rfl
    · exact .inl (digit_mem _)
    · exact .inl (digit_mem _)
    · exact .inr rfl
    · exact .inr rfl
  | case4 => exact absurd h List.not_mem_nil

theorem visible_of_mem_encode {bs : Bytes} (h : c ∈ encode bs) : Text.isVisible c = true := by
  have hall : alphabet.all Text.isVisible = true := by decide +kernel
  rcases mem_encode h with halphabet | rfl
  · exact List.all_eq_true.mp hall c halphabet
  · decide

end HttpRelay.Base64
