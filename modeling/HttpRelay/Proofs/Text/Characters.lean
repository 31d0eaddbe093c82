import HttpRelay.Proofs.Text.Carry

namespace HttpRelay.Utf8

variable {b : UInt8} {p q : Pending} {c : Char} {bs cs : Bytes} {s : Carry}

section Lead

theorem lead_eq (b : UInt8) : lead b =
    if b.toNat < 0x80 then .char (Char.ofNat b.toNat)
    else if b.toNat < 0xc2 then .invalid
    else if b.toNat < 0xe0 then .opens ⟨[b], b.toNat - 0xc0, 0x80, 0xbf, 1⟩
    else if b.toNat = 0xe0 then .opens ⟨[b], 0, 0xa0, 0xbf, 2⟩
    else if b.toNat = 0xed then .opens ⟨[b], 0xd, 0x80, 0x9f, 2⟩
    else if b.toNat < 0xf0 then .opens ⟨[b], b.toNat - 0xe0, 0x80, 0xbf, 2⟩
    else if b.toNat = 0xf0 then .opens ⟨[b], 0, 0x90, 0xbf, 3⟩
    else if b.toNat < 0xf4 then .opens ⟨[b], b.toNat - 0xf0, 0x80, 0xbf, 3⟩
    else if b.toNat = 0xf4 then .opens ⟨[b], 4, 0x80, 0x8f, 3⟩
    else .invalid := by
  simp only [lead, UInt8.lt_iff_toNat_lt, ← UInt8.toNat_inj]
  rfl

theorem lead_one (h : b.toNat < 0x80) : lead b = .char (Char.ofNat b.toNat) := by
  rw [lead_eq, if_pos h]

theorem lead_two (hl : 0xc2 ≤ b.toNat) (hu : b.toNat < 0xe0) :
    lead b = .opens ⟨[b], b.toNat - 0xc0, 0x80, 0xbf, 1⟩ := by
  rw [lead_eq, if_neg (by omega), if_neg (by omega), if_pos hu]

theorem lead_three (hl : 0xe0 ≤ b.toNat) (hu : b.toNat < 0xf0) :
    ∃ low high, lead b = .opens ⟨[b], b.toNat - 0xe0, low, high, 2⟩ ∧
      (b.toNat = 0xe0 → low.toNat = 0xa0) ∧ (b.toNat ≠ 0xe0 → low.toNat = 0x80) ∧
      (b.toNat = 0xed → high.toNat = 0x9f) ∧ (b.toNat ≠ 0xed → high.toNat = 0xbf) := by
  rw [lead_eq, if_neg (by omega), if_neg (by omega), if_neg (by omega)]
  by_cases he : b.toNat = 0xe0
  · rw [if_pos he, he]
    exact ⟨0xa0, 0xbf, rfl, by decide⟩
  rw [if_neg he]
  by_cases hd : b.toNat = 0xed
  · rw [if_pos hd, hd]
    exact ⟨0x80, 0x9f, rfl, by decide⟩
  rw [if_neg hd, if_pos hu]
  exact ⟨0x80, 0xbf, rfl, fun h => absurd h he, fun _ => rfl, fun h => absurd h hd, fun _ => rfl⟩

theorem lead_four (hl : 0xf0 ≤ b.toNat) (hu : b.toNat < 0xf5) :
    ∃ low high, lead b = .opens ⟨[b], b.toNat - 0xf0, low, high, 3⟩ ∧
      (b.toNat = 0xf0 → low.toNat = 0x90) ∧ (b.toNat ≠ 0xf0 → low.toNat = 0x80) ∧
      (b.toNat = 0xf4 → high.toNat = 0x8f) ∧ (b.toNat ≠ 0xf4 → high.toNat = 0xbf) := by
  rw [lead_eq, if_neg (by omega), if_neg (by omega), if_neg (by omega), if_neg (by omega),
    if_neg (by omega), if_neg (by omega)]
  by_cases h0 : b.toNat = 0xf0
  · rw [if_pos h0, h0]
    exact ⟨0x90, 0xbf, rfl, by decide⟩
  rw [if_neg h0]
  by_cases h4 : b.toNat = 0xf4
  · rw [if_neg (by omega), if_pos h4, h4]
    exact ⟨0x80, 0x8f, rfl, by decide⟩
  rw [if_pos (by omega)]
  exact ⟨0x80, 0xbf, rfl, fun h => absurd h h0, fun _ => rfl, fun h => absurd h h4, fun _ => rfl⟩

theorem lead_none (h : 0x80 ≤ b.toNat ∧ b.toNat < 0xc2 ∨ 0xf5 ≤ b.toNat) : lead b = .invalid := by
  rw [lead_eq, if_neg (by omega)]
  by_cases hl : b.toNat < 0xc2
  · rw [if_pos hl]
  · rw [if_neg hl, if_neg (by omega), if_neg (by omega), if_neg (by omega), if_neg (by omega),
      if_neg (by omega), if_neg (by omega), if_neg (by omega)]

inductive LeadForm (b : UInt8) : Lead → Prop where
  | one (h : b.toNat < 0x80) : LeadForm b (.char (Char.ofNat b.toNat))
  | two (hl : 0xc2 ≤ b.toNat) (hu : b.toNat < 0xe0) :
    LeadForm b (.opens ⟨[b], b.toNat - 0xc0, 0x80, 0xbf, 1⟩)
  | three {low high : UInt8} (hl : 0xe0 ≤ b.toNat) (hu : b.toNat < 0xf0)
    (hlow : b.toNat = 0xe0 → low.toNat = 0xa0) (hlow' : b.toNat ≠ 0xe0 → low.toNat = 0x80)
    (hhigh : b.toNat = 0xed → high.toNat = 0x9f) (hhigh' : b.toNat ≠ 0xed → high.toNat = 0xbf) :
    LeadForm b (.opens ⟨[b], b.toNat - 0xe0, low, high, 2⟩)
  | four {low high : UInt8} (hl : 0xf0 ≤ b.toNat) (hu : b.toNat < 0xf5)
    (hlow : b.toNat = 0xf0 → low.toNat = 0x90) (hlow' : b.toNat ≠ 0xf0 → low.toNat = 0x80)
    (hhigh : b.toNat = 0xf4 → high.toNat = 0x8f) (hhigh' : b.toNat ≠ 0xf4 → high.toNat = 0xbf) :
    LeadForm b (.opens ⟨[b], b.toNat - 0xf0, low, high, 3⟩)
  | invalid : LeadForm b .invalid

theorem lead_form (b : UInt8) : LeadForm b (lead b) := by
  have hcases : b.toNat < 0x80 ∨ 0xc2 ≤ b.toNat ∧ b.toNat < 0xe0 ∨ 0xe0 ≤ b.toNat ∧ b.toNat < 0xf0 ∨
      0xf0 ≤ b.toNat ∧ b.toNat < 0xf5 ∨
      (0x80 ≤ b.toNat ∧ b.toNat < 0xc2 ∨ 0xf5 ≤ b.toNat) := by omega
  rcases hcases with h1 | ⟨hl, hu⟩ | ⟨hl, hu⟩ | ⟨hl, hu⟩ | hnone
  · rw [lead_one h1]
    exact .one h1
  · rw [lead_two hl hu]
    exact .two hl hu
  · obtain ⟨low, high, hlead, hlow, hlow', hhigh, hhigh'⟩ := lead_three hl hu
    rw [hlead]
    exact .three hl hu hlow hlow' hhigh hhigh'
  · obtain ⟨low, high, hlead, hlow, hlow', hhigh, hhigh'⟩ := lead_four hl hu
    rw [hlead]
    exact .four hl hu hlow hlow' hhigh hhigh'
  · rw [lead_none hnone]
    exact .invalid

end Lead

inductive Path : Carry → Bytes → Char → Prop where
  | one {b : UInt8} {c : Char} (h : lead b = .char c) : Path none [b] c
  | opens {b : UInt8} {p : Pending} {bs : Bytes} {c : Char} (h : lead b = .opens p)
    (hp : Path (some p) bs c) : Path none (b :: bs) c
  | last {p : Pending} {b : UInt8} (ha : p.accepts b = true) (hm : p.missing = 1) :
    Path (some p) [b] (Char.ofNat (p.value b))
  | more {p : Pending} {b : UInt8} {bs : Bytes} {c : Char} (ha : p.accepts b = true)
    (hm : p.missing ≠ 1) (hp : Path (some (p.extend b)) bs c) : Path (some p) (b :: bs) c

theorem accepts_iff (p : Pending) (b : UInt8) :
    p.accepts b = true ↔ p.low.toNat ≤ b.toNat ∧ b.toNat ≤ p.high.toNat := by
  rw [Pending.accepts, Bool.and_eq_true, decide_eq_true_iff, decide_eq_true_iff,
    UInt8.le_iff_toNat_le, UInt8.le_iff_toNat_le]

theorem toNat_charOfNat {n : Nat} (h : n.isValidChar) : (Char.ofNat n).toNat = n := by
  rw [Char.ofNat, dif_pos h]
  rfl

theorem toNat_byteOfNat {n : Nat} (h : n < 256) : (UInt8.ofNat n).toNat = n :=
  UInt8.toNat_ofNat_of_lt h

section Encode

variable {n : Nat}

theorem encodeChar_one (h : c.toNat < 0x80) :
    String.utf8EncodeChar c = [UInt8.ofNat c.toNat] := by
  rw [String.utf8EncodeChar, Char.toNat_val]
  exact if_pos (by omega)

theorem encodeChar_two (hl : 0x80 ≤ c.toNat) (hu : c.toNat < 0x800) :
    String.utf8EncodeChar c =
      [UInt8.ofNat (c.toNat / 64 + 0xc0), UInt8.ofNat (c.toNat % 64 + 0x80)] := by
  have hlead : c.toNat / 64 % 32 = c.toNat / 64 := Nat.mod_eq_of_lt (by omega)
  rw [String.utf8EncodeChar, Char.toNat_val, if_neg (by omega), if_pos (by omega), hlead]

theorem encodeChar_three (hl : 0x800 ≤ c.toNat) (hu : c.toNat < 0x10000) :
    String.utf8EncodeChar c =
      [UInt8.ofNat (c.toNat / 4096 + 0xe0), UInt8.ofNat (c.toNat / 64 % 64 + 0x80),
        UInt8.ofNat (c.toNat % 64 + 0x80)] := by
  have hlead : c.toNat / 4096 % 16 = c.toNat / 4096 := Nat.mod_eq_of_lt (by omega)
  rw [String.utf8EncodeChar, Char.toNat_val, if_neg (by omega), if_neg (by omega),
    if_pos (by omega), hlead]

theorem encodeChar_four (hl : 0x10000 ≤ c.toNat) (hu : c.toNat < 0x110000) :
    String.utf8EncodeChar c =
      [UInt8.ofNat (c.toNat / 262144 + 0xf0), UInt8.ofNat (c.toNat / 4096 % 64 + 0x80),
        UInt8.ofNat (c.toNat / 64 % 64 + 0x80), UInt8.ofNat (c.toNat % 64 + 0x80)] := by
  have hlead : c.toNat / 262144 % 8 = c.toNat / 262144 := Nat.mod_eq_of_lt (by omega)
  rw [String.utf8EncodeChar, Char.toNat_val, if_neg (by omega), if_neg (by omega),
    if_neg (by omega), hlead]

end Encode

theorem path_last (ha : p.low.toNat ≤ b.toNat ∧ b.toNat ≤ p.high.toNat) (hm : p.missing = 1)
    (hv : p.value b = c.toNat) : Path (some p) [b] c := by
  have hlast := Path.last ((accepts_iff p b).mpr ha) hm
  rwa [hv, Char.ofNat_toNat] at hlast

theorem path_more (ha : p.low.toNat ≤ b.toNat ∧ b.toNat ≤ p.high.toNat) (hm : p.missing ≠ 1)
    (hp : Path (some (p.extend b)) bs c) : Path (some p) (b :: bs) c :=
  .more ((accepts_iff p b).mpr ha) hm hp

theorem value_mk (held : Bytes) (n : Nat) (low high : UInt8) (m : Nat) (b : UInt8) :
    (Pending.mk held n low high m).value b = 64 * n + (b.toNat - 0x80) :=
  rfl

theorem value_extend (p : Pending) (b b' : UInt8) :
    (p.extend b).value b' = 64 * p.value b + (b'.toNat - 0x80) :=
  rfl

theorem toNat_low : (0x80 : UInt8).toNat = 0x80 := rfl

theorem toNat_high : (0xbf : UInt8).toNat = 0xbf := rfl

theorem path_encode_one (h : c.toNat < 0x80) : Path none (String.utf8EncodeChar c) c := by
  have hb := toNat_byteOfNat (n := c.toNat) (by omega)
  have hone := lead_one (b := UInt8.ofNat c.toNat) (by omega)
  rw [hb, Char.ofNat_toNat] at hone
  rw [encodeChar_one h]
  exact .one hone

theorem path_encode_two (hl : 0x80 ≤ c.toNat) (hu : c.toNat < 0x800) :
    Path none (String.utf8EncodeChar c) c := by
  rw [encodeChar_two hl hu]
  have hb := toNat_byteOfNat (n := c.toNat / 64 + 0xc0) (by omega)
  have hb1 := toNat_byteOfNat (n := c.toNat % 64 + 0x80) (by omega)
  generalize UInt8.ofNat (c.toNat / 64 + 0xc0) = b at hb ⊢
  generalize UInt8.ofNat (c.toNat % 64 + 0x80) = b1 at hb1 ⊢
  apply Path.opens (lead_two (by omega) (by omega))
  apply path_last _ rfl
  · rw [value_mk]
    omega
  · simp only [toNat_low, toNat_high]
    omega

theorem path_encode_three (hl : 0x800 ≤ c.toNat) (hu : c.toNat < 0x10000) :
    Path none (String.utf8EncodeChar c) c := by
  have hvalid : c.toNat < 0xd800 ∨ 0xdfff < c.toNat ∧ c.toNat < 0x110000 := c.valid
  rw [encodeChar_three hl hu]
  have hb := toNat_byteOfNat (n := c.toNat / 4096 + 0xe0) (by omega)
  have hb1 := toNat_byteOfNat (n := c.toNat / 64 % 64 + 0x80) (by omega)
  have hb2 := toNat_byteOfNat (n := c.toNat % 64 + 0x80) (by omega)
  generalize UInt8.ofNat (c.toNat / 4096 + 0xe0) = b at hb ⊢
  generalize UInt8.ofNat (c.toNat / 64 % 64 + 0x80) = b1 at hb1 ⊢
  generalize UInt8.ofNat (c.toNat % 64 + 0x80) = b2 at hb2 ⊢
  obtain ⟨low, high, hlead, hlow, hlow', hhigh, hhigh'⟩ :=
    lead_three (b := b) (by omega) (by omega)
  apply Path.opens hlead
  apply path_more _ (by simp)
  · apply path_last _ rfl
    · rw [value_extend, value_mk]
      omega
    · simp only [Pending.extend, toNat_low, toNat_high]
      omega
  -- here the range of the second byte rules out overlong forms and surrogates
  · dsimp only
    omega

theorem path_encode_four (hl : 0x10000 ≤ c.toNat) (hu : c.toNat < 0x110000) :
    Path none (String.utf8EncodeChar c) c := by
  rw [encodeChar_four hl hu]
  have hb := toNat_byteOfNat (n := c.toNat / 262144 + 0xf0) (by omega)
  have hb1 := toNat_byteOfNat (n := c.toNat / 4096 % 64 + 0x80) (by omega)
  have hb2 := toNat_byteOfNat (n := c.toNat / 64 % 64 + 0x80) (by omega)
  have hb3 := toNat_byteOfNat (n := c.toNat % 64 + 0x80) (by omega)
  generalize UInt8.ofNat (c.toNat / 262144 + 0xf0) = b at hb ⊢
  generalize UInt8.ofNat (c.toNat / 4096 % 64 + 0x80) = b1 at hb1 ⊢
  generalize UInt8.ofNat (c.toNat / 64 % 64 + 0x80) = b2 at hb2 ⊢
  generalize UInt8.ofNat (c.toNat % 64 + 0x80) = b3 at hb3 ⊢
  obtain ⟨low, high, hlead, hlow, hlow', hhigh, hhigh'⟩ :=
    lead_four (b := b) (by omega) (by omega)
  apply Path.opens hlead
  apply path_more _ (by simp)
  · apply path_more _ (by simp [Pending.extend])
    · apply path_last _ rfl
      · rw [value_extend, value_extend, value_mk]
        omega
      · simp only [Pending.extend, toNat_low, toNat_high]
        omega
    · simp only [Pending.extend, toNat_low, toNat_high]
      omega
  · dsimp only
    omega

theorem path_encode (c : Char) : Path none (String.utf8EncodeChar c) c := by
  have hvalid : c.toNat < 0xd800 ∨ 0xdfff < c.toNat ∧ c.toNat < 0x110000 := c.valid
  by_cases h1 : c.toNat < 0x80
  · exact path_encode_one h1
  by_cases h2 : c.toNat < 0x800
  · exact path_encode_two (by omega) h2
  by_cases h3 : c.toNat < 0x10000
  · exact path_encode_three (by omega) h3
  · exact path_encode_four (by omega) (by omega)

theorem path_of_last (hp : Path (some p) bs c) (hm : p.missing = 1) :
    ∃ b, bs = [b] ∧ p.low.toNat ≤ b.toNat ∧ b.toNat ≤ p.high.toNat ∧ c = Char.ofNat (p.value b) := by
  cases hp with
  | last ha => exact ⟨_, rfl, ((accepts_iff _ _).mp ha).1, ((accepts_iff _ _).mp ha).2, rfl⟩
  | more ha hne => exact absurd hm hne

theorem path_of_more (hp : Path (some p) bs c) (hm : p.missing ≠ 1) :
    ∃ b rest, bs = b :: rest ∧ p.low.toNat ≤ b.toNat ∧ b.toNat ≤ p.high.toNat ∧
      Path (some (p.extend b)) rest c := by
  cases hp with
  | last ha hone => exact absurd hone hm
  | more ha hne hp => exact ⟨_, _, rfl, ((accepts_iff _ _).mp ha).1, ((accepts_iff _ _).mp ha).2, hp⟩

theorem byteOfNat_eq {n : Nat} (h : n = b.toNat) : UInt8.ofNat n = b := by
  rw [h]
  exact UInt8.ofNat_toNat

theorem isValidChar_of {n : Nat} (h : n < 0xd800 ∨ 0xdfff < n ∧ n < 0x110000) : n.isValidChar := h

theorem ascii_of_lead (h : lead b = .char c) : b.toNat < 0x80 ∧ c.toNat = b.toNat := by
  have hform := lead_form b
  rw [h] at hform
  cases hform with
  | one hb => exact ⟨hb, toNat_charOfNat (isValidChar_of (by omega))⟩

theorem encode_of_two (hl : 0xc2 ≤ b.toNat) (hu : b.toNat < 0xe0)
    (hp : Path (some ⟨[b], b.toNat - 0xc0, 0x80, 0xbf, 1⟩) bs c) :
    b :: bs = String.utf8EncodeChar c := by
  obtain ⟨b1, rfl, hlow, hhigh, hc⟩ := path_of_last hp rfl
  rw [toNat_low] at hlow
  rw [toNat_high] at hhigh
  rw [value_mk] at hc
  generalize hv : 64 * (b.toNat - 0xc0) + (b1.toNat - 0x80) = v at hc
  have hn := toNat_charOfNat (isValidChar_of (n := v) (by omega))
  rw [← hc] at hn
  rw [encodeChar_two (by omega) (by omega), hn, byteOfNat_eq (b := b) (by omega),
    byteOfNat_eq (b := b1) (by omega)]

theorem encode_of_three (hl : 0xe0 ≤ b.toNat) (hu : b.toNat < 0xf0) {low high : UInt8}
    (hlow : b.toNat = 0xe0 → low.toNat = 0xa0) (hlow' : b.toNat ≠ 0xe0 → low.toNat = 0x80)
    (hhigh : b.toNat = 0xed → high.toNat = 0x9f) (hhigh' : b.toNat ≠ 0xed → high.toNat = 0xbf)
    (hp : Path (some ⟨[b], b.toNat - 0xe0, low, high, 2⟩) bs c) :
    b :: bs = String.utf8EncodeChar c := by
  obtain ⟨b1, rest, rfl, hl1, hu1, hp⟩ := path_of_more hp (by simp)
  obtain ⟨b2, rfl, hl2, hu2, hc⟩ := path_of_last hp rfl
  rw [Pending.extend, toNat_low] at hl2
  rw [Pending.extend, toNat_high] at hu2
  rw [value_extend, value_mk] at hc
  dsimp only at hl1 hu1
  generalize hv : 64 * (64 * (b.toNat - 0xe0) + (b1.toNat - 0x80)) + (b2.toNat - 0x80) = v at hc
  have hn := toNat_charOfNat (isValidChar_of (n := v) (by omega))
  rw [← hc] at hn
  rw [encodeChar_three (by omega) (by omega), hn, byteOfNat_eq (b := b) (by omega),
    byteOfNat_eq (b := b1) (by omega), byteOfNat_eq (b := b2) (by omega)]

theorem encode_of_four (hl : 0xf0 ≤ b.toNat) (hu : b.toNat < 0xf5) {low high : UInt8}
    (hlow : b.toNat = 0xf0 → low.toNat = 0x90) (hlow' : b.toNat ≠ 0xf0 → low.toNat = 0x80)
    (hhigh : b.toNat = 0xf4 → high.toNat = 0x8f) (hhigh' : b.toNat ≠ 0xf4 → high.toNat = 0xbf)
    (hp : Path (some ⟨[b], b.toNat - 0xf0, low, high, 3⟩) bs c) :
    b :: bs = String.utf8EncodeChar c := by
  obtain ⟨b1, rest, rfl, hl1, hu1, hp⟩ := path_of_more hp (by simp)
  obtain ⟨b2, rest, rfl, hl2, hu2, hp⟩ := path_of_more hp (by simp [Pending.extend])
  obtain ⟨b3, rfl, hl3, hu3, hc⟩ := path_of_last hp rfl
  rw [Pending.extend, toNat_low] at hl2 hl3
  rw [Pending.extend, toNat_high] at hu2 hu3
  rw [value_extend, value_extend, value_mk] at hc
  dsimp only at hl1 hu1
  generalize hv : 64 * (64 * (64 * (b.toNat - 0xf0) + (b1.toNat - 0x80)) + (b2.toNat - 0x80)) +
    (b3.toNat - 0x80) = v at hc
  have hn := toNat_charOfNat (isValidChar_of (n := v) (by omega))
  rw [← hc] at hn
  rw [encodeChar_four (by omega) (by omega), hn, byteOfNat_eq (b := b) (by omega),
    byteOfNat_eq (b := b1) (by omega), byteOfNat_eq (b := b2) (by omega),
    byteOfNat_eq (b := b3) (by omega)]

theorem encode_of_path (hp : Path none bs c) : bs = String.utf8EncodeChar c := by
  cases hp with
  | one h =>
    obtain ⟨hb, hc⟩ := ascii_of_lead h
    rw [encodeChar_one (by omega), byteOfNat_eq hc]
  | @opens b p rest _ h hp =>
    have hform := lead_form b
    rw [h] at hform
    cases hform with
    | two hl hu => exact encode_of_two hl hu hp
    | three hl hu hlow hlow' hhigh hhigh' => exact encode_of_three hl hu hlow hlow' hhigh hhigh' hp
    | four hl hu hlow hlow' hhigh hhigh' => exact encode_of_four hl hu hlow hlow' hhigh hhigh' hp

theorem mem_encodeChar (hb : b ∈ String.utf8EncodeChar c) (h : b.toNat < 0x80) :
    c.toNat = b.toNat := by
  have hvalid : c.toNat < 0xd800 ∨ 0xdfff < c.toNat ∧ c.toNat < 0x110000 := c.valid
  have hmember : ∀ {n : Nat}, b = UInt8.ofNat n → n < 256 → n < 0x80 := by
    rintro n rfl hn
    rwa [toNat_byteOfNat hn] at h
  by_cases h1 : c.toNat < 0x80
  · rw [encodeChar_one h1, List.mem_singleton] at hb
    rw [hb, toNat_byteOfNat (by omega)]
  by_cases h2 : c.toNat < 0x800
  · rw [encodeChar_two (by omega) h2] at hb
    simp only [List.mem_cons, List.not_mem_nil, or_false] at hb
    rcases hb with hb | hb <;> have := hmember hb (by omega) <;> omega
  by_cases h3 : c.toNat < 0x10000
  · rw [encodeChar_three (by omega) h3] at hb
    simp only [List.mem_cons, List.not_mem_nil, or_false] at hb
    rcases hb with hb | hb | hb <;> have := hmember hb (by omega) <;> omega
  · rw [encodeChar_four (by omega) (by omega)] at hb
    simp only [List.mem_cons, List.not_mem_nil, or_false] at hb
    rcases hb with hb | hb | hb | hb <;> have := hmember hb (by omega) <;> omega

theorem strictFrom_path (hp : Path s bs c) (text : String) (index : Nat) (rest : Bytes) :
    strictFrom text index s (bs ++ rest) =
      strictFrom (text.push c) (index + bs.length) none rest := by
  induction hp generalizing index with
  | one h =>
    rw [List.cons_append, strictFrom, h]
    rfl
  | opens h hp ih =>
    rw [List.cons_append, strictFrom, h]
    dsimp only
    rw [ih, List.length_cons, Nat.add_right_comm, Nat.add_assoc]
  | last ha hm =>
    rw [List.cons_append, strictFrom, if_pos ha, if_pos hm]
    rfl
  | more ha hm hp ih =>
    rw [List.cons_append, strictFrom, if_pos ha, if_neg hm, ih, List.length_cons,
      Nat.add_right_comm, Nat.add_assoc]

theorem strictFrom_encode (text : String) (index : Nat) (chars : List Char) :
    strictFrom text index none (chars.flatMap String.utf8EncodeChar) =
      .ok (pushAll text chars) := by
  induction chars generalizing text index with
  | nil => rfl
  | cons c chars ih =>
    rw [List.flatMap_cons, strictFrom_path (path_encode c), ih]
    rfl

theorem strict_encode (text : String) : strict (encode text) = .ok text := by
  have htext : pushAll "" text.toList = text := by
    rw [← String.toList_inj, toList_pushAll]
    rfl
  rw [strict, encode, strictFrom_encode, htext]

inductive Reads : Carry → Bytes → List Char → Prop
  | done : Reads none [] []
  | char {s : Carry} {front back : Bytes} {c : Char} {cs : List Char} (hp : Path s front c)
    (h : Reads none back cs) : Reads s (front ++ back) (c :: cs)

theorem Reads.first {b : UInt8} {bs : Bytes} {s : Carry} {p : Pending} {cs : List Char}
    (h : Reads (some p) bs cs)
    (hp : ∀ {front : Bytes} {c : Char}, Path (some p) front c → Path s (b :: front) c) :
    Reads s (b :: bs) cs := by
  cases h with
  | char hpath hrest => exact .char (hp hpath) hrest

theorem reads_of_strictFrom {text t : String} {index : Nat}
    (h : strictFrom text index s bs = .ok t) : ∃ cs, Reads s bs cs ∧ t = pushAll text cs := by
  induction bs generalizing text index s with
  | nil =>
    cases s with
    | none => exact ⟨[], .done, (Except.ok.inj h).symm⟩
    | some p => cases h
  | cons b bs ih =>
    rw [strictFrom.eq_def] at h
    cases s with
    | none =>
      dsimp only at h
      cases hlead : lead b with
      | char c =>
        rw [hlead] at h
        obtain ⟨cs, hreads, rfl⟩ := ih h
        exact ⟨c :: cs, .char (.one hlead) hreads, rfl⟩
      | opens p =>
        rw [hlead] at h
        obtain ⟨cs, hreads, rfl⟩ := ih h
        exact ⟨cs, hreads.first (.opens hlead), rfl⟩
      | invalid =>
        rw [hlead] at h
        cases h
    | some p =>
      dsimp only at h
      split at h
      · rename_i ha
        split at h
        · rename_i hm
          obtain ⟨cs, hreads, rfl⟩ := ih h
          exact ⟨_ :: cs, .char (.last ha hm) hreads, rfl⟩
        · rename_i hm
          obtain ⟨cs, hreads, rfl⟩ := ih h
          exact ⟨cs, hreads.first (.more ha hm), rfl⟩
      · cases h

theorem Reads.eq_encode {cs : List Char} (h : Reads none bs cs) :
    bs = cs.flatMap String.utf8EncodeChar := by
  generalize hs : (none : Carry) = s at h
  induction h with
  | done => rfl
  | char hp _ ih =>
    subst hs
    rw [List.flatMap_cons, ← encode_of_path hp, ih rfl]

theorem strict_eq_ok_iff {t : String} : strict bs = .ok t ↔ bs = encode t := by
  constructor
  · intro h
    obtain ⟨cs, hreads, rfl⟩ := reads_of_strictFrom h
    rw [encode, toList_pushAll]
    exact hreads.eq_encode
  · rintro rfl
    exact strict_encode t

end HttpRelay.Utf8
