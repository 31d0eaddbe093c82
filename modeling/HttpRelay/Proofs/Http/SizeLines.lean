import Mathlib.Algebra.Group.Nat.Defs
import HttpRelay.Http.SizeLine
import HttpRelay.Proofs.Wire.Resume

namespace HttpRelay

def crlf : Bytes := [0x0d, 0x0a]

structure SizeText where
  digits : Bytes
  blanks : Bytes
  extension : Option Bytes
  digits_ne_nil : digits ≠ []
  digits_le : digits.length ≤ SizeLine.maxDigits
  digits_hex : ∀ b ∈ digits, (SizeLine.digit? b).isSome = true
  blanks_bytes : ∀ b ∈ blanks, SizeLine.isBlank b = true
  extension_bytes : ∀ b ∈ extension.getD [], b ≠ 0x0d

namespace SizeText

def number (n : Nat) : Bytes → Nat
  | [] => n
  | b :: rest => number (16 * n + (SizeLine.digit? b).getD 0) rest

def value (t : SizeText) : Nat := number 0 t.digits

def tail (t : SizeText) : Bytes :=
  match t.extension with
  | some extension => 0x3b :: (extension ++ [0x0d, 0x0a])
  | none => [0x0d, 0x0a]

def bytes (t : SizeText) : Bytes := t.digits ++ (t.blanks ++ t.tail)

end SizeText

structure LineTail where
  blanks : Bytes
  extension : Option Bytes
  blanks_bytes : ∀ b ∈ blanks, SizeLine.isBlank b = true
  extension_bytes : ∀ b ∈ extension.getD [], b ≠ 0x0d

structure SizeForm where
  digits : Bytes
  tail : LineTail
  digits_le : digits.length ≤ SizeLine.maxDigits
  digits_hex : ∀ b ∈ digits, (SizeLine.digit? b).isSome = true

namespace LineTail

def ending : Option Bytes → Bytes
  | some extension => 0x3b :: (extension ++ crlf)
  | none => crlf

def bytes (t : LineTail) : Bytes := t.blanks ++ ending t.extension

def cons (b : UInt8) (hb : SizeLine.isBlank b = true) (t : LineTail) : LineTail :=
  ⟨b :: t.blanks, t.extension, List.forall_mem_cons.mpr ⟨hb, t.blanks_bytes⟩, t.extension_bytes⟩

end LineTail

namespace SizeForm

def value (t : SizeForm) : Nat := SizeText.number 0 t.digits

def bytes (t : SizeForm) : Bytes := t.digits ++ t.tail.bytes

end SizeForm

namespace SizeText

def form (t : SizeText) : SizeForm where
  digits := t.digits
  tail := ⟨t.blanks, t.extension, t.blanks_bytes, t.extension_bytes⟩
  digits_le := t.digits_le
  digits_hex := t.digits_hex

theorem form_bytes (t : SizeText) : t.form.bytes = t.bytes := by
  have hending : LineTail.ending t.extension = t.tail := by
    rw [tail]
    cases t.extension <;> rfl
  rw [bytes, ← hending]
  rfl

end SizeText

namespace SizeLine

open Wire (Scan scan_next scan_accept scan_refuse)

variable {bs rest : Bytes} {n v k : Nat} {b : UInt8}

theorem scan_digits (digits : Bytes) (n value : Nat) (rest : Bytes)
    (hl : n + digits.length ≤ maxDigits) (h : ∀ b ∈ digits, (digit? b).isSome = true) :
    Wire.scan step (.size n value) (digits ++ rest) =
      Wire.scan step (.size (n + digits.length) (SizeText.number value digits)) rest := by
  induction digits generalizing n value with
  | nil => rfl
  | cons b digits ih =>
    obtain ⟨d, hd⟩ := Option.isSome_iff_exists.mp (h b List.mem_cons_self)
    rw [List.length_cons] at hl ⊢
    have hstep : step (.size n value) b = .next (.size (n + 1) (16 * value + d)) := by
      simp only [step, hd]
      exact if_pos (by omega)
    rw [List.cons_append, scan_next hstep,
      ih _ _ (by omega) fun b' hb' => h b' (List.mem_cons_of_mem b hb'), SizeText.number, hd,
      Option.getD_some, Nat.add_right_comm n 1, Nat.add_assoc n]

theorem scan_tail {b : UInt8} (hb : digit? b = none) (n value : Nat) (rest : Bytes) :
    Wire.scan step (.size n value) (b :: rest) = Wire.scan step (.blank value) (b :: rest) := by
  have hstep : step (.size n value) b = step (.blank value) b := by
    simp only [step, hb]
  rw [Wire.scan, Wire.scan, hstep]

theorem scan_blanks (blanks : Bytes) (value : Nat) (rest : Bytes)
    (h : ∀ b ∈ blanks, isBlank b = true) :
    Wire.scan step (.blank value) (blanks ++ rest) = Wire.scan step (.blank value) rest := by
  induction blanks with
  | nil => rfl
  | cons b blanks ih =>
    have hb := h b List.mem_cons_self
    have hcr : b ≠ 0x0d := by
      rintro rfl
      exact absurd hb (by decide)
    have hext : b ≠ 0x3b := by
      rintro rfl
      exact absurd hb (by decide)
    have hstep : step (.blank value) b = .next (.blank value) := by
      rw [step, tailStep, if_neg hcr, if_neg hext, if_pos hb]
    rw [List.cons_append, scan_next hstep, ih fun b' hb' => h b' (List.mem_cons_of_mem b hb')]

theorem scan_extension (extension : Bytes) (value : Nat) (rest : Bytes)
    (h : ∀ b ∈ extension, b ≠ 0x0d) :
    Wire.scan step (.extension value) (extension ++ rest) =
      Wire.scan step (.extension value) rest := by
  induction extension with
  | nil => rfl
  | cons b extension ih =>
    have hstep : step (.extension value) b = .next (.extension value) := by
      rw [step, if_neg (h b List.mem_cons_self)]
    rw [List.cons_append, scan_next hstep, ih fun b' hb' => h b' (List.mem_cons_of_mem b hb')]

theorem digit_of_isBlank {b : UInt8} (h : isBlank b = true) : digit? b = none := by
  have hb : b = 0x20 ∨ b = 0x09 := by simpa [isBlank] using h
  rcases hb with rfl | rfl <;> rfl

theorem tail_first (t : LineTail) (rest : Bytes) :
    ∃ b bs, t.bytes ++ rest = b :: bs ∧ digit? b = none := by
  unfold LineTail.bytes
  cases hb : t.blanks with
  | nil =>
    cases t.extension with
    | none => exact ⟨_, _, rfl, rfl⟩
    | some extension => exact ⟨_, _, rfl, rfl⟩
  | cons b blanks =>
    have hmem : b ∈ t.blanks := by
      rw [hb]
      exact List.mem_cons_self
    exact ⟨b, _, rfl, digit_of_isBlank (t.blanks_bytes b hmem)⟩

theorem scan_lineTail (t : LineTail) (v : Nat) (rest : Bytes) :
    Wire.scan step (.blank v) (t.bytes ++ rest) = .done v rest := by
  have hbytes := t.extension_bytes
  rw [LineTail.bytes, List.append_assoc, scan_blanks _ _ _ t.blanks_bytes]
  cases he : t.extension with
  | none => rfl
  | some extension =>
    rw [he, Option.getD_some] at hbytes
    have hstep : step (.blank v) 0x3b = .next (.extension v) := rfl
    rw [LineTail.ending, List.cons_append, scan_next hstep, List.append_assoc,
      scan_extension _ _ _ hbytes]
    rfl

theorem scan_bytes (t : SizeForm) (rest : Bytes) :
    SizeLine.scan (t.bytes ++ rest) = .done t.value rest := by
  obtain ⟨b, bs, htail, hb⟩ := tail_first t.tail rest
  have hle : 0 + t.digits.length ≤ maxDigits := by
    rw [Nat.zero_add]
    exact t.digits_le
  rw [SizeLine.scan, SizeForm.bytes, List.append_assoc, scan_digits _ 0 0 _ hle t.digits_hex,
    htail, scan_tail hb, ← htail, scan_lineTail]
  rfl

theorem scan_size (t : SizeText) (rest : Bytes) :
    SizeLine.scan (t.bytes ++ rest) = .done t.value rest := by
  rw [← t.form_bytes, scan_bytes]
  rfl

theorem digit_lt {d : Nat} (h : digit? b = some d) : d < 16 := by
  simp only [digit?, UInt8.le_iff_toNat_le] at h
  split at h
  · rename_i hb
    have hhigh : b.toNat ≤ 0x39 := hb.2
    have hd := Option.some.inj h
    omega
  · split at h
    · rename_i hb
      have hhigh : b.toNat ≤ 0x66 := hb.2
      have hd := Option.some.inj h
      omega
    · split at h
      · rename_i hb
        have hhigh : b.toNat ≤ 0x46 := hb.2
        have hd := Option.some.inj h
        omega
      · cases h

theorem number_lt {digits : Bytes} (hv : v < 16 ^ k)
    (h : ∀ b ∈ digits, (digit? b).isSome = true) :
    SizeText.number v digits < 16 ^ (k + digits.length) := by
  induction digits generalizing v k with
  | nil => exact hv
  | cons b digits ih =>
    obtain ⟨hb, hdigits⟩ := List.forall_mem_cons.mp h
    obtain ⟨d, hd⟩ := Option.isSome_iff_exists.mp hb
    have hlt := digit_lt hd
    have hnext : 16 * v + d < 16 ^ (k + 1) := by
      rw [Nat.pow_succ]
      omega
    rw [SizeText.number, hd, Option.getD_some, List.length_cons, Nat.add_comm digits.length,
      ← Nat.add_assoc]
    exact ih hnext hdigits

theorem lineReturn_sound (h : Wire.scan step (.lineReturn v) bs = .done n rest) :
    n = v ∧ bs = 0x0a :: rest := by
  cases bs with
  | nil => cases h
  | cons b bs =>
    by_cases hb : b = 0x0a
    · rw [scan_accept (by rw [step, if_pos hb]), Scan.done.injEq] at h
      exact ⟨h.1.symm, by rw [hb, h.2]⟩
    · rw [scan_refuse (by rw [step, if_neg hb])] at h
      cases h

theorem extension_sound (h : Wire.scan step (.extension v) bs = .done n rest) :
    n = v ∧ ∃ extension, (∀ b ∈ extension, b ≠ 0x0d) ∧ bs = extension ++ (crlf ++ rest) := by
  induction bs with
  | nil => cases h
  | cons b bs ih =>
    rw [scan_next rfl] at h
    by_cases hb : b = 0x0d
    · rw [if_pos hb] at h
      obtain ⟨hn, rfl⟩ := lineReturn_sound h
      exact ⟨hn, [], by simp, by rw [hb]; rfl⟩
    · rw [if_neg hb] at h
      obtain ⟨hn, extension, hext, rfl⟩ := ih h
      exact ⟨hn, b :: extension, List.forall_mem_cons.mpr ⟨hb, hext⟩, rfl⟩

theorem tail_sound (h : Wire.scan step (.blank v) bs = .done n rest) :
    n = v ∧ ∃ t : LineTail, bs = t.bytes ++ rest := by
  induction bs with
  | nil => cases h
  | cons b bs ih =>
    have hstep : step (.blank v) b = tailStep v b := rfl
    by_cases hret : b = 0x0d
    · rw [tailStep, if_pos hret] at hstep
      rw [scan_next hstep] at h
      obtain ⟨hn, rfl⟩ := lineReturn_sound h
      exact ⟨hn, ⟨[], none, by simp, by simp⟩, by rw [hret]; rfl⟩
    rw [tailStep, if_neg hret] at hstep
    by_cases hext : b = 0x3b
    · rw [if_pos hext] at hstep
      rw [scan_next hstep] at h
      obtain ⟨hn, extension, he, rfl⟩ := extension_sound h
      refine ⟨hn, ⟨[], some extension, by simp, he⟩, ?_⟩
      simp [LineTail.bytes, LineTail.ending, hext]
    rw [if_neg hext] at hstep
    by_cases hblank : isBlank b = true
    · rw [if_pos hblank] at hstep
      rw [scan_next hstep] at h
      obtain ⟨hn, t, rfl⟩ := ih h
      exact ⟨hn, t.cons b hblank, rfl⟩
    · rw [if_neg hblank] at hstep
      rw [scan_refuse hstep] at h
      cases h

theorem size_sound (hk : k ≤ maxDigits) (h : Wire.scan step (.size k v) bs = .done n rest) :
    ∃ digits, ∃ t : LineTail, k + digits.length ≤ maxDigits ∧
      (∀ b ∈ digits, (digit? b).isSome = true) ∧ n = SizeText.number v digits ∧
      bs = digits ++ (t.bytes ++ rest) := by
  induction bs generalizing k v with
  | nil => cases h
  | cons b bs ih =>
    cases hd : digit? b with
    | none =>
      rw [scan_tail hd] at h
      obtain ⟨hn, t, ht⟩ := tail_sound h
      exact ⟨[], t, hk, by simp, hn, ht⟩
    | some d =>
      by_cases hlt : k < maxDigits
      · have hstep : step (.size k v) b = .next (.size (k + 1) (16 * v + d)) := by
          simp only [step, hd]
          exact if_pos hlt
        rw [scan_next hstep] at h
        obtain ⟨digits, t, hlen, hhex, hn, rfl⟩ := ih hlt h
        refine ⟨b :: digits, t, ?_, ?_, ?_, rfl⟩
        · rw [List.length_cons]
          omega
        · exact List.forall_mem_cons.mpr ⟨Option.isSome_of_eq_some hd, hhex⟩
        · rw [hn, SizeText.number, hd, Option.getD_some]
      · have hstep : step (.size k v) b = .refuse () := by
          simp only [step, hd]
          exact if_neg hlt
        rw [scan_refuse hstep] at h
        cases h

theorem scan_sound (h : SizeLine.scan bs = .done n rest) :
    ∃ t : SizeForm, t.value = n ∧ bs = t.bytes ++ rest := by
  obtain ⟨digits, tail, hlen, hhex, rfl, rfl⟩ := size_sound (Nat.zero_le _) h
  rw [Nat.zero_add] at hlen
  exact ⟨⟨digits, tail, hlen, hhex⟩, rfl, (List.append_assoc _ _ _).symm⟩

def closing : Stage → Bytes
  | .lineReturn _ => [0x0a]
  | _ => crlf

theorem scan_closing (s : Stage) : ∃ v, Wire.scan step s (closing s) = .done v [] := by
  cases s with
  | size digits value => exact ⟨value, rfl⟩
  | blank value => exact ⟨value, rfl⟩
  | extension value => exact ⟨value, rfl⟩
  | lineReturn value => exact ⟨value, rfl⟩

theorem scan_more_iff :
    (∃ s, SizeLine.scan bs = .more s) ↔
      ∃ missing, missing ≠ [] ∧ ∃ t : SizeForm, t.bytes = bs ++ missing := by
  constructor
  · rintro ⟨s, hs⟩
    obtain ⟨v, hv⟩ := scan_closing s
    have hwhole : SizeLine.scan (bs ++ closing s) = .done v [] := by
      rw [SizeLine.scan, Wire.scan_append]
      rw [SizeLine.scan] at hs
      rw [hs]
      exact hv
    obtain ⟨t, -, ht⟩ := scan_sound hwhole
    rw [List.append_nil] at ht
    refine ⟨closing s, ?_, t, ht.symm⟩
    cases s <;> exact List.cons_ne_nil _ _
  · rintro ⟨missing, hmissing, t, ht⟩
    have hwhole := scan_bytes t []
    rw [List.append_nil, ht] at hwhole
    exact Wire.scan_more_of_cut hwhole hmissing

end SizeLine

namespace SizeForm

theorem value_lt (t : SizeForm) : t.value < 2 ^ 64 := by
  have hlt : t.value < 16 ^ (0 + t.digits.length) :=
    SizeLine.number_lt (by decide) t.digits_hex
  have hpow : 16 ^ (0 + t.digits.length) ≤ 16 ^ SizeLine.maxDigits := by
    apply Nat.pow_le_pow_right (by decide)
    rw [Nat.zero_add]
    exact t.digits_le
  exact Nat.lt_of_lt_of_le hlt hpow

theorem digits_ne_nil {t : SizeForm} (h : t.value ≠ 0) : t.digits ≠ [] := by
  intro hnil
  apply h
  rw [value, hnil]
  rfl

end SizeForm

end HttpRelay
