import HttpRelay.Text.Blank
import HttpRelay.Text.Numeral

namespace HttpRelay.Text

variable {cs : List Char} {c : Char} {m n v bound : Nat}

structure Decimal (cs : List Char) (n : Nat) : Prop where
  ne_nil : cs ≠ []
  digits : ∀ c ∈ cs, c.isDigit = true
  value : Nat.ofDigitChars 10 cs 0 = n

def Numeral (cs : List Char) (n : Nat) : Prop :=
  Decimal cs n ∨ ∃ digits, cs = '+' :: digits ∧ Decimal digits n

theorem isDigit_iff : c.isDigit = true ↔ '0' ≤ c ∧ c ≤ '9' := by
  rw [Char.isDigit, Bool.and_eq_true, decide_eq_true_iff, decide_eq_true_iff]
  exact Iff.rfl

theorem visible_of_isDigit (h : c.isDigit = true) : isVisible c = true := by
  obtain ⟨hl, hu⟩ := isDigit_iff.mp h
  have hlow : 48 ≤ c.val.toNat := hl
  have hhigh : c.val.toNat ≤ 57 := hu
  simp only [isVisible, isControl, isBlank, Bool.not_eq_true',
    Bool.or_eq_false_iff, Bool.and_eq_false_iff, decide_eq_false_iff_not, beq_eq_false_iff_ne,
    UInt32.lt_iff_toNat_lt, UInt32.le_iff_toNat_le, ne_eq, ← UInt32.toNat_inj]
  simp only [UInt32.reduceToNat]
  omega

theorem digitValue?_of_digit (h : c.isDigit = true) :
    digitValue? c = some (c.toNat - '0'.toNat) := if_pos (isDigit_iff.mp h)

theorem digitValue?_of_other (h : ¬ c.isDigit = true) : digitValue? c = none :=
  if_neg fun hc => h (isDigit_iff.mpr hc)

theorem digitsFrom_eq_some_iff : digitsFrom v cs = some n ↔
    (∀ c ∈ cs, c.isDigit = true) ∧ Nat.ofDigitChars 10 cs v = n := by
  induction cs generalizing v with
  | nil =>
    rw [digitsFrom, Option.some.injEq, Nat.ofDigitChars_nil, and_iff_right]
    exact fun _ h => absurd h List.not_mem_nil
  | cons c cs ih =>
    rw [digitsFrom, List.forall_mem_cons]
    by_cases hc : c.isDigit = true
    · rw [digitValue?_of_digit hc, Option.bind_some, ih, Nat.ofDigitChars_cons, and_iff_right hc]
    · rw [digitValue?_of_other hc, Option.bind_none]
      exact iff_of_false nofun fun h => hc h.1.1

theorem decimal_iff : Decimal cs n ↔ cs ≠ [] ∧ digitsFrom 0 cs = some n := by
  rw [digitsFrom_eq_some_iff]
  exact ⟨fun h => ⟨h.ne_nil, h.digits, h.value⟩, fun h => ⟨h.1, h.2.1, h.2.2⟩⟩

theorem not_decimal_plus (cs : List Char) (n : Nat) : ¬ Decimal ('+' :: cs) n :=
  fun h => absurd (h.digits '+' List.mem_cons_self) (by decide)

theorem decimal_dropPlus_iff : Decimal (dropPlus cs) n ↔ Numeral cs n := by
  by_cases hsign : ∃ digits, cs = '+' :: digits
  · obtain ⟨digits, rfl⟩ := hsign
    constructor
    · exact fun h => .inr ⟨digits, rfl, h⟩
    · rintro (h | ⟨ds, hds, h⟩)
      · exact absurd h (not_decimal_plus digits n)
      · exact (List.cons.inj hds).2 ▸ h
  · have hdrop : dropPlus cs = cs := by
      unfold dropPlus
      split
      · exact absurd ⟨_, rfl⟩ hsign
      · rfl
    rw [hdrop]
    exact ⟨.inl, fun h => h.resolve_right fun ⟨ds, hds, _⟩ => hsign ⟨ds, hds⟩⟩

theorem Numeral.unique (hm : Numeral cs m) (hn : Numeral cs n) : m = n := by
  rw [← decimal_dropPlus_iff] at hm hn
  exact hm.value.symm.trans hn.value

theorem not_mem_toDigits (h : c.isDigit = false) (n : Nat) : c ∉ Nat.toDigits 10 n := by
  intro hc
  rw [Nat.isDigit_of_mem_toDigits (by decide) (by decide) hc] at h
  cases h

theorem toList_toString (n : Nat) : (toString n).toList = Nat.toDigits 10 n := by
  rw [Nat.toString_eq_ofList_toDigits, String.toList_ofList]

theorem decimal_toDigits (n : Nat) : Decimal (Nat.toDigits 10 n) n where
  ne_nil := Nat.toDigits_ne_nil
  digits _ hc := Nat.isDigit_of_mem_toDigits (by decide) (by decide) hc
  value := Nat.ofDigitChars_toDigits (by decide) (by decide)

theorem unsigned?_eq_some_iff : unsigned? bound cs = some n ↔ Numeral cs n ∧ n < bound := by
  rw [← decimal_dropPlus_iff, decimal_iff, unsigned?]
  split
  · rename_i hnil
    exact iff_of_false nofun fun h => h.1.1 hnil
  · rename_i hne
    rw [Option.filter_eq_some_iff, decide_eq_true_iff, and_iff_right hne]

end HttpRelay.Text
