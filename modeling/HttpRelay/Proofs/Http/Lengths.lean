import Mathlib.Algebra.Group.Nat.Defs
import HttpRelay.Http.Head
import HttpRelay.Proofs.Text.Numerals

namespace HttpRelay

namespace Fields

variable {fs : Fields} {name : String}

theorem forall_mem_values {p : String → Prop} : (∀ v ∈ fs.values name, p v) ↔
    ∀ f ∈ fs, Text.sameName f.1 name = true → p f.2 := by
  simp only [values, List.forall_mem_map, List.mem_filter, and_imp]

theorem values_eq_nil_iff : fs.values name = [] ↔ ∀ f ∈ fs, Text.sameName f.1 name = false := by
  simp only [values, List.map_eq_nil_iff, List.filter_eq_nil_iff, Bool.not_eq_true]

theorem values_ne_nil_iff : fs.values name ≠ [] ↔ ∃ f ∈ fs, Text.sameName f.1 name = true := by
  simp only [values, ne_eq, List.map_eq_nil_iff, List.filter_eq_nil_iff, Classical.not_forall,
    Classical.not_not, exists_prop]

end Fields

namespace Head

variable {h : Head} {found o : Option Nat} {vs : List String} {v : String} {n m : Nat}
  {e : Failure}

def Gives (v : String) (n : Nat) : Prop :=
  Text.Numeral (Text.trimChars v.toList) n ∧ n < 2 ^ 64

theorem gives_iff :
    Text.unsigned? UInt64.size (Text.trimChars v.toList) = some n ↔ Gives v n :=
  Text.unsigned?_eq_some_iff

theorem Gives.unique (hm : Gives v m) (hn : Gives v n) : m = n :=
  Option.some.inj ((gives_iff.mpr hm).symm.trans (gives_iff.mpr hn))

theorem lengthFrom_of_gives (h : Gives v n) (hfound : ∀ m ∈ found, m = n) :
    lengthFrom found (v :: vs) = lengthFrom (some n) vs := by
  rw [lengthFrom, gives_iff.mpr h]
  cases found with
  | none => rfl
  | some m => exact if_pos (hfound m rfl)

theorem lengthFrom_of_conflict (h : Gives v n) (hm : m ≠ n) : lengthFrom (some m) (v :: vs) =
    .error (.malformedResponse "conflicting Content-Length headers") := by
  rw [lengthFrom, gives_iff.mpr h]
  exact if_neg hm

theorem lengthFrom_of_other (h : ∀ n, ¬ Gives v n) : lengthFrom found (v :: vs) =
    .error (.malformedResponse s!"invalid Content-Length '{v}'") := by
  have hnone : Text.unsigned? UInt64.size (Text.trimChars v.toList) = none := by
    apply Option.eq_none_iff_forall_not_mem.mpr
    exact fun n hn => h n (gives_iff.mp hn)
  rw [lengthFrom, hnone]

theorem lengthFrom_cases (found : Option Nat) (v : String) (vs : List String) :
    (∃ n, Gives v n ∧ (∀ m ∈ found, m = n) ∧
        lengthFrom found (v :: vs) = lengthFrom (some n) vs) ∨
      (¬ ∃ n, Gives v n ∧ ∀ m ∈ found, m = n) ∧
        ∃ reason, lengthFrom found (v :: vs) = .error (.malformedResponse reason) := by
  by_cases hgoes : ∃ n, Gives v n ∧ ∀ m ∈ found, m = n
  · obtain ⟨n, hn, hfound⟩ := hgoes
    exact .inl ⟨n, hn, hfound, lengthFrom_of_gives hn hfound⟩
  · refine .inr ⟨hgoes, ?_⟩
    by_cases hgives : ∃ n, Gives v n
    · obtain ⟨n, hn⟩ := hgives
      cases found with
      | none => exact absurd ⟨n, hn, nofun⟩ hgoes
      | some m =>
        have hm : m ≠ n := fun hm => hgoes ⟨n, hn, fun k hk => Option.some.inj hk ▸ hm⟩
        exact ⟨_, lengthFrom_of_conflict hn hm⟩
    · exact ⟨_, lengthFrom_of_other fun n hn => hgives ⟨n, hn⟩⟩

theorem lengthFrom_ok_iff : lengthFrom found vs = .ok o ↔ vs = [] ∧ o = found ∨
    vs ≠ [] ∧ ∃ n, o = some n ∧ (∀ m ∈ found, m = n) ∧ ∀ v ∈ vs, Gives v n := by
  induction vs generalizing found with
  | nil =>
    rw [lengthFrom, Except.ok.injEq]
    simp [eq_comm]
  | cons v vs ih =>
    simp only [List.cons_ne_nil, false_and, false_or, ne_eq, not_false_eq_true, true_and,
      List.forall_mem_cons]
    rcases lengthFrom_cases found v vs with ⟨k, hk, hfound, hnext⟩ | ⟨hnot, reason, herror⟩
    · rw [hnext, ih]
      constructor
      · rintro (⟨rfl, rfl⟩ | ⟨-, n, rfl, hn, hvs⟩)
        · exact ⟨k, rfl, hfound, hk, nofun⟩
        · obtain rfl : k = n := hn k rfl
          exact ⟨k, rfl, hfound, hk, hvs⟩
      · rintro ⟨n, rfl, -, hn, hvs⟩
        obtain rfl := hk.unique hn
        cases vs with
        | nil => exact .inl ⟨rfl, rfl⟩
        | cons u vs =>
          exact .inr ⟨List.cons_ne_nil u vs, k, rfl, fun m hm => (Option.some.inj hm).symm, hvs⟩
    · rw [herror]
      exact iff_of_false nofun fun ⟨n, _, hfound, hn, _⟩ => hnot ⟨n, hn, hfound⟩

theorem lengthFrom_error (h : lengthFrom found vs = .error e) :
    ∃ reason, e = .malformedResponse reason := by
  induction vs generalizing found with
  | nil => cases h
  | cons v vs ih =>
    rcases lengthFrom_cases found v vs with ⟨k, -, -, hnext⟩ | ⟨-, reason, herror⟩
    · exact ih (hnext.symm.trans h)
    · exact ⟨reason, (Except.error.inj (herror.symm.trans h)).symm⟩

structure Declares (h : Head) (n : Nat) : Prop where
  present : ∃ f ∈ h.headers, Text.sameName f.1 "Content-Length" = true
  agreed : ∀ f ∈ h.headers, Text.sameName f.1 "Content-Length" = true →
    Text.Numeral (Text.trimChars f.2.toList) n
  bounded : n < 2 ^ 64

theorem contentLength_eq_none_iff : h.contentLength = .ok none ↔
    ∀ f ∈ h.headers, Text.sameName f.1 "Content-Length" = false := by
  rw [contentLength, lengthFrom_ok_iff, ← Fields.values_eq_nil_iff]
  simp

theorem contentLength_eq_some_iff : h.contentLength = .ok (some n) ↔ h.Declares n := by
  rw [contentLength, lengthFrom_ok_iff]
  constructor
  · rintro (⟨-, hnone⟩ | ⟨hne, k, hk, -, hvalues⟩)
    · cases hnone
    · obtain rfl := Option.some.inj hk
      have hgives := Fields.forall_mem_values.mp hvalues
      obtain ⟨f, hf, hname⟩ := Fields.values_ne_nil_iff.mp hne
      exact ⟨⟨f, hf, hname⟩, fun f hf hname => (hgives f hf hname).1, (hgives f hf hname).2⟩
  · intro hdeclares
    have hvalues : ∀ v ∈ h.headers.values "Content-Length", Gives v n :=
      Fields.forall_mem_values.mpr fun f hf hname =>
        ⟨hdeclares.agreed f hf hname, hdeclares.bounded⟩
    exact .inr ⟨Fields.values_ne_nil_iff.mpr hdeclares.present, n, rfl, nofun, hvalues⟩

/-- The lines on the length are taken for a length exactly where all of them are the same decimal
number below `2 ^ 64`, before which a plus sign may stand; otherwise the response is malformed. -/
theorem contentLength_declared (h : Head) :
    (h.contentLength = .ok none ↔
      ∀ f ∈ h.headers, Text.sameName f.1 "Content-Length" = false) ∧
    (∀ n, h.contentLength = .ok (some n) ↔ h.Declares n) ∧
    ((∃ reason, h.contentLength = .error (.malformedResponse reason)) ↔
      (∃ f ∈ h.headers, Text.sameName f.1 "Content-Length" = true) ∧ ∀ n, ¬ h.Declares n) := by
  refine ⟨contentLength_eq_none_iff, fun n => contentLength_eq_some_iff, ?_⟩
  constructor
  · rintro ⟨reason, herror⟩
    constructor
    · apply Fields.values_ne_nil_iff.mp
      intro hnil
      rw [contentLength, hnil] at herror
      cases herror
    · intro n hn
      rw [contentLength_eq_some_iff.mpr hn] at herror
      cases herror
  · rintro ⟨⟨f, hf, hname⟩, hnot⟩
    cases hlength : h.contentLength with
    | error e =>
      obtain ⟨reason, rfl⟩ := lengthFrom_error hlength
      exact ⟨reason, rfl⟩
    | ok o =>
      cases o with
      | none =>
        rw [contentLength_eq_none_iff.mp hlength f hf] at hname
        cases hname
      | some n => exact absurd (contentLength_eq_some_iff.mp hlength) (hnot n)

theorem contentLength_reads_sign :
    (new 200 "OK" [("Content-Length", "+5")]).contentLength = .ok (some 5) ∧
      ∀ n, ¬ Text.Decimal (Text.trimChars "+5".toList) n := by
  constructor
  · rfl
  · exact fun n => Text.not_decimal_plus ['5'] n

end Head

end HttpRelay
