import HttpRelay.Wire.Scan

namespace HttpRelay.Wire

variable {σ α ε : Type} {step : σ → UInt8 → Verdict σ α ε} {s : σ} {bs : Bytes}

theorem scan_next {t : σ} {b : UInt8} (h : step s b = .next t) (bs : Bytes) :
    scan step s (b :: bs) = scan step t bs := by
  rw [scan, h]

theorem scan_accept {a : α} {b : UInt8} (h : step s b = .accept a) (bs : Bytes) :
    scan step s (b :: bs) = .done a bs := by
  rw [scan, h]

theorem scan_refuse {e : ε} {b : UInt8} (h : step s b = .refuse e) (bs : Bytes) :
    scan step s (b :: bs) = .bad e := by
  rw [scan, h]

def Scan.resume (step : σ → UInt8 → Verdict σ α ε) : Scan σ α ε → Bytes → Scan σ α ε
  | .done a rest, bs => .done a (rest ++ bs)
  | .more s, bs => scan step s bs
  | .bad e, _ => .bad e

theorem scan_append (step : σ → UInt8 → Verdict σ α ε) (s : σ) (bs cs : Bytes) :
    scan step s (bs ++ cs) = (scan step s bs).resume step cs := by
  induction bs generalizing s with
  | nil => rfl
  | cons b bs ih =>
    simp only [List.cons_append, scan]
    cases step s b with
    | next t => exact ih t
    | accept a => rfl
    | refuse e => rfl

theorem scan_append_of_done {a : α} {rest : Bytes} (h : scan step s bs = .done a rest)
    (cs : Bytes) : scan step s (bs ++ cs) = .done a (rest ++ cs) := by
  rw [scan_append, h, Scan.resume]

theorem scan_append_of_bad {e : ε} (h : scan step s bs = .bad e) (cs : Bytes) :
    scan step s (bs ++ cs) = .bad e := by
  rw [scan_append, h, Scan.resume]

theorem scan_more_of_cut {a : α} {ps qs : Bytes} (h : scan step s (ps ++ qs) = .done a [])
    (hq : qs ≠ []) : ∃ t, scan step s ps = .more t := by
  rw [scan_append] at h
  cases hs : scan step s ps with
  | more t => exact ⟨t, rfl⟩
  | bad e => simp [hs, Scan.resume] at h
  | done b rest =>
    rw [hs, Scan.resume, Scan.done.injEq] at h
    exact absurd (List.append_eq_nil_iff.mp h.2).2 hq

theorem cut_cases {buffer more ps qs : Bytes} (h : buffer ++ more = ps ++ qs) :
    (∃ ts, ts ≠ [] ∧ ps = buffer ++ ts ∧ more = ts ++ qs) ∨
      ∃ ts, buffer = ps ++ ts ∧ qs = ts ++ more := by
  rcases List.append_eq_append_iff.mp h with ⟨ts, hps, hmore⟩ | hin
  · by_cases hts : ts = []
    · subst hts
      exact .inr ⟨[], by simpa using hps.symm, by simpa using hmore.symm⟩
    · exact .inl ⟨ts, hts, hps, hmore⟩
  · exact .inr hin

end HttpRelay.Wire
