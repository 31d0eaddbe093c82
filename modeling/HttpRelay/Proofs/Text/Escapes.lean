import HttpRelay.Proofs.Text.Unfinished
import HttpRelay.Text.Percent

namespace HttpRelay

namespace Percent

variable {b : UInt8} {bs cs : Bytes}

theorem decode_cons (h : b ≠ 0x25) (bs : Bytes) : decode (b :: bs) = b :: decode bs := by
  rw [decode]
  intro _ _ _ hpercent
  exact absurd hpercent h

theorem decode_of_not_mem (h : 0x25 ∉ bs) (cs : Bytes) : decode (bs ++ cs) = bs ++ decode cs := by
  induction bs with
  | nil => rfl
  | cons b bs ih =>
    rw [List.cons_append, decode_cons (List.ne_of_not_mem_cons h).symm,
      ih (List.not_mem_of_not_mem_cons h), List.cons_append]

theorem decode_unescaped {high low : UInt8} (h : hexValue? high = none ∨ hexValue? low = none)
    (rest : Bytes) :
    decode (0x25 :: high :: low :: rest) = 0x25 :: decode (high :: low :: rest) := by
  rw [decode]
  split
  · rename_i hhigh hlow
    rcases h with h | h
    · rw [h] at hhigh
      cases hhigh
    · rw [h] at hlow
      cases hlow
  · rfl

theorem decode_append (h : hexValue? b = none) (bs cs : Bytes) :
    decode (bs ++ b :: cs) = decode bs ++ decode (b :: cs) := by
  fun_induction decode bs with
  | case1 high low rest d e hd he ih =>
    rw [List.cons_append, List.cons_append, List.cons_append, decode, hd, he]
    dsimp only
    rw [ih, List.cons_append]
  | case2 high low rest hnone ih =>
    have hdigits : hexValue? high = none ∨ hexValue? low = none := by
      rcases hhigh : hexValue? high with - | d
      · exact .inl rfl
      · rcases hlow : hexValue? low with - | e
        · exact .inr rfl
        · exact (hnone d e hhigh hlow).elim
    exact (decode_unescaped hdigits _).trans (congrArg (0x25 :: ·) ih)
  | case3 b' rest hshort ih =>
    have hstays : decode (b' :: (rest ++ b :: cs)) = b' :: decode (rest ++ b :: cs) := by
      by_cases hpercent : b' = 0x25
      · subst hpercent
        match rest, cs with
        | [], [] => rfl
        | [], _ :: _ => exact decode_unescaped (.inl h) _
        | [_], _ => exact decode_unescaped (.inr h) _
        | high :: low :: rest, _ => exact (hshort high low rest rfl rfl).elim
      · exact decode_cons hpercent _
    rw [List.cons_append, hstays, ih, List.cons_append]
  | case4 => rfl

end Percent

namespace Utf8

variable {b c : UInt8} {read : Bytes} {s : Carry} {text t : String} {index : Nat}

theorem strictFrom_ascii (text : String) (index : Nat) {bs : Bytes} (h : ∀ b ∈ bs, b.toNat < 0x80) :
    strictFrom text index none bs = .ok (pushAll text (bs.map fun b => Char.ofNat b.toNat)) := by
  induction bs generalizing text index with
  | nil => rfl
  | cons b bs ih =>
    rw [List.forall_mem_cons] at h
    rw [strictFrom, lead_one h.1]
    exact ih _ _ h.2

def AboveAscii (s : Carry) : Prop := ∀ p, s = some p → 0x80 ≤ p.low.toNat

theorem aboveAscii_none : AboveAscii none := nofun

theorem aboveAscii_of_lead {p : Pending} (h : lead b = .opens p) : AboveAscii (some p) := by
  intro q hq
  obtain rfl := Option.some.inj hq
  exact (lead_opens_bounded h).2.low

theorem aboveAscii_extend (p : Pending) (b : UInt8) : AboveAscii (some (p.extend b)) := by
  intro q hq
  obtain rfl := Option.some.inj hq
  exact Nat.le_refl 0x80

theorem AboveAscii.refuses {p : Pending} (h : AboveAscii (some p)) (hb : b.toNat < 0x80) :
    ¬ p.accepts b = true := by
  intro ha
  have hlow := h p rfl
  have hle := ((accepts_iff p b).mp ha).1
  omega

theorem strictFrom_mark (hs : AboveAscii s) (hb : b.toNat < 0x80) (text : String) (index : Nat)
    (bs cs : Bytes) : strictFrom text index s (bs ++ b :: cs) =
      (strictFrom text index s (bs ++ [b])).bind fun t =>
        strictFrom t (index + bs.length + 1) none cs := by
  induction bs generalizing s text index with
  | nil =>
    cases s with
    | none =>
      simp only [List.nil_append, strictFrom, lead_one hb]
      rfl
    | some p =>
      simp only [List.nil_append, strictFrom, if_neg (hs.refuses hb)]
      rfl
  | cons b' bs ih =>
    have hindex : index + (b' :: bs).length + 1 = index + 1 + bs.length + 1 := by
      rw [List.length_cons]
      omega
    rw [hindex, List.cons_append, List.cons_append, strictFrom.eq_def, strictFrom.eq_def]
    cases s with
    | none =>
      dsimp only
      cases hl : lead b' with
      | char c => exact ih aboveAscii_none _ _
      | opens p => exact ih (aboveAscii_of_lead hl) _ _
      | invalid => rfl
    | some p =>
      dsimp only
      split
      · split
        · exact ih aboveAscii_none _ _
        · exact ih (aboveAscii_extend p b') _ _
      · rfl

theorem strictFrom_last (hs : AboveAscii s) (hb : b.toNat < 0x80) {text t : String} {index : Nat}
    {bs : Bytes} (h : strictFrom text index s (bs ++ [b]) = .ok t) :
    ∃ front : String, t = front.push (Char.ofNat b.toNat) := by
  induction bs generalizing s text index with
  | nil =>
    cases s with
    | none =>
      simp only [List.nil_append, strictFrom, lead_one hb] at h
      exact ⟨text, (Except.ok.inj h).symm⟩
    | some p =>
      simp only [List.nil_append, strictFrom, if_neg (hs.refuses hb)] at h
      cases h
  | cons b' bs ih =>
    rw [List.cons_append, strictFrom.eq_def] at h
    cases s with
    | none =>
      dsimp only at h
      cases hl : lead b' with
      | char c =>
        rw [hl] at h
        exact ih aboveAscii_none h
      | opens p =>
        rw [hl] at h
        exact ih (aboveAscii_of_lead hl) h
      | invalid =>
        rw [hl] at h
        cases h
    | some p =>
      dsimp only at h
      split at h
      · split at h
        · exact ih aboveAscii_none h
        · exact ih (aboveAscii_extend p b') h
      · cases h

theorem strictFrom_extends {text t : String} {index : Nat} {bs : Bytes}
    (h : strictFrom text index s bs = .ok t) : text.toList <+: t.toList := by
  induction bs generalizing s text index with
  | nil =>
    cases s with
    | none =>
      obtain rfl := Except.ok.inj h
      exact List.prefix_refl _
    | some p => cases h
  | cons b bs ih =>
    have hpush (c : Char) : text.toList <+: (text.push c).toList := by
      rw [String.toList_push]
      exact List.prefix_append _ _
    rw [strictFrom.eq_def] at h
    cases s with
    | none =>
      dsimp only at h
      split at h
      · exact (hpush _).trans (ih h)
      · exact ih h
      · cases h
    | some p =>
      dsimp only at h
      split at h
      · split at h
        · exact (hpush _).trans (ih h)
        · exact ih h
      · cases h

theorem strict_append_ascii (hb : b.toNat < 0x80) (bs : Bytes) {cs : Bytes}
    (hcs : ∀ c ∈ cs, c.toNat < 0x80) : strict (bs ++ b :: cs) =
      (strict (bs ++ [b])).map fun t => pushAll t (cs.map fun c => Char.ofNat c.toNat) := by
  rw [strict, strictFrom_mark aboveAscii_none hb, strict]
  cases strictFrom "" 0 none (bs ++ [b]) with
  | error fault => rfl
  | ok t => exact strictFrom_ascii t _ hcs

theorem strict_marks (hb : b.toNat < 0x80) (hc : c.toNat < 0x80) {bs cs : Bytes} {t : String}
    (h : strict (bs ++ b :: c :: cs) = .ok t) : ∃ front back : List Char,
      t.toList = front ++ Char.ofNat b.toNat :: Char.ofNat c.toNat :: back := by
  rw [strict, strictFrom_mark aboveAscii_none hb] at h
  cases hstart : strictFrom "" 0 none (bs ++ [b]) with
  | error fault =>
    rw [hstart] at h
    cases h
  | ok start =>
    rw [hstart] at h
    change strictFrom start _ none (c :: cs) = .ok t at h
    rw [strictFrom, lead_one hc] at h
    obtain ⟨front, rfl⟩ := strictFrom_last aboveAscii_none hb hstart
    obtain ⟨back, hback⟩ := strictFrom_extends h
    refine ⟨front.toList, back, ?_⟩
    rw [← hback, String.toList_push, String.toList_push, List.append_assoc, List.append_assoc]
    rfl

end Utf8

end HttpRelay
