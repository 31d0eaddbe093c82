import HttpRelay.Proofs.Text.Characters

namespace HttpRelay.Utf8

variable {b : UInt8} {p q : Pending} {c : Char} {t bs front tail payload : Bytes} {s : Carry}

def Unfinished (t : Bytes) : Prop :=
  t ≠ [] ∧ ∃ c : Char, ∃ rest : Bytes, rest ≠ [] ∧ t ++ rest = String.utf8EncodeChar c

/-- The text that is certain once some payload has come in: the text of the whole, or of all but
an unfinished character at the end. -/
inductive Settled (payload : Bytes) : String → Prop where
  | whole (h : ∀ tail, tail <:+ payload → ¬ Unfinished tail) : Settled payload (lossy payload)
  | cut {front tail : Bytes} (h : front ++ tail = payload) (unfinished : Unfinished tail)
    (short : tail.length ≤ 3) : Settled payload (lossy front)

inductive Opens : Bytes → Pending → Prop where
  | lead {b : UInt8} {p : Pending} (h : lead b = .opens p) : Opens [b] p
  | more {t : Bytes} {p : Pending} {b : UInt8} (ht : Opens t p) (ha : p.accepts b = true)
    (hm : p.missing ≠ 1) : Opens (t ++ [b]) (p.extend b)

theorem Opens.ne_nil (h : Opens t p) : t ≠ [] := by
  cases h with
  | lead => exact List.cons_ne_nil _ _
  | more => simp

structure Pending.Bounded (p : Pending) (t : Bytes) : Prop where
  low : 0x80 ≤ p.low.toNat
  range : p.low.toNat ≤ p.high.toNat
  high : p.high.toNat ≤ 0xbf
  missing : 1 ≤ p.missing
  length : t.length + p.missing ≤ 4

theorem Pending.Bounded.usual (hl : p.low = 0x80) (hh : p.high = 0xbf) (hm : 1 ≤ p.missing)
    (ht : t.length + p.missing ≤ 4) : p.Bounded t := by
  have hlow : p.low.toNat = 0x80 := by rw [hl, toNat_low]
  have hhigh : p.high.toNat = 0xbf := by rw [hh, toNat_high]
  exact ⟨by omega, by omega, by omega, hm, ht⟩

theorem lead_opens_bounded (h : lead b = .opens p) : 0xc2 ≤ b.toNat ∧ p.Bounded [b] := by
  have hform := lead_form b
  rw [h] at hform
  cases hform with
  | two hl hu => exact ⟨hl, .usual rfl rfl (Nat.le_refl 1) (Nat.le_succ_of_le (Nat.le_succ 2))⟩
  | three hl hu hlow hlow' hhigh hhigh' =>
    refine ⟨by omega, ?_, ?_, ?_, Nat.le_succ 1, Nat.le_succ 3⟩ <;> dsimp only <;> omega
  | four hl hu hlow hlow' hhigh hhigh' =>
    refine ⟨by omega, ?_, ?_, ?_, Nat.le_add_left 1 2, Nat.le_refl 4⟩ <;> dsimp only <;> omega

theorem Opens.bounded (h : Opens t p) : p.Bounded t := by
  induction h with
  | lead h => exact (lead_opens_bounded h).2
  | more ht ha hm ih =>
    have hmissing := ih.missing
    have hlength := ih.length
    apply Pending.Bounded.usual rfl rfl
    · rw [Pending.extend]
      dsimp only
      omega
    · rw [List.length_append, List.length_singleton, Pending.extend]
      dsimp only
      omega

theorem Pending.Bounded.completes (h : p.Bounded t) :
    ∃ bs c, bs ≠ [] ∧ Path (some p) bs c := by
  obtain ⟨n, hn⟩ : ∃ n, p.missing = n + 1 := ⟨p.missing - 1, by have := h.missing; omega⟩
  induction n generalizing p t with
  | zero =>
    have ha : p.accepts p.low = true := (accepts_iff p p.low).mpr ⟨Nat.le_refl _, h.range⟩
    exact ⟨[p.low], _, List.cons_ne_nil _ _, .last ha hn⟩
  | succ n ih =>
    have ha : p.accepts p.low = true := (accepts_iff p p.low).mpr ⟨Nat.le_refl _, h.range⟩
    have hnext : (p.extend p.low).missing = n + 1 := by
      rw [Pending.extend]
      dsimp only
      omega
    have hbounded : (p.extend p.low).Bounded [] := by
      have hlength := h.length
      apply Pending.Bounded.usual rfl rfl (by omega)
      rw [List.length_nil, hnext]
      omega
    obtain ⟨bs, c, -, hpath⟩ := ih hbounded hnext
    exact ⟨p.low :: bs, c, List.cons_ne_nil _ _, .more ha (by omega) hpath⟩

theorem Opens.path (h : Opens t p) (hp : Path (some p) bs c) : Path none (t ++ bs) c := by
  induction h generalizing bs with
  | lead h => exact .opens h hp
  | more ht ha hm ih =>
    rw [List.append_assoc]
    exact ih (.more ha hm hp)

theorem Opens.unfinished (h : Opens t p) : Unfinished t := by
  obtain ⟨bs, c, hbs, hp⟩ := h.bounded.completes
  exact ⟨h.ne_nil, c, bs, hbs, encode_of_path (h.path hp)⟩

theorem Opens.length_le (h : Opens t p) : t.length ≤ 3 := by
  have hmissing := h.bounded.missing
  have hlength := h.bounded.length
  omega

theorem Opens.extend {rest : Bytes} (h : Opens t p) (hp : Path (some p) (bs ++ rest) c)
    (hr : rest ≠ []) : ∃ q, Opens (t ++ bs) q := by
  induction bs generalizing t p with
  | nil => exact ⟨p, by rwa [List.append_nil]⟩
  | cons b bs ih =>
    rw [List.cons_append] at hp
    generalize hall : b :: (bs ++ rest) = all at hp
    cases hp with
    | last =>
      have hnil : bs ++ rest = [] := (List.cons.inj hall).2
      exact absurd (List.append_eq_nil_iff.mp hnil).2 hr
    | more ha hm hp =>
      obtain ⟨rfl, rfl⟩ := List.cons.inj hall
      obtain ⟨q, hq⟩ := ih (h.more ha hm) hp
      exact ⟨q, by rwa [List.append_assoc] at hq⟩

theorem Unfinished.opens (h : Unfinished t) : ∃ p, Opens t p := by
  obtain ⟨hne, c, rest, hr, ht⟩ := h
  have hpath := path_encode c
  rw [← ht] at hpath
  cases t with
  | nil => exact absurd rfl hne
  | cons b bs =>
    rw [List.cons_append] at hpath
    generalize hall : b :: (bs ++ rest) = all at hpath
    cases hpath with
    | one =>
      have hnil : bs ++ rest = [] := (List.cons.inj hall).2
      exact absurd (List.append_eq_nil_iff.mp hnil).2 hr
    | opens hl hp =>
      obtain ⟨rfl, rfl⟩ := List.cons.inj hall
      exact (Opens.lead hl).extend hp hr

def Holds (read : Bytes) (s : Carry) : Prop :=
  ∀ p, s = some p → ∃ front t, front ++ t = read ∧ Opens t p

theorem Holds.start : Holds [] none := by
  intro p hp
  cases hp

theorem begin_holds (read : Bytes) (b : UInt8) : Holds (read ++ [b]) (begin b).2 := by
  intro p hp
  unfold begin at hp
  split at hp
  · cases hp
  · rename_i hlead
    obtain rfl := Option.some.inj hp
    exact ⟨read, [b], rfl, .lead hlead⟩
  · cases hp

theorem Holds.step {read : Bytes} (h : Holds read s) (b : UInt8) :
    Holds (read ++ [b]) (step s b).2 := by
  cases s with
  | none => exact begin_holds read b
  | some p =>
    unfold Utf8.step
    dsimp only
    by_cases ha : p.accepts b = true
    · rw [if_pos ha]
      by_cases hm : p.missing = 1
      · rw [if_pos hm]
        intro q hq
        cases hq
      · rw [if_neg hm]
        intro q hq
        obtain rfl := Option.some.inj hq
        obtain ⟨front, t, rfl, ht⟩ := h p rfl
        exact ⟨front, t ++ [b], (List.append_assoc _ _ _).symm, ht.more ha hm⟩
    · rw [if_neg ha]
      exact begin_holds read b

theorem Holds.run {read : Bytes} (h : Holds read s) (bs : Bytes) :
    Holds (read ++ bs) (run s bs).2 := by
  induction bs generalizing read s with
  | nil => rwa [List.append_nil]
  | cons b bs ih =>
    have := ih (h.step b)
    rwa [List.append_assoc] at this

theorem step_lead {read : Bytes} (hs : Holds read s) (h : lead b = .opens p) :
    step s b = (flush s, some p) := by
  have hbegin : begin b = ([], some p) := by rw [begin, h]
  cases s with
  | none => exact hbegin
  | some q =>
    obtain ⟨-, t, -, ht⟩ := hs q rfl
    -- the bytes that open a character lie above all that go on with one
    have ha : ¬ q.accepts b = true := by
      intro ha
      have hb := (lead_opens_bounded h).1
      have hhigh := ht.bounded.high
      have hle := ((accepts_iff q b).mp ha).2
      omega
    rw [step, if_neg ha, hbegin]
    rfl

theorem Opens.run {read : Bytes} (h : Opens t p) (hs : Holds read s) :
    run s t = (flush s, some p) := by
  induction h with
  | lead h =>
    rw [Utf8.run, Utf8.run, step_lead hs h, List.append_nil]
  | more ht ha hm ih =>
    rw [run_append, ih]
    simp only [Utf8.run, step, ha, hm, if_true, if_false, List.append_nil]

theorem run_unfinished {p : Pending} (h : Opens tail p) (front : Bytes) :
    run none (front ++ tail) = ((lossy front).toList, some p) := by
  rw [run_append, h.run (Holds.start.run front), toList_lossy]

theorem run_finished (h : ∀ tail, tail <:+ payload → ¬ Unfinished tail) :
    (run none payload).2 = none := by
  cases hs : (run none payload).2 with
  | none => rfl
  | some p =>
    obtain ⟨front, t, hread, ht⟩ := Holds.start.run payload p hs
    exact absurd ht.unfinished (h t ⟨front, hread⟩)

theorem Settled.eq_run {text : String} (h : Settled payload text) :
    text.toList = (run none payload).1 := by
  cases h with
  | whole h => rw [toList_lossy, run_finished h, flush, List.append_nil]
  | cut h hu =>
    obtain ⟨p, hp⟩ := hu.opens
    rw [← h, run_unfinished hp]

theorem settled_run (payload : Bytes) :
    Settled payload (String.ofList (run none payload).1) := by
  cases hs : (run none payload).2 with
  | none =>
    have htext : String.ofList (run none payload).1 = lossy payload := by
      rw [← String.toList_inj, String.toList_ofList, toList_lossy, hs, flush, List.append_nil]
    rw [htext]
    apply Settled.whole
    rintro tail ⟨front, rfl⟩ hu
    obtain ⟨p, hp⟩ := hu.opens
    rw [run_unfinished hp] at hs
    cases hs
  | some p =>
    obtain ⟨front, t, rfl, ht⟩ := Holds.start.run payload p hs
    rw [run_unfinished ht, String.ofList_toList]
    exact .cut rfl ht.unfinished ht.length_le

theorem settled_iff {text : String} :
    Settled payload text ↔ text.toList = (run none payload).1 := by
  constructor
  · exact Settled.eq_run
  · intro h
    have := settled_run payload
    rwa [← h, String.ofList_toList] at this

theorem Settled.isPrefix {text : String} (h : Settled payload text) (more : Bytes) :
    text.toList <+: (lossy (payload ++ more)).toList := by
  rw [h.eq_run, toList_lossy, run_append, List.append_assoc]
  exact List.prefix_append _ _

end HttpRelay.Utf8
