import HttpRelay.Proofs.Text.Unfinished

namespace HttpRelay.Utf8

variable {b : UInt8} {p : Pending} {c : Char} {t bs part rest : Bytes} {cs : List Char} {s : Carry}

/-- A maximal faulty part: no character begins where it begins, and it is the start of one for
as long as can be, or a single byte that starts none. -/
structure Faulty (part rest : Bytes) : Prop where
  unconvertible : ∀ c : Char, ¬ String.utf8EncodeChar c <+: part ++ rest
  start : Unfinished part ∨ ∃ b, part = [b]
  maximal : ∀ more, more ≠ [] → more <+: rest → ¬ Unfinished (part ++ more)

inductive Replaced : Bytes → List Char → Prop
  | nil : Replaced [] []
  | char (c : Char) {rest : Bytes} {cs : List Char} (h : Replaced rest cs) :
      Replaced (String.utf8EncodeChar c ++ rest) (c :: cs)
  | faulty {part rest : Bytes} {cs : List Char} (hf : Faulty part rest) (h : Replaced rest cs) :
      Replaced (part ++ rest) (replacement :: cs)

theorem run_path (h : Path s bs c) : run s bs = ([c], none) := by
  induction h with
  | one h =>
    rw [run, run, step, begin, h]
    rfl
  | opens h hp ih =>
    rw [run, step, begin, h]
    dsimp only
    rw [ih]
    rfl
  | last ha hm =>
    rw [run, run, step, if_pos ha, if_pos hm]
    rfl
  | more ha hm hp ih =>
    rw [run, step, if_pos ha, if_neg hm]
    dsimp only
    rw [ih]
    rfl

theorem run_char (c : Char) (rest : Bytes) :
    run none (String.utf8EncodeChar c ++ rest) = (c :: (run none rest).1, (run none rest).2) := by
  rw [run_append, run_path (path_encode c)]
  rfl

theorem Opens.not_encoded (h : Opens t p) (c : Char) (more : Bytes) :
    t ≠ String.utf8EncodeChar c ++ more := by
  intro ht
  have hrun := h.run Holds.start
  rw [ht, run_char] at hrun
  cases (Prod.mk.inj hrun).1

theorem Opens.goes_on (h : Opens t p) (hp : Path none (t ++ bs) c) : Path (some p) bs c := by
  induction h generalizing bs with
  | lead h =>
    generalize hall : [_] ++ bs = all at hp
    cases hp with
    | one hone =>
      obtain ⟨rfl, -⟩ := List.cons.inj hall
      rw [h] at hone
      cases hone
    | opens hopens hp =>
      obtain ⟨rfl, rfl⟩ := List.cons.inj hall
      rw [h] at hopens
      cases hopens
      exact hp
  | more ht ha hm ih =>
    rw [List.append_assoc] at hp
    cases ih hp with
    | last _ hone => exact absurd hone hm
    | more _ _ hp => exact hp

theorem accepts_of_path (h : Path (some p) (b :: bs) c) : p.accepts b = true := by
  cases h with
  | last ha => exact ha
  | more ha => exact ha

theorem Opens.accepts_of_encoded (h : Opens t p)
    (hc : t ++ b :: bs = String.utf8EncodeChar c) : p.accepts b = true := by
  have hp : Path none (t ++ b :: bs) c := by
    rw [hc]
    exact path_encode c
  exact accepts_of_path (h.goes_on hp)

theorem Opens.faulty_of_refused (h : Opens t p) (ha : ¬ p.accepts b = true) (rest : Bytes) :
    Faulty t (b :: rest) where
  unconvertible := by
    rintro c ⟨more, hmore⟩
    rcases List.append_eq_append_iff.mp hmore with ⟨x, ht, -⟩ | ⟨x, hc, hx⟩
    · exact h.not_encoded c x ht
    · cases x with
      | nil => exact h.not_encoded c [] (by simpa using hc.symm)
      | cons y x =>
        obtain ⟨rfl, -⟩ := List.cons.inj hx
        exact ha (h.accepts_of_encoded hc.symm)
  start := .inl h.unfinished
  maximal := by
    rintro more hne ⟨y, hy⟩ ⟨-, c, x, -, hc⟩
    obtain ⟨b', more, rfl⟩ := List.exists_cons_of_ne_nil hne
    obtain ⟨rfl, -⟩ := List.cons.inj hy
    rw [List.append_assoc] at hc
    exact ha (h.accepts_of_encoded hc)

theorem Opens.faulty_at_end (h : Opens t p) : Faulty t [] where
  unconvertible := by
    rintro c ⟨more, hmore⟩
    rw [List.append_nil] at hmore
    exact h.not_encoded c more hmore.symm
  start := .inl h.unfinished
  maximal := fun more hne hmore _ => hne (List.prefix_nil.mp hmore)

theorem lead_of_encoded (h : b :: bs = String.utf8EncodeChar c) : lead b ≠ .invalid := by
  intro hinvalid
  have hpath := path_encode c
  rw [← h] at hpath
  cases hpath with
  | one hone =>
    rw [hinvalid] at hone
    cases hone
  | opens hopens =>
    rw [hinvalid] at hopens
    cases hopens

theorem faulty_of_lead (h : lead b = .invalid) (rest : Bytes) : Faulty [b] rest where
  unconvertible := by
    rintro c ⟨more, hmore⟩
    cases hc : String.utf8EncodeChar c with
    | nil => exact absurd hc (String.utf8EncodeChar_ne_nil)
    | cons b' bs =>
      rw [hc] at hmore
      obtain ⟨rfl, -⟩ := List.cons.inj hmore
      exact lead_of_encoded hc.symm h
  start := .inr ⟨b, rfl⟩
  maximal := fun _ _ _ ⟨_, _, _, _, hc⟩ => lead_of_encoded hc h

theorem Faulty.ne_nil (h : Faulty part rest) : part ≠ [] := by
  rcases h.start with hu | ⟨b, rfl⟩
  · exact hu.1
  · exact List.cons_ne_nil b []

theorem Faulty.form (h : Faulty part rest) :
    (∃ p, Opens part p) ∨ ∃ b, part = [b] ∧ lead b = .invalid := by
  rcases h.start with hu | ⟨b, rfl⟩
  · exact .inl hu.opens
  · cases hb : lead b with
    | char c => exact absurd ⟨rest, by rw [← encode_of_path (.one hb)]⟩ (h.unconvertible c)
    | opens p => exact .inl ⟨p, .lead hb⟩
    | invalid => exact .inr ⟨b, rfl, hb⟩

theorem Faulty.refused (h : Faulty part (b :: rest)) (ho : Opens part p) :
    ¬ p.accepts b = true := by
  intro ha
  by_cases hm : p.missing = 1
  · have hc := encode_of_path (ho.path (.last ha hm))
    apply h.unconvertible (Char.ofNat (p.value b))
    rw [← hc]
    exact ⟨rest, by rw [List.append_assoc]; rfl⟩
  · exact h.maximal [b] (List.cons_ne_nil b []) ⟨rest, rfl⟩ (ho.more ha hm).unfinished

theorem run_refused (ha : ¬ p.accepts b = true) (rest : Bytes) :
    run (some p) (b :: rest) =
      (replacement :: (run none (b :: rest)).1, (run none (b :: rest)).2) := by
  have hstep : step (some p) b = (replacement :: (begin b).1, (begin b).2) := by
    rw [step, if_neg ha]
  rw [run, run, hstep]
  rfl

theorem Faulty.lossy (h : Faulty part rest) :
    (lossy (part ++ rest)).toList = replacement :: (lossy rest).toList := by
  rw [toList_lossy, toList_lossy, run_append]
  rcases h.form with ⟨p, ho⟩ | ⟨b, rfl, hb⟩
  · rw [ho.run Holds.start]
    cases rest with
    | nil => rfl
    | cons b rest =>
      dsimp only
      rw [run_refused (h.refused ho)]
      rfl
  · have hrun : run none [b] = ([replacement], none) := by
      rw [run, run, step, begin, hb]
      rfl
    rw [hrun]
    rfl

theorem Replaced.eq_lossy (h : Replaced bs cs) : cs = (lossy bs).toList := by
  induction h with
  | nil => rfl
  | char c h ih => rw [ih, toList_lossy, toList_lossy, run_char, List.cons_append]
  | faulty hf h ih => rw [ih, hf.lossy]

theorem Opens.splits (h : Opens t p) (rest : Bytes) :
    (∃ c more, t ++ rest = String.utf8EncodeChar c ++ more) ∨
      ∃ part more, t ++ rest = part ++ more ∧ Faulty part more := by
  induction rest generalizing t p with
  | nil => exact .inr ⟨t, [], rfl, h.faulty_at_end⟩
  | cons b rest ih =>
    by_cases ha : p.accepts b = true
    · have hsplit : t ++ b :: rest = (t ++ [b]) ++ rest := by simp
      rw [hsplit]
      by_cases hm : p.missing = 1
      · exact .inl ⟨_, rest, by rw [encode_of_path (h.path (.last ha hm))]⟩
      · exact ih (h.more ha hm)
    · exact .inr ⟨t, b :: rest, rfl, h.faulty_of_refused ha rest⟩

theorem splits (hne : bs ≠ []) :
    (∃ c more, bs = String.utf8EncodeChar c ++ more) ∨
      ∃ part more, bs = part ++ more ∧ Faulty part more := by
  obtain ⟨b, rest, rfl⟩ := List.exists_cons_of_ne_nil hne
  cases hb : lead b with
  | char c => exact .inl ⟨c, rest, by rw [← encode_of_path (.one hb)]; rfl⟩
  | opens p => exact (Opens.lead hb).splits rest
  | invalid => exact .inr ⟨[b], rest, rfl, faulty_of_lead hb rest⟩

theorem exists_replaced (bs : Bytes) : ∃ cs, Replaced bs cs := by
  -- neither a character nor a faulty part is empty, so the bytes behind it are fewer
  induction hn : bs.length using Nat.strongRecOn generalizing bs with
  | ind n ih =>
    by_cases hne : bs = []
    · exact ⟨[], hne ▸ .nil⟩
    rcases splits hne with ⟨c, more, rfl⟩ | ⟨part, more, rfl, hf⟩
    · have hpos := List.length_pos_iff.mpr (String.utf8EncodeChar_ne_nil (c := c))
      rw [List.length_append] at hn
      obtain ⟨cs, hcs⟩ := ih more.length (by omega) more rfl
      exact ⟨c :: cs, .char c hcs⟩
    · have hpos := List.length_pos_iff.mpr hf.ne_nil
      rw [List.length_append] at hn
      obtain ⟨cs, hcs⟩ := ih more.length (by omega) more rfl
      exact ⟨replacement :: cs, .faulty hf hcs⟩

theorem replaced_iff : Replaced bs cs ↔ cs = (lossy bs).toList := by
  constructor
  · exact Replaced.eq_lossy
  · rintro rfl
    obtain ⟨cs, hcs⟩ := exists_replaced bs
    rwa [← hcs.eq_lossy]

theorem mem_lossy (hc : c ∈ (lossy bs).toList) (h : c.toNat < 0x80) :
    UInt8.ofNat c.toNat ∈ bs := by
  have hreplaced := replaced_iff.mpr (rfl : (lossy bs).toList = (lossy bs).toList)
  generalize (lossy bs).toList = cs at hc hreplaced
  induction hreplaced with
  | nil => exact absurd hc List.not_mem_nil
  | char c' _ ih =>
    rcases List.mem_cons.mp hc with rfl | hc
    · rw [encodeChar_one h]
      exact List.mem_cons_self
    · exact List.mem_append_right _ (ih hc)
  | faulty _ _ ih =>
    rcases List.mem_cons.mp hc with rfl | hc
    · exact absurd h (by decide)
    · exact List.mem_append_right _ (ih hc)

end HttpRelay.Utf8
