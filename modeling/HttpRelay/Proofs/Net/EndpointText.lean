import HttpRelay.Net.Endpoint
import HttpRelay.Proofs.Text.Marks
import HttpRelay.Proofs.Text.Numerals

namespace HttpRelay.Endpoint

open Text (Decimal Numeral)

variable {s : String} {d e : Endpoint} {f : SettingFault} {front host : List Char}

structure Named (host : List Char) : Prop where
  ne_nil : host ≠ []
  visible : ∀ c ∈ host, Text.isVisible c = true

def Bracketed (cs : List Char) : Prop := ∃ inner, cs = '[' :: (inner ++ [']'])

inductive Written (host : List Char) : List Char → Prop
  | bracketed : Written host ('[' :: (host ++ [']']))
  | bare (h : ¬ Bracketed host) : Written host host

structure Spells (port : List Char → Nat → Prop) (s : String) (e : Endpoint) : Prop where
  named : Named e.host.toList
  parts : ∃ front back, s.toList = front ++ ':' :: back ∧ ':' ∉ back ∧
    Written e.host.toList front ∧ port back e.port.toNat

theorem hostFault?_eq_none_iff : hostFault? host = none ↔ Named host := by
  unfold hostFault?
  split
  · rename_i hempty
    apply iff_of_false nofun
    intro h
    exact h.ne_nil (List.isEmpty_iff.mp hempty)
  · rename_i hempty
    have hne : host ≠ [] := by simpa using hempty
    split
    · rename_i hall
      exact iff_of_true rfl ⟨hne, List.all_eq_true.mp hall⟩
    · rename_i hall
      apply iff_of_false nofun
      intro h
      exact hall (List.all_eq_true.mpr h.visible)

theorem validate_eq_ok_iff : e.validate = .ok () ↔ Named e.host.toList := by
  rw [← hostFault?_eq_none_iff, validate]
  cases hostFault? e.host.toList with
  | none => exact iff_of_true rfl rfl
  | some fault => exact iff_of_false nofun nofun

theorem unbracket_bracketed (inner : List Char) : unbracket ('[' :: (inner ++ [']'])) = inner := by
  simp [unbracket]

theorem unbracket_of_not_bracketed (h : ¬ Bracketed front) : unbracket front = front := by
  unfold unbracket
  split
  · rename_i rest
    apply if_neg
    intro hlast
    obtain ⟨inner, rfl⟩ := List.getLast?_eq_some_iff.mp hlast
    exact h ⟨inner, rfl⟩
  · rfl

theorem written_iff : Written host front ↔ unbracket front = host := by
  constructor
  · intro h
    cases h with
    | bracketed => exact unbracket_bracketed host
    | bare h => exact unbracket_of_not_bracketed h
  · rintro rfl
    by_cases h : Bracketed front
    · obtain ⟨inner, rfl⟩ := h
      rw [unbracket_bracketed]
      exact .bracketed
    · rw [unbracket_of_not_bracketed h]
      exact .bare h

theorem written_self_iff : Written host host ↔ ¬ Bracketed host := by
  constructor
  · intro h hbracketed
    obtain ⟨inner, hinner⟩ := hbracketed
    have hsame := written_iff.mp h
    rw [hinner, unbracket_bracketed] at hsame
    have hlength := congrArg List.length hsame
    simp only [List.length_cons, List.length_append, List.length_nil] at hlength
    omega
  · exact .bare

theorem parse_eq_ok_iff : parse s = .ok e ↔ Spells Numeral s e := by
  constructor
  · intro h
    simp only [parse] at h
    split at h
    · cases h
    · rename_i front back hsplit
      obtain ⟨hs, hback⟩ := Text.splitLast_eq_some_iff.mp hsplit
      split at h
      · cases h
      · rename_i hfault
        split at h
        · cases h
        · rename_i port hport
          obtain ⟨hnumeral, hlt⟩ := Text.unsigned?_eq_some_iff.mp hport
          have hvalue : port.toUInt16.toNat = port := UInt16.toNat_ofNat_of_lt' hlt
          obtain rfl := Except.ok.inj h
          refine ⟨?_, front, back, hs, hback, ?_, ?_⟩
          · rw [String.toList_ofList]
            exact hostFault?_eq_none_iff.mp hfault
          · rw [String.toList_ofList]
            exact written_iff.mpr rfl
          · rwa [hvalue]
  · rintro ⟨hnamed, front, back, hs, hback, hwritten, hnumeral⟩
    have hport : Text.unsigned? UInt16.size back = some e.port.toNat :=
      Text.unsigned?_eq_some_iff.mpr ⟨hnumeral, e.port.toNat_lt_size⟩
    have hport' : e.port.toNat.toUInt16 = e.port := UInt16.ofNat_toNat
    simp only [parse, hs, Text.splitLast_append hback, written_iff.mp hwritten,
      hostFault?_eq_none_iff.mpr hnamed, hport, hport', String.ofList_toList]

theorem parse_error (h : parse s = .error f) :
    ∃ reason : String, f = .invalidValue "endpoint" s!"'{s}': {reason}" := by
  simp only [parse] at h
  split at h
  · exact ⟨_, (Except.error.inj h).symm⟩
  · split at h
    · exact ⟨_, (Except.error.inj h).symm⟩
    · split at h
      · exact ⟨_, (Except.error.inj h).symm⟩
      · cases h

/-- A text is read as an endpoint exactly where it spells one, with a port in digits that a plus
sign may stand in front of. Any other text is an invalid value. -/
theorem parse_accepts (s : String) :
    (∀ e, parse s = .ok e ↔ Spells Numeral s e) ∧
    ((∃ reason : String, parse s = .error (.invalidValue "endpoint" s!"'{s}': {reason}")) ↔
      ∀ e, ¬ Spells Numeral s e) := by
  constructor
  · exact fun e => parse_eq_ok_iff
  · constructor
    · rintro ⟨reason, herror⟩ e he
      rw [parse_eq_ok_iff.mpr he] at herror
      cases herror
    · intro hnone
      cases hparse : parse s with
      | ok e => exact absurd (parse_eq_ok_iff.mp hparse) (hnone e)
      | error f =>
        obtain ⟨reason, rfl⟩ := parse_error hparse
        exact ⟨reason, rfl⟩

theorem parse_reads_sign : parse "example.com:+80" = .ok ⟨"example.com", 80⟩ ∧
    ∀ e, ¬ Spells Decimal "example.com:+80" e := by
  constructor
  · rfl
  · rintro e ⟨-, front, back, hs, hback, -, hport⟩
    have hparts : front ++ ':' :: back = "example.com".toList ++ ':' :: "+80".toList := hs.symm
    obtain ⟨-, rfl⟩ := Text.eq_of_last_mark hparts hback (by decide)
    exact Text.not_decimal_plus ['8', '0'] _ hport

def hostPart (e : Endpoint) : List Char :=
  if ':' ∈ e.host.toList then '[' :: (e.host.toList ++ [']']) else e.host.toList

theorem authority_toList (e : Endpoint) :
    e.authority.toList = e.hostPart ++ ':' :: Nat.toDigits 10 e.port.toNat := String.toList_ofList

theorem hostPart_visible (h : Named e.host.toList) :
    ∀ c ∈ e.hostPart, Text.isVisible c = true := by
  intro c hc
  unfold hostPart at hc
  split at hc
  · rw [List.mem_cons, List.mem_append, List.mem_singleton] at hc
    rcases hc with rfl | hc | rfl
    · decide
    · exact h.visible c hc
    · decide
  · exact h.visible c hc

theorem authority_visible (h : Named e.host.toList) :
    ∀ c ∈ e.authority.toList, Text.isVisible c = true := by
  intro c hc
  rw [authority_toList, List.mem_append, List.mem_cons] at hc
  rcases hc with hc | rfl | hc
  · exact hostPart_visible h c hc
  · decide
  · exact Text.visible_of_isDigit ((Text.decimal_toDigits _).digits c hc)

theorem colon_not_mem_decimal {digits : List Char} {n : Nat} (h : Decimal digits n) :
    ':' ∉ digits := fun hmem => absurd (h.digits ':' hmem) (by decide)

theorem spells_authority_iff : Spells Numeral e.authority d ↔
    Named d.host.toList ∧ Written d.host.toList e.hostPart ∧ d.port = e.port := by
  have hdigits := Text.decimal_toDigits e.port.toNat
  have hcolon := colon_not_mem_decimal hdigits
  constructor
  · rintro ⟨hnamed, front, back, hs, hback, hwritten, hport⟩
    rw [authority_toList] at hs
    obtain ⟨rfl, rfl⟩ := Text.eq_of_last_mark hs hcolon hback
    refine ⟨hnamed, hwritten, ?_⟩
    exact UInt16.toNat_inj.mp (hport.unique (.inl hdigits))
  · rintro ⟨hnamed, hwritten, hport⟩
    refine ⟨hnamed, e.hostPart, _, authority_toList e, hcolon, hwritten, ?_⟩
    rw [hport]
    exact .inl hdigits

def Ambiguous (e : Endpoint) : Prop := Bracketed e.host.toList ∧ ':' ∉ e.host.toList

theorem written_hostPart_iff : Written e.host.toList e.hostPart ↔ ¬ e.Ambiguous := by
  unfold hostPart Ambiguous
  split
  · rename_i hcolon
    exact iff_of_true .bracketed fun h => h.2 hcolon
  · rename_i hcolon
    rw [written_self_iff, and_iff_left hcolon]

theorem parse_authority_iff (h : e.validate = .ok ()) :
    parse e.authority = .ok e ↔ ¬ e.Ambiguous := by
  rw [parse_eq_ok_iff, spells_authority_iff, written_hostPart_iff]
  have hnamed := validate_eq_ok_iff.mp h
  simp [hnamed]

def Doubled (s : String) : Prop :=
  ∃ inner port, s.toList = '[' :: '[' :: (inner ++ [']', ']']) ++ ':' :: port ∧
    ':' ∉ inner ∧ ':' ∉ port

theorem Spells.ambiguous_iff {port : List Char → Nat → Prop} (h : Spells port s e) :
    e.Ambiguous ↔ Doubled s := by
  obtain ⟨-, front, back, hs, hback, hwritten, -⟩ := h
  constructor
  · rintro ⟨hbracketed, hcolon⟩
    cases hwritten with
    | bare hnot => exact absurd hbracketed hnot
    | bracketed =>
      obtain ⟨inner, hinner⟩ := hbracketed
      refine ⟨inner, back, ?_, ?_, hback⟩
      · rw [hs, hinner]
        simp
      · intro hmem
        apply hcolon
        rw [hinner]
        simp [hmem]
  · rintro ⟨inner, port, hdoubled, hinner, hport⟩
    rw [hs] at hdoubled
    obtain ⟨rfl, rfl⟩ := Text.eq_of_last_mark hdoubled hback hport
    have hhost : e.host.toList = '[' :: (inner ++ [']']) := by
      rw [← written_iff.mp hwritten, ← unbracket_bracketed ('[' :: (inner ++ [']']))]
      simp
    refine ⟨⟨inner, hhost⟩, ?_⟩
    rw [hhost]
    simp [hinner]

/-- An endpoint is read back from its text unless its host is ambiguous; that of a text that was
read is so exactly where it stood in two pairs of brackets. -/
theorem authority_reads_back (e : Endpoint) :
    (e.validate = .ok () → (parse e.authority = .ok e ↔ ¬ e.Ambiguous)) ∧
    ∀ s, parse s = .ok e →
      e.validate = .ok () ∧ (parse e.authority = .ok e ↔ ¬ Doubled s) := by
  constructor
  · exact parse_authority_iff
  · intro s h
    have hspells := parse_eq_ok_iff.mp h
    have hvalid := validate_eq_ok_iff.mpr hspells.named
    refine ⟨hvalid, ?_⟩
    rw [parse_authority_iff hvalid, hspells.ambiguous_iff]

def loopback : Endpoint := ⟨"::1", 443⟩

theorem authority_reads_back_loopback :
    loopback.validate = .ok () ∧ parse loopback.authority = .ok loopback ∧
      parse "[::1]:443" = .ok loopback ∧ ¬ Doubled "[::1]:443" := by
  have hvalid : loopback.validate = .ok () := rfl
  have hparse : parse "[::1]:443" = .ok loopback := rfl
  have hnot : ¬ loopback.Ambiguous := fun h => h.2 (by decide)
  obtain ⟨hvalidated, hread⟩ := authority_reads_back loopback
  have hback := (hvalidated hvalid).mpr hnot
  exact ⟨hvalid, hback, hparse, (hread _ hparse).2.mp hback⟩

theorem authority_loses_brackets :
    validate ⟨"[abc]", 80⟩ = .ok () ∧ parse "[[abc]]:80" = .ok ⟨"[abc]", 80⟩ ∧
      parse (authority ⟨"[abc]", 80⟩) = .ok ⟨"abc", 80⟩ := ⟨rfl, rfl, rfl⟩

end HttpRelay.Endpoint
