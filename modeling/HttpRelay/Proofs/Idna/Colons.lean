import HttpRelay.Idna.Domain
import HttpRelay.Proofs.Text.Marks

namespace HttpRelay

namespace Punycode

variable {cs label out : List Char} {i weight k bias code basic : Nat}

theorem decodeDelta_colon {r : Nat × List Char} (h : decodeDelta i weight k bias cs = some r)
    (hc : ':' ∈ cs) : ':' ∈ r.2 := by
  induction cs generalizing i weight k with
  | nil => exact absurd hc List.not_mem_nil
  | cons c cs ih =>
    simp only [decodeDelta, Option.bind_eq_bind, Option.bind_eq_some_iff] at h
    obtain ⟨d, hd, h⟩ := h
    have hcs : ':' ∈ cs := by
      rcases List.mem_cons.mp hc with rfl | hcs
      · cases hd
      · exact hcs
    split at h
    · cases h
    · split at h
      · obtain rfl := Option.some.inj h
        exact hcs
      · exact ih h hcs

theorem decodeFrom_colon (hc : ':' ∈ cs) : decodeFrom label code i bias cs = none := by
  fun_induction decodeFrom label code i bias cs with
  | case1 label code i bias cs hempty =>
    rw [List.isEmpty_iff.mp hempty] at hc
    exact absurd hc List.not_mem_nil
  | case2 => rfl
  | case3 label code i bias cs hempty next rest h points code' place hvalid ih =>
    exact ih (decodeDelta_colon h hc)
  | case4 => rfl

theorem decodeFrom_keeps {c : Char} (hc : c ∈ label)
    (h : decodeFrom label code i bias cs = some out) : c ∈ out := by
  fun_induction decodeFrom label code i bias cs with
  | case1 =>
    obtain rfl := Option.some.inj h
    exact hc
  | case2 => cases h
  | case3 label code i bias cs hempty next rest hd points code' place hvalid ih =>
    apply ih _ h
    rw [← List.take_append_drop place label, List.mem_append] at hc
    rw [List.mem_append, List.mem_cons]
    exact hc.imp_right .inr
  | case4 => cases h

theorem mem_before {after : List Char} (hafter : (cs.reverse.takeWhile (· ≠ '-')).reverse = after)
    (hc : ':' ∈ cs) (hnot : ':' ∉ after) : ':' ∈ cs.take (cs.length - after.length - 1) := by
  have hsplit : cs = (cs.reverse.dropWhile (· ≠ '-')).reverse ++ after := by
    rw [← hafter, ← List.reverse_append, List.takeWhile_append_dropWhile, List.reverse_reverse]
  cases hrest : cs.reverse.dropWhile (· ≠ '-') with
  | nil =>
    rw [hrest] at hsplit
    rw [hsplit] at hc
    exact absurd hc hnot
  | cons x xs =>
    have hhead := List.head?_dropWhile_not (· ≠ '-') cs.reverse
    rw [hrest] at hhead hsplit
    have hx : x ≠ ':' := by
      rintro rfl
      simp at hhead
    rw [List.reverse_cons, List.append_assoc] at hsplit
    have hlength : cs.length - after.length - 1 = xs.reverse.length := by
      rw [hsplit, List.length_append, List.length_append, List.length_singleton]
      omega
    rw [hlength, hsplit, List.take_left]
    rw [hsplit, List.mem_append, List.mem_append, List.mem_singleton] at hc
    rcases hc with hxs | hx' | hmem
    · exact hxs
    · exact absurd hx'.symm hx
    · exact absurd hmem hnot

theorem decode_colon (hc : ':' ∈ cs) (h : decode cs = some out) : ':' ∈ out := by
  let after := (cs.reverse.takeWhile (· ≠ '-')).reverse
  let before := cs.take (cs.length - after.length - 1)
  have hdecode : decode cs = if before.all (·.toNat < initialCode) then
      decodeFrom before initialCode 0 initialBias after else none := rfl
  rw [hdecode] at h
  split at h
  · by_cases hafter : ':' ∈ after
    · rw [decodeFrom_colon hafter] at h
      cases h
    · exact decodeFrom_keeps (mem_before rfl hc hafter) h
  · cases h

theorem insertAll_written (s : State) (codes : List Nat) :
    s.written <+: (insertAll basic s codes).written := by
  fun_induction insertAll basic s codes with
  | case1 => exact List.prefix_refl _
  | case2 s c rest hc ih => exact ih
  | case3 s rest hc ih => exact (List.prefix_append _ _).trans ih
  | case4 s c rest hlt hne ih => exact ih

theorem encodeLoop_written (codes : List Nat) (s : State) (extended : List Nat) :
    s.written <+: (encodeLoop codes basic s extended).written := by
  induction extended generalizing s with
  | nil => exact List.prefix_refl _
  | cons m extended ih =>
    let reached : State := { s with delta := s.delta + (m - s.code) * (s.handled + 1), code := m }
    let done := insertAll basic reached codes
    let next : State := { done with delta := done.delta + 1, code := m + 1 }
    have hnext : encodeLoop codes basic s (m :: extended) =
      encodeLoop codes basic next extended := rfl
    have hdone : s.written <+: done.written := insertAll_written reached codes
    rw [hnext]
    exact hdone.trans (ih next)

theorem encode_keeps {c : Char} (hc : c ∈ label) (hascii : c.toNat < initialCode) :
    c ∈ encode label := by
  have hbasic : c ∈ label.filter (·.toNat < initialCode) :=
    List.mem_filter.mpr ⟨hc, decide_eq_true hascii⟩
  have hwritten : c ∈ label.filter (·.toNat < initialCode) ++ ['-'] :=
    List.mem_append_left _ hbasic
  have hsome : ¬ (label.filter (·.toNat < initialCode)).isEmpty = true := by
    rw [List.isEmpty_iff]
    exact List.ne_nil_of_mem hbasic
  apply (encodeLoop_written _ _ _).subset
  dsimp only
  rw [if_neg hsome]
  exact hwritten

end Punycode

namespace Idna

variable {c : Char} {n : Nat} {front back label name : List Char}

theorem fate_colon : fate ':' = .keep := rfl

theorem mapped_append (cs ds : List Char) : mapped (cs ++ ds) =
    (mapped cs).bind fun xs => (mapped ds).map fun ys => xs ++ ys := by
  induction cs with
  | nil =>
    cases hd : mapped ds <;> simp [mapped, hd]
  | cons c cs ih =>
    rw [List.cons_append, mapped, mapped, ih]
    cases mapped cs with
    | none => rfl
    | some xs =>
      cases mapped ds with
      | none => cases fate c <;> rfl
      | some ys => cases fate c <;> simp

theorem mapped_ascii (h : c.toNat < 0x80) (cs : List Char) :
    ∃ d : Char, d.toNat < 0x80 ∧ mapped (c :: cs) = (mapped cs).map (d :: ·) := by
  by_cases hcapital : 'A' ≤ c ∧ c ≤ 'Z'
  · have hfate : fate c = .replace [c.toLower] := by
      rw [fate, if_pos h, if_pos hcapital]
    refine ⟨c.toLower, ?_, ?_⟩
    · have hall : ∀ n < 0x80, (Char.ofNat n).toLower.toNat < 0x80 := by decide +kernel
      have hc := hall c.toNat h
      rwa [Char.ofNat_toNat] at hc
    · rw [mapped, hfate]
      cases mapped cs <;> rfl
  · have hfate : fate c = .keep := by
      rw [fate, if_pos h, if_neg hcapital]
    refine ⟨c, h, ?_⟩
    rw [mapped, hfate]
    cases mapped cs <;> rfl

theorem mapped_colon (cs : List Char) : mapped (':' :: cs) = (mapped cs).map (':' :: ·) := by
  rw [mapped, fate_colon]
  cases mapped cs <;> rfl

theorem mapped_around_colon (h : c.toNat < 0x80) {cs : List Char}
    (hcs : mapped (front ++ ':' :: c :: back) = some cs) :
    ∃ xs ys, ∃ d : Char, d.toNat < 0x80 ∧ cs = xs ++ ':' :: d :: ys := by
  obtain ⟨d, hd, hmapped⟩ := mapped_ascii h back
  rw [mapped_append, mapped_colon, hmapped] at hcs
  obtain ⟨xs, -, hrest⟩ := Option.bind_eq_some_iff.mp hcs
  cases hback : mapped back with
  | none =>
    rw [hback] at hrest
    cases hrest
  | some ys =>
    rw [hback] at hrest
    exact ⟨xs, ys, d, hd, (Option.some.inj hrest).symm⟩

theorem insertMark_append (h : combiningClass n = 0) (m : Nat) (cs ds : List Nat) :
    insertMark m (cs ++ n :: ds) = insertMark m cs ++ n :: ds := by
  induction cs with
  | nil =>
    have hstays : ¬ (combiningClass n ≠ 0 ∧ combiningClass n < combiningClass m) :=
      fun hmark => hmark.1 h
    exact if_neg hstays
  | cons x cs ih =>
    rw [List.cons_append, insertMark, insertMark]
    split
    · rw [ih]
      rfl
    · rfl

theorem order_append (h : combiningClass n = 0) (cs ds : List Nat) :
    order (cs ++ n :: ds) = order cs ++ n :: order ds := by
  induction cs with
  | nil => exact if_pos h
  | cons x cs ih =>
    rw [List.cons_append, order, order, ih]
    split
    · rfl
    · exact insertMark_append h x _ _

theorem combiningClass_low (h : n < 0x300) : combiningClass n = 0 := if_pos h

theorem compose?_low (h : n < 0x300) (starter : Nat) : compose? starter n = none := if_pos h

theorem composeFrom_low (hn : n < 0x300) (starter : Nat) (skipped : List Nat) (lastClass : Nat)
    (rest : List Nat) : composeFrom starter skipped lastClass (n :: rest) =
      starter :: skipped.reverse ++ composeFrom n [] 0 rest := by
  have hnone : ∀ blocked : Bool, (if blocked then none else compose? starter n) = none := by
    intro blocked
    rw [compose?_low hn]
    exact ite_self none
  rw [composeFrom, hnone, combiningClass_low hn, if_pos rfl]

theorem mem_composeFrom_of_low (hn : n < 0x300) {x : Nat} (hx : x < 0x300) (starter : Nat)
    (skipped : List Nat) (lastClass : Nat) (cs rest : List Nat) :
    x ∈ composeFrom starter skipped lastClass (cs ++ x :: n :: rest) := by
  induction cs generalizing starter skipped lastClass with
  | nil =>
    rw [List.nil_append, composeFrom_low hx, composeFrom_low hn]
    simp
  | cons c cs ih =>
    rw [List.cons_append, composeFrom]
    split
    · exact ih _ _ _
    · split
      · exact List.mem_append_right _ (ih _ _ _)
      · exact ih _ _ _

theorem mem_recompose_of_low (hn : n < 0x300) {x : Nat} (hx : x < 0x300) (cs rest : List Nat) :
    x ∈ recompose (cs ++ x :: n :: rest) := by
  induction cs with
  | nil =>
    rw [List.nil_append, recompose, if_pos (combiningClass_low hx), composeFrom_low hn]
    exact List.mem_cons_self
  | cons c cs ih =>
    rw [List.cons_append, recompose]
    split
    · exact mem_composeFrom_of_low hn hx _ _ _ _ _
    · exact List.mem_cons_of_mem _ ih

theorem colon_mem_composed (h : c.toNat < 0x80) (front back : List Char) :
    ':' ∈ composed (front ++ ':' :: c :: back) := by
  rw [composed]
  split
  · exact List.mem_append_right _ List.mem_cons_self
  · have hlow : c.toNat < 0x300 := by omega
    have hcolon : decompose 4 ':'.toNat = [':'.toNat] := rfl
    have hnext : decompose 4 c.toNat = [c.toNat] := by
      rw [decompose, if_pos (by omega)]
    rw [List.flatMap_append, List.flatMap_cons, List.flatMap_cons, hcolon, hnext,
      List.singleton_append, List.singleton_append, order_append rfl,
      order, if_pos (combiningClass_low hlow)]
    exact List.mem_map_of_mem (mem_recompose_of_low hlow (by decide) _ _)

theorem readable_colon (hc : ':' ∈ label) {cs : List Char} (h : readable label = some cs) :
    ':' ∈ cs := by
  rw [readable] at h
  split at h
  · rename_i hmark
    have hsplit : label = encodedMark ++ label.drop 4 := by
      obtain ⟨rest, rfl⟩ := List.isPrefixOf_iff_prefix.mp hmark
      rfl
    have hrest : ':' ∈ label.drop 4 := by
      rw [hsplit, List.mem_append] at hc
      exact hc.resolve_left (by decide)
    obtain ⟨decoded, hdecoded, hchecked⟩ := Option.bind_eq_some_iff.mp h
    split at hchecked
    · obtain rfl := Option.some.inj hchecked
      exact Punycode.decode_colon hrest hdecoded
    · cases hchecked
  · split at h
    · obtain rfl := Option.some.inj h
      exact hc
    · split at h
      · obtain rfl := Option.some.inj h
        exact hc
      · cases h

theorem written_keeps (hc : c ∈ label) (hascii : c.toNat < 0x80) : c ∈ written label := by
  rw [written]
  split
  · exact hc
  · exact List.mem_append_right _ (Punycode.encode_keeps hc hascii)

theorem mem_joinLabels {labels : List (List Char)} (hl : label ∈ labels) (hc : c ∈ label) :
    c ∈ joinLabels labels := by
  induction labels with
  | nil => exact absurd hl List.not_mem_nil
  | cons first labels ih =>
    cases labels with
    | nil =>
      rw [List.mem_singleton.mp hl] at hc
      exact hc
    | cons second labels =>
      have hjoin : joinLabels (first :: second :: labels) =
        first ++ '.' :: joinLabels (second :: labels) := rfl
      rw [hjoin, List.mem_append, List.mem_cons]
      rcases List.mem_cons.mp hl with rfl | hlater
      · exact .inl hc
      · exact .inr (.inr (ih hlater))

/-- A colon in front of an ASCII character stays in a host name, whatever else becomes of it. -/
theorem colon_mem_toAscii (hc : c.toNat < 0x80)
    (h : toAscii (front ++ ':' :: c :: back) = some name) : ':' ∈ name := by
  rw [toAscii] at h
  obtain ⟨cs, hcs, h⟩ := Option.bind_eq_some_iff.mp h
  obtain ⟨labels, hlabels, h⟩ := Option.bind_eq_some_iff.mp h
  have hcolon : ':' ∈ composed cs := by
    obtain ⟨xs, ys, d, hd, rfl⟩ := mapped_around_colon hc hcs
    exact colon_mem_composed hd xs ys
  obtain ⟨piece, hpiece, hmem⟩ := Text.exists_splitAll hcolon (by decide : ':' ≠ '.')
  obtain ⟨label, hlabel, hread⟩ := Text.exists_of_mapM hlabels hpiece
  have hwritten : ':' ∈ written label := written_keeps (readable_colon hmem hread) (by decide)
  split at h
  · cases h
  · obtain rfl := Option.some.inj h
    exact mem_joinLabels (List.mem_map_of_mem hlabel) hwritten

end Idna

end HttpRelay
