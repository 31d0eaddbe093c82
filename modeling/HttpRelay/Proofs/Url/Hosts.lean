import HttpRelay.Url.Host
import HttpRelay.Proofs.Idna.Colons
import HttpRelay.Proofs.Text.Escapes

namespace HttpRelay

namespace Address

variable {cs : List Char}

theorem digitsFrom_of_sign (h : '@' ∈ cs) (n : Nat) : Text.digitsFrom n cs = none := by
  induction cs generalizing n with
  | nil => exact absurd h List.not_mem_nil
  | cons c cs ih =>
    rw [Text.digitsFrom]
    rcases List.mem_cons.mp h with rfl | hcs
    · rfl
    · cases Text.digitValue? c with
      | none => rfl
      | some d => exact ih hcs _

theorem octet?_of_sign (h : '@' ∈ cs) : octet? cs = none := by
  rw [octet?.eq_def]
  split
  · rfl
  · exact absurd h (by decide)
  · rfl
  · rw [digitsFrom_of_sign h]
    exact ite_self none

theorem group?_of_sign (h : '@' ∈ cs) : group? cs = none := by
  have hfold : ∀ (ds : List Char), ds.foldl (fun n c => n.bind fun v =>
      (hexValue? c).map (16 * v + ·)) none = none := by
    intro ds
    induction ds with
    | nil => rfl
    | cons d ds ih => exact ih
  have hsign : ∀ (ds : List Char) (n : Option Nat), '@' ∈ ds →
      ds.foldl (fun n c => n.bind fun v => (hexValue? c).map (16 * v + ·)) n = none := by
    intro ds
    induction ds with
    | nil => exact fun _ hds => absurd hds List.not_mem_nil
    | cons d ds ih =>
      intro n hds
      rw [List.foldl_cons]
      rcases List.mem_cons.mp hds with rfl | hds
      · have hnone : (n.bind fun v => (hexValue? '@').map (16 * v + ·)) = none := by
          cases n <;> rfl
        rw [hnone]
        exact hfold ds
      · exact ih _ hds
  rw [group?, hsign cs (some 0) h]
  exact ite_self none

theorem mapM_of_sign {α : Type} {f : List Char → Option α} {pieces : List (List Char)}
    {piece : List Char} (hf : f piece = none) (hpiece : piece ∈ pieces) :
    pieces.mapM f = none := by
  cases hm : pieces.mapM f with
  | none => rfl
  | some read =>
    obtain ⟨a, -, ha⟩ := Text.exists_of_mapM hm hpiece
    rw [hf] at ha
    cases ha

theorem octets?_of_sign (h : '@' ∈ cs) : octets? cs = none := by
  obtain ⟨piece, hpiece, hsign⟩ := Text.exists_splitAll h (by decide : '@' ≠ '.')
  rw [octets?]
  split
  · rename_i hsplit
    rw [hsplit] at hpiece
    exact mapM_of_sign (octet?_of_sign hsign) hpiece
  · rfl

theorem mem_dropLast_or_last {α : Type} {xs : List α} {x : α} (h : x ∈ xs) (d : α) :
    x ∈ xs.dropLast ∨ x = xs.getLastD d := by
  have hne := List.ne_nil_of_mem h
  rw [← List.dropLast_concat_getLast hne, List.mem_append, List.mem_singleton] at h
  rwa [List.getLastD_eq_getLast?, List.getLast?_eq_some_getLast hne, Option.getD_some]

theorem groups?_of_sign (h : '@' ∈ cs) : groups? cs = none := by
  obtain ⟨piece, hpiece, hsign⟩ := Text.exists_splitAll h (by decide : '@' ≠ ':')
  have hne : ¬ cs.isEmpty = true := by
    rw [List.isEmpty_iff]
    exact List.ne_nil_of_mem h
  rw [groups?, if_neg hne]
  dsimp only
  split
  · rcases mem_dropLast_or_last hpiece [] with hinit | rfl
    · rw [mapM_of_sign (group?_of_sign hsign) hinit]
      rfl
    · rw [octets?_of_sign hsign]
      cases (Text.splitAll ':' cs).dropLast.mapM group? <;> rfl
  · exact mapM_of_sign (group?_of_sign hsign) hpiece

theorem splitGap_eq {left right : List Char} (h : splitGap cs = some (left, right)) :
    cs = left ++ ':' :: ':' :: right := by
  induction cs using splitGap.induct generalizing left with
  | case1 rest =>
    obtain ⟨rfl, rfl⟩ := Prod.mk.inj (Option.some.inj h)
    rfl
  | case2 c rest hgap ih =>
    rw [splitGap] at h
    · obtain ⟨⟨left', right'⟩, hrest, hpair⟩ := Option.map_eq_some_iff.mp h
      obtain ⟨rfl, rfl⟩ := Prod.mk.inj hpair
      rw [ih hrest]
      rfl
    · exact hgap
  | case3 => cases h

theorem sixGroups?_of_sign (h : '@' ∈ cs) : sixGroups? cs = none := by
  rw [sixGroups?]
  split
  · rw [groups?_of_sign h]
    rfl
  · rename_i left right hgap
    have hside : '@' ∈ left ∨ '@' ∈ right := by
      rw [splitGap_eq hgap] at h
      simpa using h
    split
    · rfl
    · rcases hside with hleft | hright
      · rw [groups?_of_sign hleft]
        rfl
      · rw [groups?_of_sign hright]
        cases groups? left <;> rfl

end Address

namespace Url

theorem bracketed_of_sign {cs : List Char} (h : '@' ∈ cs) : bracketed cs = .error .badAddress6 := by
  rw [bracketed]
  split
  · rename_i hlast
    have hinit : '@' ∈ cs.dropLast := by
      have hne := List.ne_nil_of_mem h
      rw [← List.dropLast_concat_getLast hne, List.mem_append, List.mem_singleton] at h
      refine h.resolve_right fun hsign => ?_
      rw [List.getLast?_eq_some_getLast hne, ← hsign] at hlast
      cases hlast
    rw [Address.sixGroups?_of_sign hinit]
  · rfl

def loginFault (login : List Char) : ParseError :=
  if login.head? = some '[' then .badAddress6 else .badDomain

theorem decode_login {c : Char} (hc : c.toNat < 0x80) (hpercent : c ≠ '%')
    (front back : List Char) : ∃ xs ys : Bytes,
      Percent.decode (Utf8.encode (String.ofList (front ++ ':' :: c :: back))) =
        xs ++ 0x3a :: UInt8.ofNat c.toNat :: ys := by
  have hbyte : UInt8.ofNat c.toNat ≠ 0x25 := by
    intro hb
    have hnat := congrArg UInt8.toNat hb
    rw [Utf8.toNat_byteOfNat (by omega)] at hnat
    exact hpercent (Char.ext (UInt32.toNat_inj.mp hnat))
  refine ⟨Percent.decode (front.flatMap String.utf8EncodeChar),
    Percent.decode (back.flatMap String.utf8EncodeChar), ?_⟩
  rw [Utf8.encode, String.toList_ofList, List.flatMap_append, List.flatMap_cons,
    List.flatMap_cons, Utf8.encodeChar_one hc, Utf8.encodeChar_one (by decide),
    List.singleton_append, List.singleton_append]
  rw [Percent.decode_append rfl, Percent.decode_cons (by decide), Percent.decode_cons hbyte]
  rfl

theorem specialHost_of_login {c : Char} {front back : List Char} (hc : c.toNat < 0x80)
    (hpercent : c ≠ '%') (hback : '@' ∈ back) :
    specialHost (front ++ ':' :: c :: back) = .error (loginFault (front ++ [':'])) := by
  by_cases hbracket : front.head? = some '['
  · obtain ⟨rest, rfl⟩ := List.head?_eq_some_iff.mp hbracket
    have hsign : '@' ∈ rest ++ ':' :: c :: back := by simp [hback]
    exact bracketed_of_sign hsign
  · have hfault : loginFault (front ++ [':']) = .badDomain := by
      apply if_neg
      cases front with
      | nil => decide
      | cons d front => exact hbracket
    rw [hfault, specialHost.eq_def]
    split
    · rename_i rest hrest
      cases front with
      | nil => cases hrest
      | cons d front =>
        obtain ⟨rfl, -⟩ := List.cons.inj hrest
        exact absurd rfl hbracket
    · split
      · rfl
      · rename_i text htext
        obtain ⟨xs, ys, hdecode⟩ := decode_login hc hpercent front back
        have hbyte : (UInt8.ofNat c.toNat).toNat < 0x80 := by
          rwa [Utf8.toNat_byteOfNat (by omega)]
        rw [hdecode] at htext
        obtain ⟨as, bs, hmarks⟩ := Utf8.strict_marks (by decide) hbyte htext
        rw [hmarks]
        split
        · rfl
        · rename_i name hname
          have hnext : (Char.ofNat (UInt8.ofNat c.toNat).toNat).toNat < 0x80 := by
            rwa [Utf8.toNat_charOfNat (Utf8.isValidChar_of (by omega))]
          have hrefused : name.any refusedInDomain = true :=
            List.any_eq_true.mpr ⟨':', Idna.colon_mem_toAscii hnext hname, by decide⟩
          rw [if_pos hrefused]

end Url

end HttpRelay
