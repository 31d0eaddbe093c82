import HttpRelay.Url.Parser
import HttpRelay.Proofs.Url.Hosts

namespace HttpRelay

theorem Text.of_ascii {P : Char → Prop} (h : ∀ n < 0x80, P (Char.ofNat n)) {c : Char}
    (hc : c.toNat < 0x80) : P c := by
  have hP := h c.toNat hc
  rwa [Char.ofNat_toNat] at hP

structure Secret where
  chars : List Char
  ne_nil : chars ≠ []
  plain : ∀ c ∈ chars, c.isAlphanum = true

namespace Secret

def ofText (text : String) (hne : text.toList ≠ [])
    (hplain : text.toList.all Char.isAlphanum = true) : Secret :=
  ⟨text.toList, hne, List.all_eq_true.mp hplain⟩

theorem ascii_of_alphanum {c : Char} (h : c.isAlphanum = true) : c.toNat < 0x80 := by
  have hbound : c.val.toNat < 0x80 := by
    delta Char.isAlphanum Char.isAlpha Char.isUpper Char.isLower Char.isDigit at h
    simp only [Bool.or_eq_true, Bool.and_eq_true, decide_eq_true_eq, ge_iff_le,
      UInt32.le_iff_toNat_le] at h
    rcases h with (h | h) | h <;> exact Nat.lt_of_le_of_lt h.2 (by decide)
  exact hbound

variable (p : Secret)

theorem exists_first : ∃ c cs, p.chars = c :: cs ∧ c ∈ p.chars := by
  obtain ⟨c, cs, hp⟩ := List.exists_cons_of_ne_nil p.ne_nil
  exact ⟨c, cs, hp, hp ▸ List.mem_cons_self⟩

theorem ascii : ∀ c ∈ p.chars, c.toNat < 0x80 := fun c hc => ascii_of_alphanum (p.plain c hc)

theorem of_alphanum {P : Char → Prop}
    (h : ∀ n < 0x80, (Char.ofNat n).isAlphanum = true → P (Char.ofNat n)) :
    ∀ c ∈ p.chars, P c := by
  intro c hc
  apply Text.of_ascii (P := fun c => c.isAlphanum = true → P c) h (p.ascii c hc)
  exact p.plain c hc

theorem inside (special : Bool) : ∀ c ∈ p.chars, Url.endsAuthority special c = false := by
  cases special <;> exact p.of_alphanum (by decide +kernel)

theorem colon_not_mem : ':' ∉ p.chars := fun h => absurd (p.plain ':' h) (by decide)

theorem encode_eq : Percent.encode Url.inUserSet p.chars = p.chars := by
  have hkept : ∀ c ∈ p.chars, Percent.encodeChar Url.inUserSet c = [c] :=
    p.of_alphanum (by decide +kernel)
  have hall : ∀ cs : List Char, (∀ c ∈ cs, Percent.encodeChar Url.inUserSet c = [c]) →
      Percent.encode Url.inUserSet cs = cs := by
    intro cs
    induction cs with
    | nil => exact fun _ => rfl
    | cons c cs ih =>
      intro h
      rw [List.forall_mem_cons] at h
      have hcs := ih h.2
      rw [Percent.encode] at hcs ⊢
      rw [List.flatMap_cons, h.1, hcs]
      rfl
  exact hall p.chars hkept

end Secret

namespace Url

open Text (splitFirst splitLast)

variable {scheme cs ds login user held : List Char} {special : Bool} {p : Secret}

theorem splitScheme_colon (c : Char) (cs rest : List Char) :
    splitScheme (c :: cs ++ ':' :: rest) = if isLetter c then
      match (c :: cs).dropWhile isSchemeChar ++ ':' :: rest with
      | ':' :: rest => some (Text.lowerChars ((c :: cs).takeWhile isSchemeChar), rest)
      | _ => none
    else none := by
  have hmark : isSchemeChar ':' = false := by decide
  rw [← Text.dropWhile_mark hmark, ← Text.takeWhile_mark hmark _ rest]
  rfl

theorem splitScheme_mark (cs rest : List Char) : splitScheme (cs ++ ':' :: rest) =
    (splitScheme (cs ++ [':'])).map fun r => (r.1, r.2 ++ rest) := by
  cases cs with
  | nil => rfl
  | cons c cs =>
    rw [splitScheme_colon, splitScheme_colon]
    split
    · cases (c :: cs).dropWhile isSchemeChar with
      | nil => rfl
      | cons d ds =>
        by_cases hd : d = ':'
        · subst hd
          simp
        · simp [hd]
    · rfl

def UpToColon (cs : List Char) : Prop := cs = [] ∨ ∃ front, cs = front ++ [':']

theorem splitScheme_last {back : List Char} (h : splitScheme (cs ++ [':']) = some (scheme, back)) :
    UpToColon back := by
  cases cs with
  | nil => cases h
  | cons c cs =>
    rw [splitScheme_colon] at h
    split at h
    · cases hrest : (c :: cs).dropWhile isSchemeChar with
      | nil =>
        rw [hrest] at h
        exact .inl (Prod.mk.inj (Option.some.inj h)).2.symm
      | cons d ds =>
        rw [hrest] at h
        by_cases hd : d = ':'
        · subst hd
          exact .inr ⟨ds, (Prod.mk.inj (Option.some.inj h)).2.symm⟩
        · simp [hd] at h
    · cases h

theorem splitHost_append (inside : Bool) (cs : List Char) :
    (splitHost inside cs).1 ++ (splitHost inside cs).2 = cs := by
  induction cs generalizing inside with
  | nil => rfl
  | cons c cs ih =>
    rw [splitHost]
    split
    · rfl
    · exact congrArg (c :: ·) (ih _)

theorem endsAuthority_sign (special : Bool) : endsAuthority special '@' = false := by
  cases special <;> decide

theorem takeWhile_login {p : Char → Bool} (h : ∀ c ∈ login, p c = true) (hsign : p '@' = true)
    (ds : List Char) :
    (login ++ '@' :: ds).takeWhile p = login ++ '@' :: ds.takeWhile p := by
  rw [List.takeWhile_append_of_pos h, List.takeWhile_cons_of_pos hsign]

theorem dropWhile_login {p : Char → Bool} (h : ∀ c ∈ login, p c = true) (hsign : p '@' = true)
    (ds : List Char) : (login ++ '@' :: ds).dropWhile p = ds.dropWhile p := by
  rw [List.dropWhile_append_of_pos h, List.dropWhile_cons_of_pos hsign]

theorem splitAuthority_login (hin : ∀ c ∈ login, endsAuthority special c = false)
    (hds : '@' ∉ ds) : splitAuthority special (login ++ '@' :: ds) =
      (login ++ '@' :: (splitAuthority special ds).1, (splitAuthority special ds).2) := by
  have hkeeps : ∀ c ∈ login, (!endsAuthority special c) = true := by
    intro c hc
    rw [hin c hc]
    rfl
  have hsign : (!endsAuthority special '@') = true := by
    rw [endsAuthority_sign]
    rfl
  have hfront : '@' ∉ ds.takeWhile (!endsAuthority special ·) :=
    fun h => hds (List.takeWhile_subset _ h)
  rw [splitAuthority, splitAuthority, takeWhile_login hkeeps hsign, dropWhile_login hkeeps hsign,
    Text.splitLast_append hfront, Text.splitLast_of_not_mem hfront]
  dsimp only [Option.map_some, Option.map_none, Option.getD_some, Option.getD_none]
  generalize ds.takeWhile (!endsAuthority special ·) = front
  have hlength : ((splitHost false front).2.dropWhile (· ≠ '\\')).length ≤ front.length := by
    have hsuffix := (List.dropWhile_suffix (· ≠ '\\') (l := (splitHost false front).2)).length_le
    have happend := congrArg List.length (splitHost_append false front)
    rw [List.length_append] at happend
    omega
  generalize (splitHost false front).2.dropWhile (· ≠ '\\') = extra at hlength ⊢
  have hcount : (login ++ '@' :: front).length - extra.length =
      login.length + (1 + (front.length - extra.length)) := by
    rw [List.length_append, List.length_cons]
    omega
  rw [hcount, List.take_length_add_append, Nat.add_comm 1, List.take_succ_cons]

theorem splitAuthority_front (special : Bool) (cs : List Char) :
    (splitAuthority special cs).1 <+: cs := by
  exact (List.take_prefix _ _).trans (List.takeWhile_prefix _)

theorem userInfo_secret (p : Secret) : userInfo p.chars = (p.chars, none) := by
  rw [userInfo, Text.splitFirst_of_not_mem p.colon_not_mem, p.encode_eq]

theorem userInfo_login (hu : ':' ∉ user) (held : List Char) (p : Secret) :
    userInfo (user ++ ':' :: (held ++ p.chars)) =
      (Percent.encode inUserSet user, some (Percent.encode inUserSet held ++ p.chars)) := by
  have hencode : Percent.encode inUserSet (held ++ p.chars) =
      Percent.encode inUserSet held ++ p.chars := by
    rw [Percent.encode, List.flatMap_append]
    exact congrArg (_ ++ ·) p.encode_eq
  rw [userInfo, Text.splitFirst_append hu]
  split
  · rename_i hnone
    cases hnone
  · rename_i hsome
    obtain ⟨-, hnil⟩ := Prod.mk.inj (Option.some.inj hsome)
    exact absurd (List.append_eq_nil_iff.mp hnil).2 p.ne_nil
  · rename_i hsome
    obtain ⟨rfl, rfl⟩ := Prod.mk.inj (Option.some.inj hsome)
    rw [hencode]

def hostAndPort (scheme cs : List Char) : Except ParseError (List Char × Option Nat) := do
  let (hostText, tail) := splitHost false cs
  if isSpecial scheme && hostText.isEmpty then throw .emptyHost
  let host ← if isSpecial scheme then specialHost hostText else plainHost hostText
  if host.isEmpty then throw .emptyHost
  let number ← readPort scheme (tail.drop 1)
  pure (host, number)

theorem behindHost_login {password : Option (List Char)}
    (hsome : (password.isSome || !user.isEmpty) = true) (scheme tail : List Char)
    (h : Except ParseError (List Char)) :
    (do
      let host ← h
      if host.isEmpty && !tail.isEmpty then throw .emptyHost
      let number ← readPort scheme (tail.drop 1)
      if host.isEmpty && (password.isSome || !user.isEmpty) then throw .emptyHost
      pure (⟨user, password, host, number⟩ : Authority)) =
    Except.map (fun r => ⟨user, password, r.1, r.2⟩) (do
      let host ← h
      if host.isEmpty then throw .emptyHost
      let number ← readPort scheme (tail.drop 1)
      pure (host, number)) := by
  rw [hsome]
  cases h with
  | error e => rfl
  | ok host =>
    cases host with
    | nil => cases tail <;> rfl
    | cons c host => cases readPort scheme (tail.drop 1) <;> rfl

theorem readAuthority_login {password : Option (List Char)} (hlogin : login ≠ [])
    (hinfo : userInfo login = (user, password))
    (hsome : (password.isSome || !user.isEmpty) = true) (hds : '@' ∉ ds) (atEnd : Bool) :
    readAuthority scheme (login ++ '@' :: ds) atEnd =
      (hostAndPort scheme ds).map fun r => ⟨user, password, r.1, r.2⟩ := by
  have hnot : ¬ (decide (login ++ '@' :: ds = ['@']) && !atEnd) = true := by
    have hne : login ++ '@' :: ds ≠ ['@'] := by
      intro h
      cases login with
      | nil => exact hlogin rfl
      | cons c login =>
        obtain ⟨-, hrest⟩ := List.cons.inj h
        exact absurd (List.append_eq_nil_iff.mp hrest).2 (List.cons_ne_nil _ _)
    simp [hne]
  rw [readAuthority, Text.splitLast_append hds, Option.getD_some]
  dsimp only
  rw [if_neg hnot, hinfo]
  dsimp only
  rw [hostAndPort]
  dsimp only
  split
  · rfl
  · split
    · exact behindHost_login hsome scheme _ (specialHost _)
    · exact behindHost_login hsome scheme _ (plainHost _)

end Url

end HttpRelay
