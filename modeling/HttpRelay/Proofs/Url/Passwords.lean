import HttpRelay.Proofs.Url.Readings

namespace HttpRelay.Url

variable {scheme back ds login : List Char} {front host : String}

def loginText (front host : String) (p : Secret) : String :=
  front ++ ":" ++ String.ofList p.chars ++ "@" ++ host

def opening (cs : List Char) : List Char :=
  ((Text.trimLeft cs).dropWhile isC0OrSpace).filter (!isTabOrNewline ·)

def closing (cs : List Char) : List Char :=
  (((Text.trimRight cs).reverse.dropWhile isC0OrSpace).reverse).filter (!isTabOrNewline ·)

theorem sign_not_mem_closing {cs : List Char} (h : '@' ∉ cs) : '@' ∉ closing cs := by
  rw [closing, List.mem_filter, List.mem_reverse, Text.trimRight]
  rintro ⟨hmem, -⟩
  have hreverse := (List.dropWhile_suffix _).subset hmem
  rw [List.reverse_reverse] at hreverse
  exact h (List.mem_reverse.mp ((List.dropWhile_suffix _).subset hreverse))

theorem prepare_login (front host : List Char) (p : Secret) :
    prepare (Text.trimChars (front ++ ':' :: (p.chars ++ '@' :: host))) =
      opening front ++ ':' :: (p.chars ++ '@' :: closing host) := by
  have hassoc : ∀ cs ds : List Char,
      cs ++ ':' :: (p.chars ++ '@' :: ds) = cs ++ ':' :: p.chars ++ '@' :: ds := by simp
  have hkept : p.chars.filter (!isTabOrNewline ·) = p.chars :=
    List.filter_eq_self.mpr (p.of_alphanum (by decide +kernel))
  rw [Text.trimChars, Text.trimLeft_mark (by decide), hassoc, Text.trimRight_mark (by decide),
    ← hassoc, prepare, Text.dropWhile_mark (by decide), hassoc,
    Text.dropWhileRight_mark (by decide), ← hassoc, List.filter_append,
    List.filter_cons_of_pos (by decide), List.filter_append, hkept,
    List.filter_cons_of_pos (by decide)]
  rfl

theorem splitScheme_loginText (front host : String) (p : Secret) :
    splitScheme (prepare (Text.trim (loginText front host p)).toList) =
      (splitScheme (opening front.toList ++ [':'])).map fun r =>
        (r.1, r.2 ++ (p.chars ++ '@' :: closing host.toList)) := by
  have hchars : (loginText front host p).toList =
      front.toList ++ ':' :: (p.chars ++ '@' :: host.toList) := by
    simp [loginText]
  rw [Text.trim, String.toList_ofList, hchars, prepare_login, splitScheme_mark]

inductive LoginBehind (scheme : List Char) : List Char → Prop
  | special {slashes login : List Char} (hspecial : isSpecial scheme = true)
      (hfile : isFile scheme = false) (hslashes : ∀ c ∈ slashes, isSlash true c = true)
      (hin : ∀ c ∈ login, endsAuthority true c = false) :
      LoginBehind scheme (slashes ++ (login ++ [':']))
  | file {a b : Char} {login : List Char} (hfile : isFile scheme = true)
      (ha : isSlash true a = true) (hb : isSlash true b = true)
      (hin : ∀ c ∈ login, endsAuthority true c = false) :
      LoginBehind scheme (a :: b :: (login ++ [':']))
  | other {login : List Char} (hspecial : isSpecial scheme = false)
      (hin : ∀ c ∈ login, endsAuthority false c = false) :
      LoginBehind scheme ('/' :: '/' :: (login ++ [':']))

inductive OnlyPassword (read : Secret → Except ParseError Url) : Prop
  | refused (e : ParseError) (h : ∀ p, read p = .error e)
  | kept (url : Url) (held : List Char) (hauthority : url.authority.isSome)
      (hheld : UpToColon held)
      (h : ∀ p, read p = .ok (url.withPassword (Percent.encode inUserSet held ++ p.chars)))

inductive Reading (read : Secret → Except ParseError Url) : Prop
  | login (h : OnlyPassword read)
  | path (placed : List Char × Option Authority)
      (h : ∀ p, ∃ url, read p = .ok url ∧ url.parts = placed)
  | user (h : ∀ p, ∃ url, read p = .ok url ∧ url.user = p.chars ∧ url.password? = none)

theorem exists_of_map {r : Except ParseError Url} {placed : List Char × Option Authority}
    (h : r.map parts = .ok placed) : ∃ url, r = .ok url ∧ url.parts = placed := by
  cases r with
  | error e => cases h
  | ok url => exact ⟨url, rfl, Except.ok.inj h⟩

theorem error_of_map {r : Except ParseError Url} {e : ParseError}
    (h : r.map parts = .error e) : r = .error e := by
  cases r with
  | error e' => exact congrArg _ (Except.error.inj h)
  | ok url => cases h

theorem Reading.of_parts {read : Secret → Except ParseError Url}
    {r : Except ParseError (List Char × Option Authority)} (h : ∀ p, (read p).map parts = r) :
    Reading read := by
  cases r with
  | error e => exact .login (.refused e fun p => error_of_map (h p))
  | ok placed => exact .path placed fun p => exists_of_map (h p)

theorem exists_user (login : List Char) : ∃ user held : List Char,
    login ++ [':'] = user ++ ':' :: held ∧ ':' ∉ user ∧ UpToColon held := by
  have hcolon : ':' ∈ login ++ [':'] := by simp
  obtain ⟨user, held, hlogin, hu⟩ := List.eq_append_cons_of_mem hcolon
  refine ⟨user, held, hlogin, hu, ?_⟩
  rcases List.eq_nil_or_concat held with hnil | ⟨init, c, rfl⟩
  · exact .inl hnil
  · rw [List.concat_eq_append, ← List.cons_append, ← List.append_assoc] at hlogin
    have hc : ':' = c := (List.append_singleton_inj.mp hlogin).2
    subst hc
    exact .inr ⟨init, List.concat_eq_append⟩

theorem afterSlashes_onlyPassword
    (hin : ∀ c ∈ login, endsAuthority (isSpecial scheme) c = false) (hds : '@' ∉ ds) :
    OnlyPassword fun p => afterSlashes scheme (login ++ [':'] ++ (p.chars ++ '@' :: ds)) := by
  have hcolon : ∀ c ∈ login ++ [':'], endsAuthority (isSpecial scheme) c = false := by
    intro c hc
    rcases List.mem_append.mp hc with hc | hc
    · exact hin c hc
    · rw [List.mem_singleton.mp hc]
      exact endsAuthority_colon _
  obtain ⟨user, held, hlogin, hu, hheld⟩ := exists_user login
  rw [hlogin] at hcolon ⊢
  have hread := afterSlashes_login hu hcolon hds
  cases hurl : hostedUrl scheme user ds with
  | error e =>
    refine .refused e fun p => ?_
    rw [← List.append_assoc, hread, hurl]
    rfl
  | ok url =>
    refine .kept url held (hostedUrl_authority hurl) hheld fun p => ?_
    rw [← List.append_assoc, hread, hurl]
    rfl

theorem afterSlashes_reading (hlogin : UpToColon login) (hds : '@' ∉ ds) :
    Reading fun p => afterSlashes scheme (login ++ (p.chars ++ '@' :: ds)) := by
  rcases hlogin with rfl | ⟨login, rfl⟩
  · have hparts : ∀ p : Secret, (afterSlashes scheme (p.chars ++ '@' :: ds)).map parts = _ :=
      afterSlashes_secret hds
    cases hhost : hostAndPort scheme (splitAuthority (isSpecial scheme) ds).1 with
    | error e =>
      refine .login (.refused e fun p => error_of_map ?_)
      rw [List.nil_append, hparts, hhost]
      rfl
    | ok r =>
      refine .user fun p => ?_
      have hp := hparts p
      rw [hhost] at hp
      obtain ⟨url, hurl, hplaced⟩ := exists_of_map hp
      have hauthority : url.authority = some ⟨p.chars, none, r.1, r.2⟩ := congrArg Prod.snd hplaced
      refine ⟨url, hurl, ?_, ?_⟩
      · simp [Url.user, hauthority]
      · simp [Url.password?, hauthority]
  · by_cases hin : ∀ c ∈ login, endsAuthority (isSpecial scheme) c = false
    · exact .login (afterSlashes_onlyPassword hin hds)
    · obtain ⟨front, c, path, rfl, hc⟩ := exists_ending hin
      apply Reading.of_parts (r := (afterSlashes scheme (front ++ [c])).map parts)
      intro p
      rw [← afterSlashes_ended hc (path ++ [':'] ++ (p.chars ++ '@' :: ds))]
      simp

theorem fileHost_login (login back : List Char) (p : Secret) :
    fileHost (login ++ ':' :: p.chars ++ '@' :: back) = .error (loginFault (login ++ [':'])) := by
  obtain ⟨c, cs, hp, hc⟩ := p.exists_first
  have hdrive : isDriveLetter (login ++ ':' :: p.chars ++ '@' :: back) = false := by
    apply isDriveLetter_of_length
    simp only [hp, List.length_append, List.length_cons]
    omega
  have hne : (login ++ ':' :: p.chars ++ '@' :: back).isEmpty = false := by simp
  have hrefused : specialHost (login ++ ':' :: p.chars ++ '@' :: back) =
      .error (loginFault (login ++ [':'])) := by
    rw [hp, List.append_assoc, List.cons_append, List.cons_append]
    apply specialHost_of_login (p.ascii c hc)
    · rintro rfl
      exact absurd (p.plain _ hc) (by decide)
    · simp
  rw [fileHost, hdrive, hne, hrefused]
  rfl

theorem fileUrl_login {a b : Char} (ha : isSlash true a = true) (hb : isSlash true b = true)
    (hin : ∀ c ∈ login, endsAuthority true c = false) (ds : List Char) (p : Secret) :
    fileUrl (a :: b :: (login ++ [':']) ++ (p.chars ++ '@' :: ds)) =
      .error (loginFault (login ++ [':'])) := by
  have hkept : ∀ c ∈ login ++ ':' :: p.chars, (!endsAuthority true c) = true := by
    intro c hc
    rw [Bool.not_eq_true']
    rcases List.mem_append.mp hc with hc | hc
    · exact hin c hc
    · rcases List.mem_cons.mp hc with rfl | hc
      · rfl
      · exact p.inside true c hc
  have hfront : a :: b :: (login ++ [':']) ++ (p.chars ++ '@' :: ds) =
      a :: b :: (login ++ ':' :: p.chars ++ '@' :: ds) := by simp
  apply error_of_map
  rw [hfront, fileUrl_host ha hb, takeWhile_login hkept rfl, fileHost_login]
  rfl

theorem isSlash_colon (special : Bool) : isSlash special ':' = false := by
  cases special <;> decide

theorem slashes_cases (special : Bool) (ds : List Char) (hback : UpToColon back) :
    (∃ a b login, back = a :: b :: (login ++ [':']) ∧ isSlash special a = true ∧
      isSlash special b = true) ∨
    ∀ p : Secret, ∀ a b rest, back ++ (p.chars ++ '@' :: ds) = a :: b :: rest →
      (isSlash special a && isSlash special b) = false := by
  rcases hback with rfl | ⟨front, rfl⟩
  · right
    intro p a b rest h
    obtain ⟨c, cs, hp, hc⟩ := p.exists_first
    rw [hp] at h
    obtain ⟨rfl, -⟩ := List.cons.inj h
    rw [isSlash_of_inside (p.inside special c hc)]
    rfl
  · match front with
    | [] =>
      right
      intro p a b rest h
      obtain ⟨rfl, -⟩ := List.cons.inj h
      rw [isSlash_colon]
      rfl
    | [x] =>
      right
      intro p a b rest h
      obtain ⟨-, hrest⟩ := List.cons.inj h
      obtain ⟨rfl, -⟩ := List.cons.inj hrest
      rw [isSlash_colon, Bool.and_false]
    | x :: y :: login =>
      by_cases hslashes : (isSlash special x && isSlash special y) = true
      · rw [Bool.and_eq_true] at hslashes
        exact .inl ⟨x, y, login, rfl, hslashes⟩
      · right
        intro p a b rest h
        obtain ⟨rfl, hrest⟩ := List.cons.inj h
        obtain ⟨rfl, -⟩ := List.cons.inj hrest
        exact Bool.eq_false_iff.mpr hslashes

theorem fileUrl_reading (hback : UpToColon back) (ds : List Char) :
    Reading fun p => fileUrl (back ++ (p.chars ++ '@' :: ds)) := by
  rcases slashes_cases true ds hback with ⟨a, b, login, rfl, ha, hb⟩ | hpath
  · by_cases hin : ∀ c ∈ login, endsAuthority true c = false
    · exact .login (.refused _ (fileUrl_login ha hb hin ds))
    · obtain ⟨front, c, path, rfl, hc⟩ := exists_ending hin
      have hstop : (!endsAuthority true c) = false := by simp [hc]
      have hparts : ∀ p : Secret, (fileUrl (a :: b :: (front ++ c :: path ++ [':']) ++
          (p.chars ++ '@' :: ds))).map parts =
            (fileHost (front.takeWhile (!endsAuthority true ·))).map fun host =>
              ("file".toList, some ⟨[], none, host, none⟩) := by
        intro p
        have hrest : a :: b :: (front ++ c :: path ++ [':']) ++ (p.chars ++ '@' :: ds) =
            a :: b :: (front ++ c :: (path ++ [':'] ++ (p.chars ++ '@' :: ds))) := by simp
        rw [hrest, fileUrl_host ha hb, Text.takeWhile_mark hstop]
      exact .of_parts hparts
  · exact .of_parts fun p => fileUrl_path (hpath p)

section

variable (hsplit : splitScheme (opening front.toList ++ [':']) = some (scheme, back))

include hsplit

theorem splitScheme_login (host : String) (p : Secret) :
    splitScheme (prepare (Text.trim (loginText front host p)).toList) =
      some (scheme, back ++ (p.chars ++ '@' :: closing host.toList)) := by
  rw [splitScheme_loginText, hsplit]
  rfl

theorem parse_special_login (hspecial : isSpecial scheme = true) (hfile : isFile scheme = false)
    (host : String) (p : Secret) :
    parse (Text.trim (loginText front host p)) = afterSlashes scheme
      (back.dropWhile (isSlash true ·) ++ (p.chars ++ '@' :: closing host.toList)) := by
  obtain ⟨c, cs, hp, hc⟩ := p.exists_first
  have hslash : isSlash true c = false := isSlash_of_inside (p.inside true c hc)
  rw [parse_special (splitScheme_login hsplit host p) hfile hspecial, hp, List.cons_append,
    Text.dropWhile_mark hslash]

theorem parse_special_reading (hspecial : isSpecial scheme = true) (hfile : isFile scheme = false)
    (hhost : '@' ∉ host.toList) : Reading fun p => parse (Text.trim (loginText front host p)) := by
  have hlogin : UpToColon (back.dropWhile (isSlash true ·)) := by
    rcases splitScheme_last hsplit with rfl | ⟨login, rfl⟩
    · exact .inl rfl
    · exact .inr ⟨_, Text.dropWhile_mark rfl login []⟩
  simp only [parse_special_login hsplit hspecial hfile]
  exact afterSlashes_reading hlogin (sign_not_mem_closing hhost)

theorem parse_other_reading (hspecial : isSpecial scheme = false) (hhost : '@' ∉ host.toList) :
    Reading fun p => parse (Text.trim (loginText front host p)) := by
  have hlogin := splitScheme_login hsplit host
  rcases slashes_cases false (closing host.toList) (splitScheme_last hsplit) with
    ⟨a, b, login, rfl, ha, hb⟩ | hpath
  · obtain rfl : a = '/' := by simpa [isSlash] using ha
    obtain rfl : b = '/' := by simpa [isSlash] using hb
    have hparse := fun p => parse_other (hlogin p) hspecial
    simp only [hparse]
    exact afterSlashes_reading (.inr ⟨login, rfl⟩) (sign_not_mem_closing hhost)
  · apply Reading.of_parts
    intro p
    apply parse_opaque (hlogin p) _ hspecial
    intro tail htail
    have hslashes := hpath p '/' '/' tail htail
    cases hslashes

end

theorem parse_reading (front : String) (hhost : '@' ∉ host.toList) :
    Reading fun p => parse (Text.trim (loginText front host p)) := by
  cases hsplit : splitScheme (opening front.toList ++ [':']) with
  | none =>
    refine .login (.refused .relative fun p => parse_relative ?_)
    rw [splitScheme_loginText, hsplit]
    rfl
  | some r =>
    obtain ⟨scheme, back⟩ := r
    cases hspecial : isSpecial scheme with
    | false => exact parse_other_reading hsplit hspecial hhost
    | true =>
      cases hfile : isFile scheme with
      | false => exact parse_special_reading hsplit hspecial hfile hhost
      | true =>
        simp only [parse_file (splitScheme_login hsplit host _) hfile]
        exact fileUrl_reading (splitScheme_last hsplit) (closing host.toList)

theorem onlyPassword_of_refused (hhost : '@' ∉ host.toList) {p : Secret} {e : ParseError}
    (h : parse (Text.trim (loginText front host p)) = .error e) :
    OnlyPassword fun p => parse (Text.trim (loginText front host p)) := by
  cases parse_reading front hhost with
  | login hread => exact hread
  | path placed hread =>
    obtain ⟨url, hurl, -⟩ := hread p
    rw [hurl] at h
    cases h
  | user hread =>
    obtain ⟨url, hurl, -⟩ := hread p
    rw [hurl] at h
    cases h

def Conceals (front : String) : Prop :=
  ∀ scheme back, splitScheme (opening front.toList ++ [':']) = some (scheme, back) →
    LoginBehind scheme back

theorem opening_subset (cs : List Char) : opening cs ⊆ cs := by
  intro c hc
  have hdrop := (List.mem_filter.mp hc).1
  exact (List.dropWhile_suffix _).subset ((List.dropWhile_suffix _).subset hdrop)

theorem conceals_of_bare (hcolon : ':' ∉ front.toList)
    (hmark : ∃ c ∈ opening front.toList, isSchemeChar c = false) : Conceals front := by
  intro scheme back hsplit
  have hopening : ':' ∉ opening front.toList := fun h => hcolon (opening_subset _ h)
  obtain ⟨m, hm, hother⟩ := hmark
  generalize opening front.toList = cs at hsplit hopening hm
  cases cs with
  | nil => cases hm
  | cons c cs =>
    rw [splitScheme_colon] at hsplit
    split at hsplit
    · cases hrest : (c :: cs).dropWhile isSchemeChar with
      | nil =>
        have hall := List.dropWhile_eq_nil_iff.mp hrest m hm
        rw [hother] at hall
        cases hall
      | cons d ds =>
        have hd : d ≠ ':' := by
          rintro rfl
          apply hopening
          apply (List.dropWhile_suffix isSchemeChar).subset
          rw [hrest]
          exact List.mem_cons_self
        rw [hrest] at hsplit
        simp [hd] at hsplit
    · cases hsplit

theorem LoginBehind.of_inside (hin : ∀ c ∈ login, endsAuthority (isSpecial scheme) c = false) :
    LoginBehind scheme ('/' :: '/' :: (login ++ [':'])) := by
  cases hspecial : isSpecial scheme with
  | false =>
    rw [hspecial] at hin
    exact .other hspecial hin
  | true =>
    rw [hspecial] at hin
    cases hfile : isFile scheme with
    | true => exact .file hfile rfl rfl hin
    | false =>
      have hslashes : ∀ c ∈ ['/', '/'], isSlash true c = true := by simp [isSlash]
      exact .special hspecial hfile hslashes hin

theorem letter_start {c : Char} (h : isLetter c = true) :
    Text.isBlank c = false ∧ isC0OrSpace c = false := by
  have hascii : c.toNat < 0x80 := by
    simp only [isLetter, Char.le_def, Bool.or_eq_true, Bool.and_eq_true, decide_eq_true_eq] at h
    rcases h with h | h <;> exact Nat.lt_of_le_of_lt h.2 (by decide)
  apply Text.of_ascii (P := fun c => isLetter c = true →
    Text.isBlank c = false ∧ isC0OrSpace c = false) _ hascii h
  decide +kernel

theorem schemeChar_kept {c : Char} (h : isSchemeChar c = true) : (!isTabOrNewline c) = true := by
  cases hdropped : isTabOrNewline c with
  | false => rfl
  | true =>
    simp only [isTabOrNewline, Bool.or_eq_true, decide_eq_true_eq] at hdropped
    rcases hdropped with (rfl | rfl) | rfl <;> exact absurd h (by decide)

theorem parse_onlyPassword (h : Conceals front) (hhost : '@' ∉ host.toList) :
    OnlyPassword fun p => parse (Text.trim (loginText front host p)) := by
  have hds := sign_not_mem_closing hhost
  cases hsplit : splitScheme (opening front.toList ++ [':']) with
  | none =>
    refine .refused .relative fun p => parse_relative ?_
    rw [splitScheme_loginText, hsplit]
    rfl
  | some r =>
    obtain ⟨scheme, back⟩ := r
    have hlogin := splitScheme_login hsplit host
    cases h scheme back hsplit with
    | special hspecial hfile hslashes hin =>
      rename_i slashes login
      have hdrop : (slashes ++ (login ++ [':'])).dropWhile (isSlash true ·) = login ++ [':'] := by
        rw [List.dropWhile_append_of_pos hslashes]
        cases login with
        | nil => rfl
        | cons c login =>
          have hc := isSlash_of_inside (hin c List.mem_cons_self)
          exact List.dropWhile_cons_of_neg (by simp [hc])
      simp only [parse_special_login hsplit hspecial hfile, hdrop]
      exact afterSlashes_onlyPassword (by rwa [hspecial]) hds
    | file hfile ha hb hin =>
      have hparse := fun p => parse_file (hlogin p) hfile
      simp only [hparse]
      exact .refused _ (fileUrl_login ha hb hin (closing host.toList))
    | other hspecial hin =>
      have hparse := fun p => parse_other (hlogin p) hspecial
      simp only [hparse]
      exact afterSlashes_onlyPassword (by rwa [hspecial]) hds

section

variable {c : Char} {cs : List Char} (hc : isLetter c = true)
  (hcs : ∀ d ∈ c :: cs, isSchemeChar d = true)

include hc hcs

theorem opening_scheme (tail : List Char) :
    opening (c :: cs ++ tail) = c :: cs ++ tail.filter (!isTabOrNewline ·) := by
  obtain ⟨hblank, hc0⟩ := letter_start hc
  have hkept : (c :: cs).filter (!isTabOrNewline ·) = c :: cs :=
    List.filter_eq_self.mpr fun d hd => schemeChar_kept (hcs d hd)
  rw [opening, Text.trimLeft, List.cons_append, List.dropWhile_cons_of_neg (by simp [hblank]),
    List.dropWhile_cons_of_neg (by simp [hc0]), ← List.cons_append, List.filter_append, hkept]

theorem splitScheme_scheme (rest : List Char) :
    splitScheme (c :: cs ++ ':' :: rest) = some (Text.lowerChars (c :: cs), rest) := by
  have htake : (c :: cs ++ []).takeWhile isSchemeChar = c :: cs ++ [] :=
    List.takeWhile_append_of_pos hcs
  have hdrop : (c :: cs ++ []).dropWhile isSchemeChar = [] := List.dropWhile_append_of_pos hcs
  rw [List.append_nil] at htake hdrop
  rw [splitScheme_colon, if_pos hc, hdrop, htake]
  rfl

theorem conceals_of_scheme {user : List Char}
    (hfront : front.toList = c :: cs ++ ':' :: '/' :: '/' :: user)
    (hin : ∀ d ∈ user, endsAuthority (isSpecial (Text.lowerChars (c :: cs))) d = false) :
    Conceals front := by
  have hsplit : splitScheme (opening front.toList ++ [':']) = some (Text.lowerChars (c :: cs),
      '/' :: '/' :: (user.filter (!isTabOrNewline ·) ++ [':'])) := by
    rw [hfront, opening_scheme hc hcs, List.append_assoc]
    exact splitScheme_scheme hc hcs _
  intro scheme back hstart
  rw [hsplit] at hstart
  obtain ⟨rfl, rfl⟩ := Prod.mk.inj (Option.some.inj hstart)
  exact .of_inside fun d hd => hin d (List.mem_filter.mp hd).1

theorem parse_bare (hfront : front.toList = c :: cs)
    (hspecial : isSpecial (Text.lowerChars (c :: cs)) = false) (host : String) (p : Secret) :
    (parse (Text.trim (loginText front host p))).map parts =
      .ok (Text.lowerChars (c :: cs), none) := by
  have hsplit : splitScheme (opening front.toList ++ [':']) =
      some (Text.lowerChars (c :: cs), []) := by
    have hopening := opening_scheme hc hcs []
    rw [List.append_nil, List.filter_nil, List.append_nil] at hopening
    rw [hfront, hopening]
    exact splitScheme_scheme hc hcs []
  apply parse_opaque (splitScheme_login hsplit host p) _ hspecial
  intro tail htail
  have hslash : '/' ∈ p.chars := by
    obtain ⟨d, ds, hp, hd⟩ := p.exists_first
    rw [hp] at htail
    rwa [← (List.cons.inj htail).1]
  exact absurd (p.plain '/' hslash) (by decide)

end

end HttpRelay.Url
