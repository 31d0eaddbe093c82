import HttpRelay.Proofs.Url.Logins
import Mathlib.Data.List.TakeWhile

namespace HttpRelay.Url

variable {scheme rest ds login user held : List Char} {special : Bool} {a b c : Char} {s : String}
  {url : Url}

theorem parse_relative (h : splitScheme (prepare s.toList) = none) : parse s = .error .relative := by
  rw [parse, h]

theorem parse_file (h : splitScheme (prepare s.toList) = some (scheme, rest))
    (hfile : isFile scheme = true) : parse s = fileUrl rest := by
  rw [parse, h]
  exact if_pos hfile

theorem parse_special (h : splitScheme (prepare s.toList) = some (scheme, rest))
    (hfile : isFile scheme = false) (hspecial : isSpecial scheme = true) :
    parse s = afterSlashes scheme (rest.dropWhile (isSlash true ·)) := by
  rw [parse, h]
  dsimp only
  rw [hfile, hspecial]
  rfl

theorem isFile_of_other (hspecial : isSpecial scheme = false) : isFile scheme = false :=
  (Bool.or_eq_false_iff.mp hspecial).2

theorem parse_other (h : splitScheme (prepare s.toList) = some (scheme, '/' :: '/' :: rest))
    (hspecial : isSpecial scheme = false) : parse s = afterSlashes scheme rest := by
  rw [parse, h]
  dsimp only
  rw [isFile_of_other hspecial, hspecial]
  rfl

def parts (url : Url) : List Char × Option Authority := (url.scheme, url.authority)

theorem parse_opaque (h : splitScheme (prepare s.toList) = some (scheme, rest))
    (hrest : ∀ tail, rest ≠ '/' :: '/' :: tail) (hspecial : isSpecial scheme = false) :
    (parse s).map parts = .ok (scheme, none) := by
  rw [parse, h]
  dsimp only
  rw [isFile_of_other hspecial, hspecial, if_neg Bool.false_ne_true, if_neg Bool.false_ne_true]
  split
  · exact absurd rfl (hrest _)
  · rfl
  · rfl

theorem afterSlashes_parts (scheme cs : List Char) : (afterSlashes scheme cs).map parts =
    (readAuthority scheme (splitAuthority (isSpecial scheme) cs).1
      (splitAuthority (isSpecial scheme) cs).2.isEmpty).map fun a => (scheme, some a) := by
  rw [afterSlashes]
  dsimp only
  cases readAuthority scheme (splitAuthority (isSpecial scheme) cs).1
    (splitAuthority (isSpecial scheme) cs).2.isEmpty <;> rfl

def fileHost (cs : List Char) : Except ParseError (List Char) :=
  if isDriveLetter cs || cs.isEmpty then .ok []
  else (specialHost cs).map fun host => if host = "localhost".toList then [] else host

def inFront (c : Char) : Bool := c ≠ '?' && c ≠ '#'

theorem splitTail_front (special : Bool) (cs : List Char) :
    (splitTail special cs).1 = cs.takeWhile inFront := by
  have hmark : ∀ cs : List Char, (splitTail special cs).1 =
      (((Text.splitFirst '#' cs).map (·.1)).getD cs).takeWhile (· ≠ '?') := by
    intro cs
    rw [← Text.splitFirst_takeWhile, splitTail]
    cases Text.splitFirst '#' cs with
    | none =>
      dsimp only [Option.map_none, Option.getD_none]
      cases Text.splitFirst '?' cs <;> rfl
    | some r =>
      dsimp only [Option.map_some, Option.getD_some]
      cases Text.splitFirst '?' r.1 <;> rfl
  rw [hmark, Text.splitFirst_takeWhile, List.takeWhile_takeWhile]
  congr 1
  funext c
  simp [inFront]

theorem takeWhile_inFront (cs : List Char) : (cs.takeWhile inFront).takeWhile (!isSlash true ·) =
    cs.takeWhile (!endsAuthority true ·) := by
  rw [List.takeWhile_takeWhile]
  congr 1
  funext c
  simp only [isSlash, inFront, endsAuthority]
  grind

theorem inFront_of_slash (h : isSlash true c = true) : inFront c = true := by
  simp only [isSlash, Bool.true_and, Bool.or_eq_true, decide_eq_true_eq] at h
  rcases h with rfl | rfl <;> rfl

theorem fileUrl_host (ha : isSlash true a = true) (hb : isSlash true b = true)
    (rest : List Char) : (fileUrl (a :: b :: rest)).map parts =
      (fileHost (rest.takeWhile (!endsAuthority true ·))).map fun host =>
        ("file".toList, some ⟨[], none, host, none⟩) := by
  have hfront : (splitTail true (a :: b :: rest)).1 = a :: b :: rest.takeWhile inFront := by
    rw [splitTail_front, List.takeWhile_cons_of_pos (inFront_of_slash ha),
      List.takeWhile_cons_of_pos (inFront_of_slash hb)]
  rw [fileUrl.eq_def]
  dsimp only
  rw [hfront]
  dsimp only
  rw [ha, hb, takeWhile_inFront, fileHost]
  generalize rest.takeWhile (!endsAuthority true ·) = hostText
  cases isDriveLetter hostText with
  | true => rfl
  | false =>
    cases hostText with
    | nil => rfl
    | cons c cs => cases specialHost (c :: cs) <;> rfl

theorem fileUrl_path {cs : List Char} (h : ∀ a b rest, cs = a :: b :: rest →
    (isSlash true a && isSlash true b) = false) :
    (fileUrl cs).map parts = .ok ("file".toList, some ⟨[], none, [], none⟩) := by
  rw [fileUrl.eq_def]
  dsimp only
  split
  · rename_i a b rest hfront
    rw [splitTail_front] at hfront
    have hprefix := List.takeWhile_prefix inFront (l := cs)
    rw [hfront] at hprefix
    obtain ⟨back, hcs⟩ := hprefix
    rw [h a b (rest ++ back) hcs.symm]
    rfl
  · rfl

def hostedUrl (scheme user ds : List Char) : Except ParseError Url := do
  let (front, tail) := splitAuthority (isSpecial scheme) ds
  let (host, number) ← hostAndPort scheme front
  let (path, query, fragment) := splitTail (isSpecial scheme) tail
  pure ⟨scheme, some ⟨Percent.encode inUserSet user, none, host, number⟩,
    pathAfterAuthority (isSpecial scheme) false path, query, fragment⟩

theorem hostedUrl_authority (h : hostedUrl scheme user ds = .ok url) : url.authority.isSome := by
  rw [hostedUrl] at h
  dsimp only at h
  cases hhost : hostAndPort scheme (splitAuthority (isSpecial scheme) ds).1 with
  | error e =>
    rw [hhost] at h
    cases h
  | ok r =>
    rw [hhost] at h
    obtain rfl := Except.ok.inj h
    rfl

theorem afterSlashes_login (hu : ':' ∉ user)
    (hin : ∀ c ∈ user ++ ':' :: held, endsAuthority (isSpecial scheme) c = false) (hds : '@' ∉ ds)
    (p : Secret) : afterSlashes scheme (user ++ ':' :: held ++ p.chars ++ '@' :: ds) =
      (hostedUrl scheme user ds).map
        (·.withPassword (Percent.encode inUserSet held ++ p.chars)) := by
  have hlogin : ∀ c ∈ user ++ ':' :: held ++ p.chars,
      endsAuthority (isSpecial scheme) c = false := by
    intro c hc
    rcases List.mem_append.mp hc with hc | hc
    · exact hin c hc
    · exact p.inside _ c hc
  have hne : user ++ ':' :: held ++ p.chars ≠ [] := by simp
  have hinfo : userInfo (user ++ ':' :: held ++ p.chars) =
      (Percent.encode inUserSet user, some (Percent.encode inUserSet held ++ p.chars)) := by
    rw [List.append_assoc, List.cons_append]
    exact userInfo_login hu held p
  have hfront : '@' ∉ (splitAuthority (isSpecial scheme) ds).1 :=
    fun h => hds ((splitAuthority_front _ ds).subset h)
  rw [afterSlashes, splitAuthority_login hlogin hds]
  dsimp only
  rw [readAuthority_login hne hinfo rfl hfront, hostedUrl]
  dsimp only
  cases hostAndPort scheme (splitAuthority (isSpecial scheme) ds).1 <;> rfl

theorem endsAuthority_colon (special : Bool) : endsAuthority special ':' = false := by
  cases special <;> decide

theorem isSlash_of_inside {c : Char} (h : endsAuthority special c = false) :
    isSlash special c = false := by
  simp only [endsAuthority, Bool.or_eq_false_iff] at h
  rw [isSlash, h.1.1.1, h.2]
  rfl

theorem isDriveLetter_of_length {cs : List Char} (h : 2 < cs.length) : isDriveLetter cs = false := by
  rw [isDriveLetter]
  rintro a b rfl
  exact absurd h (Nat.lt_irrefl 2)

theorem exists_ending (h : ¬ ∀ c ∈ login, endsAuthority special c = false) :
    ∃ front c back, login = front ++ c :: back ∧ endsAuthority special c = true := by
  have hsome : ∃ c ∈ login, endsAuthority special c = true := by
    by_contra hnone
    exact h fun c hc => Bool.eq_false_iff.mpr fun hends => hnone ⟨c, hc, hends⟩
  obtain ⟨c, hmem, hc⟩ := hsome
  obtain ⟨front, back, hlogin⟩ := List.append_of_mem hmem
  exact ⟨front, c, back, hlogin, hc⟩

theorem afterSlashes_ended (hc : endsAuthority (isSpecial scheme) c = true) (cs : List Char) :
    (afterSlashes scheme (login ++ c :: cs)).map parts =
      (afterSlashes scheme (login ++ [c])).map parts := by
  have hstop : (!endsAuthority (isSpecial scheme) c) = false := by simp [hc]
  have hback : ∀ rest,
      (splitAuthority (isSpecial scheme) (login ++ c :: rest)).2.isEmpty = false := by
    intro rest
    rw [splitAuthority, Text.dropWhile_mark hstop]
    simp
  have hfront : ∀ rest, (splitAuthority (isSpecial scheme) (login ++ c :: rest)).1 =
      (splitAuthority (isSpecial scheme) login).1 := by
    intro rest
    rw [splitAuthority, splitAuthority, Text.takeWhile_mark hstop]
  rw [afterSlashes_parts, afterSlashes_parts, hback, hback, hfront, hfront]

theorem afterSlashes_secret (hds : '@' ∉ ds) (p : Secret) :
    (afterSlashes scheme (p.chars ++ '@' :: ds)).map parts =
      (hostAndPort scheme (splitAuthority (isSpecial scheme) ds).1).map fun r =>
        (scheme, some ⟨p.chars, none, r.1, r.2⟩) := by
  have hfront : '@' ∉ (splitAuthority (isSpecial scheme) ds).1 :=
    fun hmem => hds ((splitAuthority_front _ ds).subset hmem)
  have hsome : ((none : Option (List Char)).isSome || !p.chars.isEmpty) = true := by
    simp [p.ne_nil]
  rw [afterSlashes_parts, splitAuthority_login (p.inside _) hds]
  dsimp only
  rw [readAuthority_login p.ne_nil (userInfo_secret p) hsome hfront]
  cases hostAndPort scheme (splitAuthority (isSpecial scheme) ds).1 <;> rfl

end HttpRelay.Url
