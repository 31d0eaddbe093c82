import Mathlib.Control.Monad.Basic
import HttpRelay.Net.Proxy
import HttpRelay.Proofs.Http.RequestText
import HttpRelay.Proofs.Outcomes
import HttpRelay.Proofs.Text.Sextets

namespace HttpRelay

def Credentials.ofBasic (value : String) : Option Credentials := do
  let token ← List.isPrefixOf? "Basic ".toList value.toList
  let bytes ← Base64.decode? token
  let (user, password) ← RequestText.cut [0x3a] bytes
  let user ← RequestText.text user
  let password ← RequestText.text password
  pure ⟨user, password⟩

structure Url.HasLogin (url : Url) (c : Credentials) : Prop where
  user : Percent.decode (Utf8.encode (String.ofList url.user)) = Utf8.encode c.user
  password : ∃ password, url.password? = some password ∧
    Percent.decode (Utf8.encode (String.ofList password)) = Utf8.encode c.password

namespace Credentials

variable {c d : Credentials} {front back : List Char}

def basicValue (c : Credentials) : String :=
  String.ofList ("Basic ".toList ++ Base64.encode (Utf8.encode (c.user ++ ":" ++ c.password)))

def joined (c : Credentials) : List Char := c.user.toList ++ ':' :: c.password.toList

theorem encode_joined (c : Credentials) :
    Utf8.encode (c.user ++ ":" ++ c.password) = RequestText.bytesOf c.joined := by
  have hmark : ":".toList = [':'] := rfl
  rw [Utf8.encode, RequestText.bytesOf, joined, String.toList_append, String.toList_append, hmark,
    List.append_assoc, List.singleton_append]

theorem basicValue_toList (c : Credentials) :
    c.basicValue.toList = "Basic ".toList ++ Base64.encode (RequestText.bytesOf c.joined) := by
  rw [← encode_joined]
  exact String.toList_ofList

theorem basicValue_eq_iff : c.basicValue = d.basicValue ↔ c.joined = d.joined := by
  rw [← String.toList_inj, basicValue_toList, basicValue_toList, List.append_right_inj,
    Base64.encode_inj, RequestText.bytesOf_inj]

theorem ofBasic_of_joined (h : c.joined = front ++ ':' :: back) (hfront : ':' ∉ front) :
    ofBasic c.basicValue = some ⟨String.ofList front, String.ofList back⟩ := by
  have htoken : List.isPrefixOf? "Basic ".toList c.basicValue.toList =
      some (Base64.encode (RequestText.bytesOf c.joined)) := by
    rw [basicValue_toList]
    rfl
  have hmark : RequestText.bytesOf c.joined =
      RequestText.bytesOf front ++ 0x3a :: RequestText.bytesOf back := by
    rw [h, RequestText.bytesOf_append]
    rfl
  have hcolon : (0x3a : UInt8) ∉ RequestText.bytesOf front := by
    apply RequestText.not_mem_bytesOf (by decide)
    rintro x hx hcode
    obtain rfl : x = ':' := Char.toNat_inj.mp hcode
    exact hfront hx
  have hfrontText := RequestText.text_bytesOf (String.ofList front)
  have hbackText := RequestText.text_bytesOf (String.ofList back)
  rw [String.toList_ofList] at hfrontText hbackText
  rw [ofBasic, htoken]
  simp only [Option.bind_eq_bind, Option.bind_some, Base64.decode?_encode, hmark,
    RequestText.cut_single hcolon, hfrontText, hbackText, Option.pure_def]

theorem ofBasic_basicValue_iff : ofBasic c.basicValue = some c ↔ ':' ∉ c.user.toList := by
  constructor
  · intro h hcolon
    obtain ⟨front, rest, huser, hfront⟩ := List.eq_append_cons_of_mem hcolon
    have hjoined : c.joined = front ++ ':' :: (rest ++ ':' :: c.password.toList) := by
      rw [joined, huser, List.append_assoc, List.cons_append]
    rw [ofBasic_of_joined hjoined hfront, Option.some_inj] at h
    have hlength := congrArg (fun c => c.user.toList.length) h
    simp only [String.toList_ofList, huser, List.length_append, List.length_cons] at hlength
    omega
  · intro hcolon
    rw [ofBasic_of_joined rfl hcolon, String.ofList_toList, String.ofList_toList]

end Credentials

namespace Proxy

variable {p q : Proxy} {c d : Credentials} {url : Url} {raw raw' : String}

theorem basicAuth_eq (p : Proxy) : p.basicAuth = p.credentials.map Credentials.basicValue := rfl

theorem decodePart_eq_ok_iff {cs : List Char} {t : String} : decodePart cs = .ok t ↔
    Percent.decode (Utf8.encode (String.ofList cs)) = Utf8.encode t := by
  rw [← Utf8.strict_eq_ok_iff, decodePart]
  cases Utf8.strict (Percent.decode (Utf8.encode (String.ofList cs))) with
  | ok text => simp
  | error fault => exact iff_of_false nofun nofun

theorem hasLogin_of_credentials (h : credentialsOf url = .ok (some c)) : url.HasLogin c := by
  unfold credentialsOf at h
  split at h
  · cases h
  · cases h
  · cases h
  · rename_i password hpassword _
    obtain ⟨u, hu, h⟩ := exists_of_bind h
    obtain ⟨w, hw, h⟩ := exists_of_bind h
    obtain rfl := Option.some.inj (Except.ok.inj h)
    exact ⟨decodePart_eq_ok_iff.mp hu, password, hpassword, decodePart_eq_ok_iff.mp hw⟩

theorem credentialsOf_of_parse (h : parse raw = .ok p) :
    ∃ url, Url.parse (Text.trim raw) = .ok url ∧ credentialsOf url = .ok p.credentials := by
  unfold parse at h
  cases hurl : Url.parse (Text.trim raw) with
  | error e =>
    rw [hurl] at h
    cases h
  | ok url =>
    rw [hurl] at h
    dsimp only at h
    cases hproxy : ofUrl url with
    | error e =>
      rw [hproxy] at h
      cases h
    | ok proxy =>
      rw [hproxy] at h
      obtain rfl := Except.ok.inj h
      refine ⟨url, rfl, ?_⟩
      rw [ofUrl] at hproxy
      dsimp only at hproxy
      split at hproxy
      · cases hproxy
      · obtain ⟨_, _, hproxy⟩ := exists_of_bind hproxy
        obtain ⟨_, _, hproxy⟩ := exists_of_bind hproxy
        obtain ⟨credentials, hcredentials, hproxy⟩ := exists_of_bind hproxy
        obtain rfl := Except.ok.inj hproxy
        exact hcredentials

/-- The credentials of a proxy are those of its URL, and whoever reads the value they are sent as
gets them back, unless a colon stands in the user. Two values are the same only for one text of
user and password. -/
theorem parse_credentials (h : parse raw = .ok p) (hc : p.credentials = some c) :
    (∃ url, Url.parse (Text.trim raw) = .ok url ∧ url.HasLogin c) ∧
    (∃ value, p.basicAuth = some value ∧
      (Credentials.ofBasic value = some c ↔ ':' ∉ c.user.toList)) ∧
    ∀ q : Proxy,
      (p.basicAuth = q.basicAuth ↔ ∃ d, q.credentials = some d ∧ c.joined = d.joined) ∧
      (':' ∉ c.user.toList → (∀ d, q.credentials = some d → ':' ∉ d.user.toList) →
        (p.basicAuth = q.basicAuth ↔ p.credentials = q.credentials)) := by
  have hvalue : p.basicAuth = some c.basicValue := by
    rw [basicAuth_eq, hc]
    rfl
  have hsame : ∀ q : Proxy, p.basicAuth = q.basicAuth ↔
      ∃ d, q.credentials = some d ∧ c.joined = d.joined := by
    intro q
    rw [hvalue, basicAuth_eq, eq_comm, Option.map_eq_some_iff]
    simp only [Credentials.basicValue_eq_iff, eq_comm]
  obtain ⟨url, hurl, hcredentials⟩ := credentialsOf_of_parse h
  rw [hc] at hcredentials
  refine ⟨⟨url, hurl, hasLogin_of_credentials hcredentials⟩,
    ⟨_, hvalue, Credentials.ofBasic_basicValue_iff⟩, fun q => ⟨hsame q, fun hcolon hq => ?_⟩⟩
  rw [hsame, hc]
  constructor
  · rintro ⟨d, hd, hjoined⟩
    have hread := Credentials.ofBasic_basicValue_iff.mpr hcolon
    rw [Credentials.basicValue_eq_iff.mpr hjoined,
      Credentials.ofBasic_basicValue_iff.mpr (hq d hd)] at hread
    rw [hd, hread]
  · intro hd
    exact ⟨c, hd.symm, rfl⟩

theorem parse_credentials_sample :
    ∃ p, parse "http://bob%40corp:p%3Ass@[::1]:3128" = .ok p ∧
      p.credentials = some ⟨"bob@corp", "p:ss"⟩ ∧
      ∃ value, p.basicAuth = some value ∧
        Credentials.ofBasic value = some ⟨"bob@corp", "p:ss"⟩ := by
  have hparse : parse "http://bob%40corp:p%3Ass@[::1]:3128" =
      .ok ⟨"http", "::1", 3128, some ⟨"bob@corp", "p:ss"⟩⟩ := by decide +kernel
  obtain ⟨-, ⟨value, hvalue, hread⟩, -⟩ := parse_credentials hparse rfl
  exact ⟨_, hparse, rfl, value, hvalue, hread.mpr (by decide)⟩

theorem basicAuth_moves_colon :
    parse "http://a%3Ab:c@[::1]:3128" = .ok ⟨"http", "::1", 3128, some ⟨"a:b", "c"⟩⟩ ∧
    parse "http://a:b%3Ac@[::1]:3128" = .ok ⟨"http", "::1", 3128, some ⟨"a", "b:c"⟩⟩ ∧
    basicAuth ⟨"http", "::1", 3128, some ⟨"a:b", "c"⟩⟩ = some "Basic YTpiOmM=" ∧
    basicAuth ⟨"http", "::1", 3128, some ⟨"a", "b:c"⟩⟩ = some "Basic YTpiOmM=" ∧
    Credentials.ofBasic "Basic YTpiOmM=" = some ⟨"a", "b:c"⟩ := by
  refine ⟨?_, ?_, ?_, ?_, ?_⟩ <;> decide +kernel

end Proxy

end HttpRelay
