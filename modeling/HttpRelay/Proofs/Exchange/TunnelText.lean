import HttpRelay.Proofs.Exchange.Tunnels
import HttpRelay.Proofs.Net.EndpointText
import HttpRelay.Proofs.Net.ProxyCredentials

namespace HttpRelay

section Plain

def Plain (cs : List Char) : Prop := ∀ c ∈ cs, Text.isVisible c = true ∨ c = ' '

variable {cs ds : List Char}

instance (cs : List Char) : Decidable (Plain cs) :=
  decidable_of_iff (cs.all fun c => Text.isVisible c || c = ' ') (by simp [Plain])

theorem Plain.append (h : Plain cs) (h' : Plain ds) : Plain (cs ++ ds) := by
  intro c hc
  rcases List.mem_append.mp hc with hc | hc
  · exact h c hc
  · exact h' c hc

theorem plain_of_visible (h : ∀ c ∈ cs, Text.isVisible c = true) : Plain cs :=
  fun c hc => .inl (h c hc)

theorem Plain.not_mem (h : Plain cs) {b : UInt8} (hb : b.toNat < 0x80)
    (hmark : ∀ c, Text.isVisible c = true ∨ c = ' ' → c.toNat ≠ b.toNat) :
    b ∉ RequestText.bytesOf cs :=
  RequestText.not_mem_bytesOf hb fun c hc => hmark c (h c hc)

theorem Plain.unbroken (h : Plain cs) :
    0x0d ∉ RequestText.bytesOf cs ∧ 0x0a ∉ RequestText.bytesOf cs := by
  constructor
  · apply h.not_mem (by decide)
    rintro c (hc | rfl)
    · exact RequestText.char_ne (d := '\r') (by rintro rfl; exact absurd hc (by decide))
    · decide
  · apply h.not_mem (by decide)
    rintro c (hc | rfl)
    · exact RequestText.char_ne (d := '\n') (by rintro rfl; exact absurd hc (by decide))
    · decide

theorem spaces_of_visible (h : ∀ c ∈ cs, Text.isVisible c = true) :
    (RequestText.bytesOf cs).count 0x20 = 0 := by
  apply List.count_eq_zero.mpr
  apply RequestText.not_mem_bytesOf (by decide)
  intro c hc
  exact RequestText.char_ne (d := ' ') (RequestText.ne_of_visible (h c hc)).2

end Plain

namespace Endpoint

def Unwritable (host : String) : Prop :=
  host = "" ∨ ∃ c ∈ host.toList, Text.isControl c = true ∨ Text.isBlank c = true

theorem not_named_iff {host : String} : ¬ Named host.toList ↔ Unwritable host := by
  have hvisible : (∀ c ∈ host.toList, Text.isVisible c = true) ↔
      ¬ ∃ c ∈ host.toList, Text.isControl c = true ∨ Text.isBlank c = true := by
    simp [Text.isVisible]
  have hempty : host.toList ≠ [] ↔ host ≠ "" := by
    rw [ne_eq, String.toList_eq_nil_iff]
  have hnamed : Named host.toList ↔
      host.toList ≠ [] ∧ ∀ c ∈ host.toList, Text.isVisible c = true :=
    ⟨fun h => ⟨h.ne_nil, h.visible⟩, fun h => ⟨h.1, h.2⟩⟩
  rw [hnamed, hvisible, hempty, ← not_or, not_not, Unwritable]

end Endpoint

namespace Proxy

open RequestText (bytesOf)

variable {proxy : Proxy} {target : Endpoint}

def tunnelRequest (proxy : Proxy) (target : Endpoint) : Request where
  method := "CONNECT"
  target := target.authority
  headers := ("Host", target.authority) ::
    (proxy.credentials.map fun c => ("Proxy-Authorization", c.basicValue)).toList
  body := []

def tunnelLines (proxy : Proxy) (target : Endpoint) : List String :=
  ("CONNECT " ++ target.authority ++ " HTTP/1.1") :: ("Host: " ++ target.authority) ::
    (proxy.credentials.map fun c => "Proxy-Authorization: " ++ c.basicValue).toList

structure AsksForTunnel (proxy : Proxy) (target : Endpoint) (bytes : Bytes) : Prop where
  lines : bytes = (proxy.tunnelLines target).flatMap (Utf8.encode · ++ crlf) ++ crlf
  unbroken : ∀ line ∈ proxy.tunnelLines target,
    0x0d ∉ Utf8.encode line ∧ 0x0a ∉ Utf8.encode line
  spaces : (Utf8.encode ("CONNECT " ++ target.authority ++ " HTTP/1.1")).count 0x20 = 2
  reads : RequestText.read bytes = some ⟨"CONNECT", target.authority, "HTTP/1.1",
    (proxy.tunnelRequest target).headers, []⟩

theorem connectRequest_of_error {e : Failure} (h : target.validate = .error e) :
    proxy.connectRequest target = .error e := by
  rw [connectRequest, h]
  rfl

theorem announced_tunnelRequest (proxy : Proxy) (target : Endpoint) :
    (proxy.tunnelRequest target).announced = (proxy.tunnelRequest target).headers := rfl

theorem connectRequest_eq (proxy : Proxy) (h : target.validate = .ok ()) : ∃ text : String,
    proxy.connectRequest target = .ok text ∧
      text.toList = (proxy.tunnelRequest target).headChars := by
  have hword : ∀ s : String, toString s = s := fun _ => rfl
  rw [connectRequest, h]
  refine ⟨_, rfl, ?_⟩
  rw [Request.headChars, announced_tunnelRequest, tunnelRequest, basicAuth_eq]
  cases proxy.credentials with
  | none => simp [Request.fieldChars, Request.lineEnd, hword]
  | some c => simp [Request.fieldChars, Request.lineEnd, hword]

theorem encode_requestLine (proxy : Proxy) (target : Endpoint) :
    Utf8.encode ("CONNECT " ++ target.authority ++ " HTTP/1.1") =
      RequestText.requestLine (proxy.tunnelRequest target) := by
  have hspace : ∀ cs, bytesOf (' ' :: cs) = 0x20 :: bytesOf cs := fun _ => rfl
  have hfront : "CONNECT ".toList = "CONNECT".toList ++ [' '] := by decide
  have hback : " HTTP/1.1".toList = ' ' :: "HTTP/1.1".toList := by decide
  rw [Utf8.encode, ← bytesOf, String.toList_append, String.toList_append, hfront, hback]
  simp only [RequestText.bytesOf_append, hspace, RequestText.requestLine, tunnelRequest,
    List.append_assoc, List.singleton_append]
  rfl

theorem encode_fieldLine (name value : String) :
    Utf8.encode (name ++ ": " ++ value) = RequestText.fieldLine (name, value) := by
  have hmark : bytesOf ": ".toList = [0x3a, 0x20] := by decide
  rw [Utf8.encode, ← bytesOf, String.toList_append, String.toList_append, RequestText.bytesOf_append,
    RequestText.bytesOf_append, hmark, RequestText.fieldLine, List.append_assoc]
  rfl

theorem encode_tunnelLines (proxy : Proxy) (target : Endpoint) :
    (proxy.tunnelLines target).map Utf8.encode =
      RequestText.requestLine (proxy.tunnelRequest target) ::
        (proxy.tunnelRequest target).announced.map RequestText.fieldLine := by
  rw [tunnelLines, List.map_cons, encode_requestLine proxy, announced_tunnelRequest, tunnelRequest]
  have hhost : Utf8.encode ("Host: " ++ target.authority) =
      RequestText.fieldLine ("Host", target.authority) := encode_fieldLine "Host" target.authority
  rw [List.map_cons, hhost, List.map_cons]
  cases proxy.credentials with
  | none => rfl
  | some c =>
    have hcredentials : Utf8.encode ("Proxy-Authorization: " ++ c.basicValue) =
        RequestText.fieldLine ("Proxy-Authorization", c.basicValue) :=
      encode_fieldLine "Proxy-Authorization" c.basicValue
    simp [hcredentials]

theorem plain_basicValue (c : Credentials) : Plain c.basicValue.toList := by
  rw [Credentials.basicValue_toList]
  apply Plain.append (by decide)
  exact plain_of_visible fun _ hd => Base64.visible_of_mem_encode hd

theorem plain_tunnelLines (h : Endpoint.Named target.host.toList) :
    ∀ line ∈ proxy.tunnelLines target, Plain line.toList := by
  have hauthority := plain_of_visible (Endpoint.authority_visible h)
  intro line hline
  rw [tunnelLines, List.mem_cons, List.mem_cons, Option.mem_toList, Option.map_eq_some_iff] at hline
  rcases hline with rfl | rfl | ⟨c, -, rfl⟩
  · rw [String.toList_append, String.toList_append]
    exact Plain.append (Plain.append (by decide) hauthority) (by decide)
  · rw [String.toList_append]
    exact Plain.append (by decide) hauthority
  · rw [String.toList_append]
    exact Plain.append (by decide) (plain_basicValue c)

theorem isWord_authority (h : Endpoint.Named target.host.toList) :
    Request.isWord target.authority = true :=
  List.all_eq_true.mpr (Endpoint.authority_visible h)

theorem clean_tunnelRequest (h : Endpoint.Named target.host.toList) :
    ∀ f ∈ (proxy.tunnelRequest target).announced, RequestText.Clean f := by
  have hvalue : ∀ {cs : List Char}, Plain cs → ∀ c ∈ cs, c ≠ '\r' := by
    rintro cs hcs c hc rfl
    exact absurd (hcs '\r' hc) (by decide)
  intro f hf
  rw [announced_tunnelRequest, tunnelRequest, List.mem_cons, Option.mem_toList,
    Option.map_eq_some_iff] at hf
  rcases hf with rfl | ⟨c, -, rfl⟩
  · apply RequestText.clean_named (by decide)
    exact hvalue (plain_of_visible (Endpoint.authority_visible h))
  · apply RequestText.clean_named (by decide)
    exact hvalue (plain_basicValue c)

theorem count_spaces (h : Endpoint.Named target.host.toList) :
    (RequestText.requestLine (proxy.tunnelRequest target)).count 0x20 = 2 := by
  have hauthority := spaces_of_visible (Endpoint.authority_visible h)
  have hmethod : (bytesOf "CONNECT".toList).count 0x20 = 0 := by decide
  have hversion : (bytesOf "HTTP/1.1".toList).count 0x20 = 0 := by decide
  rw [RequestText.requestLine, tunnelRequest, List.count_append, List.count_cons_self,
    List.count_append, List.count_cons_self, hauthority, hmethod, hversion]

theorem asksForTunnel {text : String} (h : Endpoint.Named target.host.toList)
    (htext : text.toList = (proxy.tunnelRequest target).headChars) :
    proxy.AsksForTunnel target (Utf8.encode text) where
  lines := by
    rw [Utf8.encode, htext, ← bytesOf, RequestText.bytesOf_headChars, ← encode_tunnelLines,
      List.flatMap_map]
  unbroken line hline := (plain_tunnelLines h line hline).unbroken
  spaces := by
    rw [encode_requestLine proxy]
    exact count_spaces h
  reads := by
    have hmethod : Request.isWord "CONNECT" = true := by decide
    have hread := RequestText.read_headChars (r := proxy.tunnelRequest target) hmethod
      (isWord_authority h) (clean_tunnelRequest h)
    have hbody : (proxy.tunnelRequest target).body = [] := rfl
    rw [hbody, List.append_nil, ← htext] at hread
    rw [Utf8.encode, ← bytesOf, hread, ← announced_tunnelRequest, ← RequestText.headers_sent]
    rfl

/-- A request for a tunnel fails only for a host that is empty or holds a control character or a
blank; whatever the credentials, any other one asks for that one tunnel and nothing else. -/
theorem connectRequest_whole (proxy : Proxy) (target : Endpoint) :
    match proxy.connectRequest target with
    | .error e => Endpoint.Unwritable target.host ∧ ∃ reason, e = .invalidRequest reason
    | .ok text => ¬ Endpoint.Unwritable target.host ∧
        proxy.AsksForTunnel target (Utf8.encode text) := by
  cases hvalid : target.validate with
  | error e =>
    rw [connectRequest_of_error hvalid]
    refine ⟨Endpoint.not_named_iff.mp fun hnamed => ?_, validate_error hvalid⟩
    rw [Endpoint.validate_eq_ok_iff.mpr hnamed] at hvalid
    cases hvalid
  | ok _ =>
    have hnamed := Endpoint.validate_eq_ok_iff.mp hvalid
    obtain ⟨text, hok, htext⟩ := connectRequest_eq proxy hvalid
    rw [hok]
    exact ⟨fun h => Endpoint.not_named_iff.mpr h hnamed, asksForTunnel hnamed htext⟩

end Proxy

end HttpRelay
