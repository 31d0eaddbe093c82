import HttpRelay.Http.Request
import HttpRelay.Proofs.Net.EndpointText

namespace HttpRelay

namespace Endpoint

variable {d e : Endpoint}

theorem eq_of_parts (hhost : d.host = e.host) (hport : d.port = e.port) : d = e := by
  obtain ⟨host, port⟩ := d
  obtain ⟨host', port'⟩ := e
  exact (Endpoint.mk.injEq ..).mpr ⟨hhost, hport⟩

theorem hostPart_of_colon (h : ':' ∈ e.host.toList) :
    e.hostPart = '[' :: (e.host.toList ++ [']']) := if_pos h

theorem hostPart_of_plain (h : ':' ∉ e.host.toList) : e.hostPart = e.host.toList := if_neg h

theorem colon_mem_hostPart_iff : ':' ∈ e.hostPart ↔ ':' ∈ e.host.toList := by
  by_cases h : ':' ∈ e.host.toList
  · rw [hostPart_of_colon h]
    simp
  · rw [hostPart_of_plain h]

theorem hostPart_inj : d.hostPart = e.hostPart ↔ d.host = e.host := by
  constructor
  · intro h
    have hcolon : ':' ∈ d.host.toList ↔ ':' ∈ e.host.toList := by
      rw [← colon_mem_hostPart_iff, h, colon_mem_hostPart_iff]
    apply String.toList_inj.mp
    by_cases hd : ':' ∈ d.host.toList
    · rw [hostPart_of_colon hd, hostPart_of_colon (hcolon.mp hd)] at h
      exact List.append_cancel_right (List.cons.inj h).2
    · rwa [hostPart_of_plain hd, hostPart_of_plain (mt hcolon.mpr hd)] at h
  · intro h
    rw [hostPart, hostPart, h]

theorem authority_inj : d.authority = e.authority ↔ d = e := by
  constructor
  · intro h
    have hdigits := Text.decimal_toDigits d.port.toNat
    have hdigits' := Text.decimal_toDigits e.port.toNat
    have htext : d.authority.toList = e.authority.toList := by rw [h]
    rw [authority_toList, authority_toList] at htext
    obtain ⟨hpart, hport⟩ := Text.eq_of_last_mark htext (colon_not_mem_decimal hdigits)
      (colon_not_mem_decimal hdigits')
    rw [hport] at hdigits
    have hsame : d.port = e.port :=
      UInt16.toNat_inj.mp (hdigits.value.symm.trans hdigits'.value)
    exact eq_of_parts (hostPart_inj.mp hpart) hsame
  · exact congrArg authority

theorem hostPart_ne_authority (d e : Endpoint) : d.hostPart ≠ e.authority.toList := by
  intro h
  rw [authority_toList] at h
  have hcolon : ':' ∈ d.hostPart := by
    rw [h]
    simp
  obtain ⟨hne, hdigits, -⟩ := Text.decimal_toDigits e.port.toNat
  rw [hostPart_of_colon (colon_mem_hostPart_iff.mp hcolon), ← List.dropLast_concat_getLast hne,
    ← List.cons_append, ← List.cons_append, ← List.append_assoc] at h
  have hlast : [']'] = [_] := (List.append_inj' h rfl).2
  have hbracket := hdigits _ (List.getLast_mem hne)
  rw [← List.singleton_inj.mp hlast] at hbracket
  exact absurd hbracket (by decide)

theorem authority_of_usual (h : e.port = 443) :
    e.authority.toList = e.hostPart ++ [':', '4', '4', '3'] := by
  have hport : e.port.toNat = 443 := by
    rw [h]
    rfl
  rw [authority_toList, hport]
  rfl

def Hosts (e : Endpoint) (value : String) : Prop :=
  if e.port = 443 then value ++ ":443" = e.authority else value = e.authority

end Endpoint

namespace Request

open Endpoint (Hosts)

variable {r : Request} {d e : Endpoint}

theorem hostValue_of_usual (h : e.port = 443) : (hostValue e).toList = e.hostPart := by
  have hchars : e.authorityChars = e.hostPart ++ [':', '4', '4', '3'] := by
    rw [← Endpoint.authority_of_usual h, Endpoint.authority, String.toList_ofList]
  rw [hostValue, if_pos h, hchars, String.toList_ofList]
  simp

theorem hostValue_of_other (h : e.port ≠ 443) : hostValue e = e.authority := if_neg h

theorem hosts_hostValue (e : Endpoint) : e.Hosts (hostValue e) := by
  unfold Hosts
  split
  · rename_i h
    rw [← String.toList_inj, String.toList_append, hostValue_of_usual h,
      Endpoint.authority_of_usual h]
    rfl
  · rename_i h
    exact hostValue_of_other h

theorem hostValue_inj : hostValue d = hostValue e ↔ d = e := by
  constructor
  · intro h
    have htext : (hostValue d).toList = (hostValue e).toList := by rw [h]
    by_cases hd : d.port = 443 <;> by_cases he : e.port = 443
    · rw [hostValue_of_usual hd, hostValue_of_usual he] at htext
      exact Endpoint.eq_of_parts (Endpoint.hostPart_inj.mp htext) (hd.trans he.symm)
    · rw [hostValue_of_usual hd, hostValue_of_other he] at htext
      exact absurd htext (Endpoint.hostPart_ne_authority d e)
    · rw [hostValue_of_other hd, hostValue_of_usual he] at htext
      exact absurd htext.symm (Endpoint.hostPart_ne_authority e d)
    · rwa [hostValue_of_other hd, hostValue_of_other he, Endpoint.authority_inj] at h
  · exact congrArg hostValue

theorem withDefaultHost_of_named (h : r.headers.has "Host" = true) (e : Endpoint) :
    r.withDefaultHost e = r := if_pos h

theorem withDefaultHost_of_unnamed (h : r.headers.has "Host" = false) (e : Endpoint) :
    r.withDefaultHost e = { r with headers := ("Host", hostValue e) :: r.headers } :=
  if_neg (by simp [h])

theorem named_withDefaultHost (r : Request) (e : Endpoint) :
    (r.withDefaultHost e).headers.has "Host" = true := by
  cases h : r.headers.has "Host" with
  | true => rwa [withDefaultHost_of_named h]
  | false =>
    have hsame : Text.sameName "Host" "Host" = true := by decide
    rw [withDefaultHost_of_unnamed h, Fields.has, List.any_cons, hsame, Bool.true_or]

theorem header?_withDefaultHost (h : r.headers.has "Host" = false) (e : Endpoint) :
    (r.withDefaultHost e).header? "Host" = some (hostValue e) := by
  have hsame : Text.sameName "Host" "Host" = true := by decide
  rw [withDefaultHost_of_unnamed h]
  exact congrArg (Option.map Prod.snd) (List.find?_cons_of_pos hsame)

theorem isValue_of_visible {value : String}
    (h : ∀ c ∈ value.toList, Text.isVisible c = true) : isValue value = true := by
  apply List.all_eq_true.mpr
  intro c hc
  have hvisible := h c hc
  simp only [Bool.and_eq_true, decide_eq_true_eq]
  refine ⟨⟨?_, ?_⟩, ?_⟩
  · rintro rfl
    exact absurd hvisible (by decide)
  · rintro rfl
    exact absurd hvisible (by decide)
  · rintro rfl
    exact absurd hvisible (by decide)

theorem isValue_hostValue (h : e.validate = .ok ()) : isValue (hostValue e) = true := by
  have hnamed := Endpoint.validate_eq_ok_iff.mp h
  apply isValue_of_visible
  by_cases hport : e.port = 443
  · rw [hostValue_of_usual hport]
    exact Endpoint.hostPart_visible hnamed
  · rw [hostValue_of_other hport]
    exact Endpoint.authority_visible hnamed

theorem validate_withDefaultHost (h : e.validate = .ok ()) :
    (r.withDefaultHost e).validate = r.validate := by
  cases hnamed : r.headers.has "Host" with
  | true => rw [withDefaultHost_of_named hnamed]
  | false =>
    have hname : isName "Host" = true := by decide
    have hvalue := isValue_hostValue h
    rw [withDefaultHost_of_unnamed hnamed, validate, validate]
    simp only [validateFields, hname, hvalue, Bool.not_true, Bool.false_eq_true, if_false]

structure DefaultHost (r : Request) (e : Endpoint) : Prop where
  kept : r.headers.has "Host" = true → r.withDefaultHost e = r
  inserted : r.headers.has "Host" = false → ∃ value, e.Hosts value ∧
    r.withDefaultHost e = { r with headers := ("Host", value) :: r.headers }
  settled : ∀ d, (r.withDefaultHost e).withDefaultHost d = r.withDefaultHost e
  checked : e.validate = .ok () → (r.withDefaultHost e).validate = r.validate

theorem defaultHost (r : Request) (e : Endpoint) : DefaultHost r e where
  kept h := withDefaultHost_of_named h e
  inserted h := ⟨hostValue e, hosts_hostValue e, withDefaultHost_of_unnamed h e⟩
  settled d := withDefaultHost_of_named (named_withDefaultHost r e) d
  checked := validate_withDefaultHost

/-- No two endpoints have the same text, be it with the port or, as the host of a request, without
the one that is taken for granted. -/
theorem endpoints_told_apart :
    (∀ d e : Endpoint, d.authority = e.authority ↔ d = e) ∧
    (∀ (r s : Request) (d e : Endpoint), r.headers.has "Host" = false →
      s.headers.has "Host" = false →
        ((r.withDefaultHost d).header? "Host" = (s.withDefaultHost e).header? "Host" ↔ d = e)) ∧
    ∀ (r : Request) (e : Endpoint), DefaultHost r e := by
  refine ⟨?_, ?_, ?_⟩
  · exact fun d e => Endpoint.authority_inj
  · intro r s d e hr hs
    rw [header?_withDefaultHost hr, header?_withDefaultHost hs, Option.some_inj, hostValue_inj]
  · exact defaultHost

theorem endpoints_told_apart_ports : (get "/").headers.has "Host" = false ∧
    Endpoint.validate ⟨"::1", 443⟩ = .ok () ∧
    ((get "/").withDefaultHost ⟨"::1", 443⟩).header? "Host" ≠
      ((get "/").withDefaultHost ⟨"::1", 8443⟩).header? "Host" ∧
    ((get "/").withDefaultHost ⟨"::1", 443⟩).validate = (get "/").validate := by
  have hunnamed : (get "/").headers.has "Host" = false := rfl
  have hvalid : Endpoint.validate ⟨"::1", 443⟩ = .ok () := rfl
  obtain ⟨-, hdistinct, hdefault⟩ := endpoints_told_apart
  refine ⟨hunnamed, hvalid, ?_, (hdefault (get "/") _).checked hvalid⟩
  intro hsame
  have heq := (hdistinct (get "/") (get "/") _ _ hunnamed hunnamed).mp hsame
  exact absurd heq (by decide)

end Request

end HttpRelay
