import HttpRelay.Proofs.Exchange.Delivery
import HttpRelay.Proofs.Http.Lengths
import HttpRelay.Proofs.Text.Marks

namespace HttpRelay

namespace Head

variable {head : Head} {coding : List Char}

def codingList (h : Head) : List (List Char) :=
  let lines := (h.headers.values "Transfer-Encoding").map String.toList
  (([','].intercalate lines).splitOn ',').map Text.trimChars

def codings (h : Head) : List (List Char) := h.codingList.filter (· ≠ [])

def namesChunks (coding : List Char) : Bool := Text.lowerChars coding == "chunked".toList

def endsInChunks (h : Head) : Bool := h.codings.getLast?.any namesChunks

theorem exists_last_coding (head : Head) :
    ∃ coding, head.codingList.getLast? = some coding := by
  apply Option.isSome_iff_exists.mp
  apply List.getLast?_isSome.mpr
  exact mt List.map_eq_nil_iff.mp (List.splitOn_ne_nil _ _)

theorem codingList_of_absent (h : head.headers.values "Transfer-Encoding" = []) :
    head.codingList = [[]] := by
  rw [codingList, h]
  rfl

theorem codingList_eq (h : head.headers.values "Transfer-Encoding" ≠ []) :
    head.codingList = head.transferCodings.map Text.trimChars := by
  have hlines : (head.headers.values "Transfer-Encoding").map String.toList ≠ [] :=
    mt List.map_eq_nil_iff.mp h
  rw [codingList, Text.splitOn_intercalate_of_ne_nil hlines, List.flatMap_map, transferCodings]
  simp only [Text.splitAll_eq_splitOn]

theorem isChunked_eq (head : Head) :
    head.isChunked = head.codingList.getLast?.any namesChunks := by
  by_cases habsent : head.headers.values "Transfer-Encoding" = []
  · rw [codingList_of_absent habsent, isChunked, transferCodings, habsent]
    rfl
  · rw [codingList_eq habsent, List.getLast?_map, Option.any_map, isChunked]
    cases head.transferCodings.getLast? <;> rfl

theorem codings_of_last (h : head.codingList.getLast? = some coding) (hne : coding ≠ []) :
    head.codings.getLast? = some coding := by
  obtain ⟨front, hlist⟩ := List.getLast?_eq_some_iff.mp h
  rw [codings, hlist, List.filter_append, List.filter_cons_of_pos (by simpa using hne),
    List.filter_nil, List.getLast?_concat]

theorem isChunked_iff :
    head.isChunked = true ↔ head.endsInChunks = true ∧ head.codingList.getLast? ≠ some [] := by
  obtain ⟨coding, hlast⟩ := head.exists_last_coding
  rw [isChunked_eq, endsInChunks, hlast]
  by_cases hempty : coding = []
  · subst hempty
    exact iff_of_false nofun fun hboth => hboth.2 rfl
  · rw [codings_of_last hlast hempty]
    exact (and_iff_left fun heq => hempty (Option.some.inj heq)).symm

theorem not_endsInChunks_of_absent (h : head.headers.values "Transfer-Encoding" = []) :
    head.endsInChunks = false := by
  rw [endsInChunks, codings, codingList_of_absent h]
  rfl

end Head

theorem Fields.has_eq_false_iff {fs : Fields} {name : String} :
    fs.has name = false ↔ ∀ f ∈ fs, Text.sameName f.1 name = false := by
  simp only [has, List.any_eq_false, Bool.not_eq_true]

namespace Framing

variable {head : Head} {method : String}

def byLength (head : Head) : Except Failure Framing :=
  head.contentLength.map fun
    | some n => .length n
    | none => .untilClose

def prescribed (head : Head) (method : String) : Except Failure Framing :=
  if Text.lowerChars method.toList = "head".toList ∨ head.status.toNat / 100 = 1 ∨
      head.status = 204 ∨ head.status = 304 then .ok (.empty false)
  else if head.headers.has "Transfer-Encoding" then
    .ok (if head.endsInChunks then .chunked .size else .untilClose)
  else byLength head

theorem byLength_ne_chunked (s : Chunked.State) : byLength head ≠ .ok (.chunked s) := by
  rw [byLength]
  cases head.contentLength with
  | error e => nofun
  | ok o => cases o <;> nofun

theorem byLength_eq_untilClose_iff :
    byLength head = .ok .untilClose ↔ head.headers.has "Content-Length" = false := by
  rw [Fields.has_eq_false_iff, ← Head.contentLength_eq_none_iff, byLength]
  cases head.contentLength with
  | error e => exact iff_of_false nofun nofun
  | ok o =>
    cases o with
    | none => exact iff_of_true rfl rfl
    | some n => exact iff_of_false nofun nofun

/-- A body whose codings are passed over: chunks stand in front of an empty element at the end of
the list, or other codings meet a declared length. -/
structure Overlooks (head : Head) (method : String) : Prop where
  body : ¬ head.IsBodiless method
  coded : head.headers.has "Transfer-Encoding" = true
  hidden : head.endsInChunks = true ∧ head.codingList.getLast? = some [] ∨
    head.endsInChunks = false ∧ head.headers.has "Content-Length" = true

theorem ofHead_of_absent (hbody : ¬ head.IsBodiless method)
    (habsent : head.headers.has "Transfer-Encoding" = false) :
    ofHead head method = byLength head := by
  have hvalues := Fields.values_eq_nil_iff.mpr (Fields.has_eq_false_iff.mp habsent)
  have hplain : ¬ head.isChunked = true := by
    rw [Head.isChunked_iff, Head.not_endsInChunks_of_absent hvalues]
    nofun
  rw [Head.ofHead_of_body hbody, if_neg hplain]
  rfl

theorem isBodiless_iff {status : UInt16} :
    isBodiless status = true ↔ status.toNat / 100 = 1 ∨ status = 204 ∨ status = 304 := by
  have hinformal : (100 ≤ status ∧ status < 200) ↔ status.toNat / 100 = 1 := by
    rw [UInt16.le_iff_toNat_le, UInt16.lt_iff_toNat_lt]
    change 100 ≤ status.toNat ∧ status.toNat < 200 ↔ _
    omega
  simp [isBodiless, ← hinformal, or_assoc]

theorem isBodiless_method_iff : head.IsBodiless method ↔
    Text.lowerChars method.toList = "head".toList ∨ head.status.toNat / 100 = 1 ∨
      head.status = 204 ∨ head.status = 304 := by
  rw [Head.IsBodiless, isBodiless_iff, Text.sameName, beq_iff_eq]
  exact Iff.rfl

theorem prescribed_of_bodiless (h : head.IsBodiless method) :
    prescribed head method = .ok (.empty false) := if_pos (isBodiless_method_iff.mp h)

theorem prescribed_of_body (hbody : ¬ head.IsBodiless method) : prescribed head method =
    if head.headers.has "Transfer-Encoding" then
      .ok (if head.endsInChunks then .chunked .size else .untilClose)
    else byLength head := if_neg (mt isBodiless_method_iff.mpr hbody)

theorem Overlooks.ofHead_eq (h : Overlooks head method) : ofHead head method = byLength head := by
  have hplain : ¬ head.isChunked = true := by
    rw [Head.isChunked_iff]
    rintro ⟨hends, hlast⟩
    rcases h.hidden with ⟨-, hempty⟩ | ⟨hnot, -⟩
    · exact hlast hempty
    · rw [hnot] at hends
      cases hends
  rw [Head.ofHead_of_body h.body, if_neg hplain]
  rfl

theorem Overlooks.ofHead_ne (h : Overlooks head method) :
    ofHead head method ≠ prescribed head method := by
  rw [h.ofHead_eq, prescribed_of_body h.body, if_pos h.coded]
  rcases h.hidden with ⟨hends, -⟩ | ⟨hnot, hlength⟩
  · rw [if_pos hends]
    exact byLength_ne_chunked .size
  · rw [hnot, ne_eq]
    refine mt byLength_eq_untilClose_iff.mp ?_
    rw [hlength]
    nofun

theorem ofHead_eq_of_coded (hbody : ¬ head.IsBodiless method)
    (hcoded : head.headers.has "Transfer-Encoding" = true) (h : ¬ Overlooks head method) :
    ofHead head method = prescribed head method := by
  rw [prescribed_of_body hbody, if_pos hcoded, Head.ofHead_of_body hbody]
  cases hends : head.endsInChunks with
  | true =>
    have hlast : head.codingList.getLast? ≠ some [] :=
      fun hempty => h ⟨hbody, hcoded, .inl ⟨hends, hempty⟩⟩
    rw [if_pos (Head.isChunked_iff.mpr ⟨hends, hlast⟩), if_pos rfl]
  | false =>
    have hplain : ¬ head.isChunked = true := by
      rw [Head.isChunked_iff, hends]
      nofun
    have hlength : head.headers.has "Content-Length" = false := by
      apply eq_false_of_ne_true
      exact fun hlength => h ⟨hbody, hcoded, .inr ⟨hends, hlength⟩⟩
    rw [if_neg hplain]
    exact byLength_eq_untilClose_iff.mpr hlength

/-- A body is framed as the standard prescribes, unless its codings are overlooked; then it is
framed by its length as if there were none. -/
theorem ofHead_prescribed (head : Head) (method : String) :
    (ofHead head method = prescribed head method ↔ ¬ Overlooks head method) ∧
    (Overlooks head method → ofHead head method = byLength head) := by
  refine ⟨⟨fun heq h => h.ofHead_ne heq, fun h => ?_⟩, Overlooks.ofHead_eq⟩
  by_cases hbody : head.IsBodiless method
  · rw [Head.ofHead_of_bodiless hbody, prescribed_of_bodiless hbody]
  · cases hcoded : head.headers.has "Transfer-Encoding" with
    | true => exact ofHead_eq_of_coded hbody hcoded h
    | false =>
      rw [ofHead_of_absent hbody hcoded, prescribed_of_body hbody, hcoded]
      rfl

def zipped : Head := .new 200 "OK" [("Transfer-Encoding", "gzip"), ("Content-Length", "5")]

def trailed : Head := .new 200 "OK" [("transfer-encoding", "gzip, Chunked , ")]

theorem ofHead_prescribed_sample : Overlooks zipped "GET" ∧
    (ofHead zipped "GET" = prescribed zipped "GET" ↔ ¬ Overlooks zipped "GET") ∧
    ofHead zipped "GET" = byLength zipped := by
  have hbody : ¬ zipped.IsBodiless "GET" := by
    rw [Head.IsBodiless]
    decide +kernel
  have h : Overlooks zipped "GET" := ⟨hbody, by decide +kernel, by decide +kernel⟩
  exact ⟨h, (ofHead_prescribed zipped "GET").1, (ofHead_prescribed zipped "GET").2 h⟩

theorem ofHead_passes_codings :
    ofHead zipped "GET" = .ok (.length 5) ∧ prescribed zipped "GET" = .ok .untilClose ∧
    ofHead trailed "GET" = .ok .untilClose ∧ prescribed trailed "GET" = .ok (.chunked .size) :=
  ⟨rfl, rfl, rfl, rfl⟩

end Framing

end HttpRelay
