import HttpRelay.Http.Framing
import HttpRelay.Proofs.Http.Codings
import HttpRelay.Proofs.Http.Lengths
import HttpRelay.Proofs.Text.Marks

namespace HttpRelay

namespace Fields

variable {fs : Fields} {n name other : String}

def merged (name : String) : Fields → Fields
  | [] => []
  | (n, v) :: rest =>
    if Text.sameName n name then
      (n, ", ".intercalate (v :: values rest name)) ::
        rest.filter fun f => !Text.sameName f.1 name
    else (n, v) :: merged name rest

theorem merged_of_same (h : Text.sameName n name = true) (v : String) (rest : Fields) :
    merged name ((n, v) :: rest) = (n, ", ".intercalate (v :: values rest name)) ::
      rest.filter fun f => !Text.sameName f.1 name := if_pos h

theorem merged_of_other (h : Text.sameName n name = false) (v : String) (rest : Fields) :
    merged name ((n, v) :: rest) = (n, v) :: merged name rest := if_neg (by simp [h])

theorem values_of_same (h : Text.sameName n name = true) (v : String) (rest : Fields) :
    values ((n, v) :: rest) name = v :: values rest name :=
  congrArg (List.map Prod.snd) (List.filter_cons_of_pos h)

theorem values_of_other (h : Text.sameName n name = false) (v : String) (rest : Fields) :
    values ((n, v) :: rest) name = values rest name :=
  congrArg (List.map Prod.snd) (List.filter_cons_of_neg (by simp [h]))

theorem first?_eq_head? (fs : Fields) (name : String) :
    fs.first? name = (fs.values name).head? := by
  rw [first?, values, List.head?_map, List.head?_filter]

theorem sameName_false_of_same (h : Text.sameName n name = true)
    (hother : Text.sameName other name = false) : Text.sameName n other = false := by
  rw [Text.sameName, beq_iff_eq] at h
  rw [Text.sameName, h, beq_eq_false_iff_ne]
  exact (beq_eq_false_iff_ne.mp hother).symm

theorem values_without (hother : Text.sameName other name = false) (fs : Fields) :
    values (fs.filter fun f => !Text.sameName f.1 name) other = values fs other := by
  rw [values, values, List.filter_filter]
  congr 1
  apply List.filter_congr
  intro f _
  cases hf : Text.sameName f.1 name with
  | false => exact Bool.and_true _
  | true => rw [sameName_false_of_same hf hother, Bool.false_and]

theorem values_merged (hother : Text.sameName other name = false) (fs : Fields) :
    (fs.merged name).values other = fs.values other := by
  induction fs with
  | nil => rfl
  | cons f rest ih =>
    obtain ⟨n, v⟩ := f
    cases hn : Text.sameName n name with
    | true =>
      have hn' := sameName_false_of_same hn hother
      rw [merged_of_same hn, values_of_other hn', values_of_other hn', values_without hother]
    | false =>
      rw [merged_of_other hn]
      cases hn' : Text.sameName n other with
      | true => rw [values_of_same hn', values_of_same hn', ih]
      | false => rw [values_of_other hn', values_of_other hn', ih]

theorem first?_merged (h : fs.values name ≠ []) :
    (fs.merged name).first? name = some (", ".intercalate (fs.values name)) := by
  induction fs with
  | nil => exact absurd rfl h
  | cons f rest ih =>
    obtain ⟨n, v⟩ := f
    rw [first?_eq_head?] at ih ⊢
    cases hn : Text.sameName n name with
    | true => rw [merged_of_same hn, values_of_same hn, values_of_same hn, List.head?_cons]
    | false =>
      rw [values_of_other hn] at h ⊢
      rw [merged_of_other hn, values_of_other hn, ih h]

theorem merged_of_few (h : (fs.values name).length ≤ 1) : fs.merged name = fs := by
  induction fs with
  | nil => rfl
  | cons f rest ih =>
    obtain ⟨n, v⟩ := f
    cases hn : Text.sameName n name with
    | true =>
      rw [values_of_same hn, List.length_cons] at h
      have hnone : values rest name = [] := List.eq_nil_of_length_eq_zero (by omega)
      have hkept : rest.filter (fun f => !Text.sameName f.1 name) = rest :=
        List.filter_eq_self.mpr fun f hf => by rw [values_eq_nil_iff.mp hnone f hf]; rfl
      rw [merged_of_same hn, hnone, hkept]
      rfl
    | false =>
      rw [values_of_other hn] at h
      rw [merged_of_other hn, ih h]

end Fields

namespace Head

def codingsMerged (head : Head) : Head :=
  { head with headers := head.headers.merged "Content-Encoding" }

def codingLines (head : Head) : List String := head.headers.values "Content-Encoding"

variable {head : Head}

theorem codingsMerged_of_few (h : head.codingLines.length ≤ 1) : head.codingsMerged = head := by
  rw [codingsMerged, Fields.merged_of_few h]

theorem contentEncoding_eq_head? (head : Head) :
    head.contentEncoding = head.codingLines.head? := Fields.first?_eq_head? _ _

theorem contentEncoding_codingsMerged (h : head.codingLines ≠ []) :
    head.codingsMerged.contentEncoding = some (", ".intercalate head.codingLines) :=
  Fields.first?_merged h

theorem ofHead_codingsMerged (head : Head) (method : String) :
    Framing.ofHead head.codingsMerged method = Framing.ofHead head method := by
  have htransfer : head.codingsMerged.transferCodings = head.transferCodings := by
    rw [transferCodings, transferCodings, codingsMerged, Fields.values_merged (by decide)]
  have hlength : head.codingsMerged.contentLength = head.contentLength := by
    rw [contentLength, contentLength, codingsMerged, Fields.values_merged (by decide)]
  rw [Framing.ofHead, Framing.ofHead, isChunked, isChunked, htransfer, hlength]
  rfl

end Head

namespace ContentCoding

variable {name value : String}

theorem comma_mem_normalize (h : ',' ∈ value.toList) :
    ',' ∈ (normalize (some value)).toList := by
  obtain ⟨front, back, hvalue⟩ := List.append_of_mem h
  have htrim : ',' ∈ Text.trimChars value.toList := by
    rw [Text.trimChars, hvalue, Text.trimLeft_mark (by decide), Text.trimRight_mark (by decide)]
    exact List.mem_append_right _ List.mem_cons_self
  rw [normalize, Text.lower, Text.trim, String.toList_ofList, String.toList_ofList]
  exact List.mem_map.mpr ⟨',', htrim, by decide⟩

theorem kind_of_comma (h : ',' ∈ name.toList) : kind name = .unknown := by
  have hne : ∀ known : String, ',' ∉ known.toList → name ≠ known := by
    rintro known hknown rfl
    exact hknown h
  unfold kind
  rw [if_neg (not_or.mpr ⟨hne _ (by decide), hne _ (by decide)⟩),
    if_neg (not_or.mpr ⟨hne _ (by decide), hne _ (by decide)⟩), if_neg (hne _ (by decide))]

theorem decode_of_comma (h : ',' ∈ value.toList) (limit : UInt64) (body : Bytes) :
    decode limit body (some value) = .error (.decompression (normalize (some value))
      "unsupported content encoding") := by
  rw [decode_eq, kind_of_comma (comma_mem_normalize h)]
  rfl

theorem comma_mem_intercalate {values : List String} (h : 2 ≤ values.length) :
    ',' ∈ (", ".intercalate values).toList := by
  match values with
  | first :: second :: rest =>
    rw [String.toList_intercalate, List.map_cons, List.map_cons, List.intercalate_cons_cons]
    exact List.mem_append_left _ (List.mem_append_right _ (by decide))

end ContentCoding

end HttpRelay
