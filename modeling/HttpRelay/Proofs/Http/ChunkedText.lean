import HttpRelay.Proofs.Http.BodyFeeds
import HttpRelay.Proofs.Http.SizeLines

namespace HttpRelay

structure ChunkText where
  size : SizeText
  data : Bytes
  data_ne_nil : data ≠ []
  size_value : size.value = data.length
  size_short : size.bytes.length ≤ Chunked.maxLine

structure TrailerText where
  line : Bytes
  line_ne_nil : line ≠ []
  line_whole : ¬ [0x0d, 0x0a] <:+: line
  line_short : line.length + 2 ≤ Chunked.maxLine

structure ChunkedText where
  chunks : List ChunkText
  last : SizeText
  trailers : List TrailerText
  last_value : last.value = 0
  last_short : last.bytes.length ≤ Chunked.maxLine

def ChunkText.bytes (c : ChunkText) : Bytes := c.size.bytes ++ (c.data ++ crlf)

def ChunkText.events (c : ChunkText) : List BodyEvent :=
  [.chunkStart c.data.length, .data c.data, .chunkEnd]

def TrailerText.bytes (t : TrailerText) : Bytes := t.line ++ crlf

namespace ChunkedText

def bytes (t : ChunkedText) : Bytes :=
  t.chunks.flatMap ChunkText.bytes ++
    (t.last.bytes ++ (t.trailers.flatMap TrailerText.bytes ++ crlf))

def payload (t : ChunkedText) : Bytes := t.chunks.flatMap ChunkText.data

def events (t : ChunkedText) : List BodyEvent := t.chunks.flatMap ChunkText.events ++ [.done]

end ChunkedText

namespace Chunked

variable {s s' : State} {w x left : Bytes} {v : BodyEvent} {es : List BodyEvent}

structure Plain (s : State) (w : Bytes) (es : List BodyEvent) (left : Bytes) : Prop where
  whole : drain s w = ⟨es, none, .done, left⟩
  cut : ∀ p more, p ++ more = w → (drain s p).fault = none

theorem plain_done (w : Bytes) : Plain .done w [] w where
  whole := drain_of_waiting rfl
  cut p _ _ := by rw [drain_of_waiting rfl]

theorem Plain.event (h : Plain s' w es left)
    (hx : ∀ p, decode s (x ++ p) = ⟨.ok (some v), s', p⟩)
    (hcut : ∀ p ts, ts ≠ [] → p ++ ts = x → (drain s p).fault = none) :
    Plain s (x ++ w) (v :: es) left where
  whole := by
    have hf : (decode s (x ++ w)).found = .ok (some v) := by rw [hx]
    rw [drain_of_event hf, hx, h.whole]
    rfl
  cut p more hp := by
    rcases Wire.cut_cases hp with ⟨ts, hts, hxs, -⟩ | ⟨ts, rfl, hw⟩
    · exact hcut p ts hts hxs.symm
    · have hf : (decode s (x ++ ts)).found = .ok (some v) := by rw [hx]
      rw [drain_of_event hf, hx]
      exact h.cut ts more hw.symm

theorem Plain.skip (h : Plain s' w es left) (hx : ∀ p, decode s (x ++ p) = decode s' p)
    (hcut : ∀ p ts, ts ≠ [] → p ++ ts = x → (drain s p).fault = none) :
    Plain s (x ++ w) es left where
  whole := by rw [drain_congr (hx w), h.whole]
  cut p more hp := by
    rcases Wire.cut_cases hp with ⟨ts, hts, hxs, -⟩ | ⟨ts, rfl, hw⟩
    · exact hcut p ts hts hxs.symm
    · rw [drain_congr (hx ts)]
      exact h.cut ts more hw.symm

theorem size_cut (t : SizeText) (hl : t.bytes.length ≤ maxLine) (p ts : Bytes) (hts : ts ≠ [])
    (hp : p ++ ts = t.bytes) : (drain .size p).fault = none := by
  obtain ⟨stage, hstage⟩ :=
    SizeLine.scan_more_iff.mpr ⟨ts, hts, t.form, t.form_bytes.trans hp.symm⟩
  have hshort : ¬ maxLine < p.length := by
    have := congrArg List.length hp
    rw [List.length_append] at this
    omega
  rw [drain_of_waiting]
  rw [decode, readSize_of_more hstage, if_neg hshort]

theorem plain_size (t : SizeText) (hl : t.bytes.length ≤ maxLine) (hn : t.value ≠ 0)
    (h : Plain (.data t.value) w es left) :
    Plain .size (t.bytes ++ w) (.chunkStart t.value :: es) left :=
  h.event (fun p => readSize_of_pos (SizeLine.scan_size t p) hn) (size_cut t hl)

theorem plain_last (t : SizeText) (hl : t.bytes.length ≤ maxLine) (hn : t.value = 0)
    (h : Plain .trailers w es left) : Plain .size (t.bytes ++ w) es left := by
  refine h.skip (fun p => ?_) (size_cut t hl)
  have hscan := SizeLine.scan_size t p
  rw [hn] at hscan
  exact readSize_of_zero hscan

theorem plain_data {data : Bytes} (hd : data ≠ []) (h : Plain .endPending w es left) :
    Plain (.data data.length) (data ++ w) (.data data :: es) left := by
  refine h.event (fun p => ?_) ?_
  · rw [decode, readData_of_le (List.length_pos_iff.mpr hd) (by simp)]
    simp
  · rintro p ts hts rfl
    by_cases hp : p = []
    · rw [hp, drain_data_nil]
    · have hlt : p.length < (p ++ ts).length := by
        have := List.length_pos_iff.mpr hts
        rw [List.length_append]
        omega
      rw [drain_data_of_lt hp hlt]

theorem plain_chunkEnd (h : Plain .dataEnd w es left) :
    Plain .endPending w (.chunkEnd :: es) left := by
  refine Plain.event (x := []) h (fun p => rfl) ?_
  intro p ts hts hp
  exact absurd (List.append_eq_nil_iff.mp hp).2 hts

theorem plain_dataEnd (h : Plain .size w es left) : Plain .dataEnd (crlf ++ w) es left := by
  refine h.skip (fun p => rfl) ?_
  intro p ts hts hp
  rw [drain_of_waiting]
  match p, hp with
  | [], _ => rfl
  | [b], hp =>
    obtain rfl : b = 0x0d := (List.cons.inj hp).1
    rfl
  | _ :: _ :: _, hp => simp [crlf, hts] at hp

theorem splitLine_line {line : Bytes} (h : ¬ crlf <:+: line) (rest : Bytes) :
    splitLine (line ++ crlf ++ rest) = some (line, rest) := by
  induction line with
  | nil => rfl
  | cons b line ih =>
    have hline : ¬ crlf <:+: line := fun hin => h (hin.trans (List.suffix_cons b line).isInfix)
    rw [List.cons_append, List.cons_append, splitLine, ih hline]
    · rfl
    · intro tail hb htail
      cases line with
      | nil => cases htail
      | cons c line =>
        obtain rfl : c = 0x0a := (List.cons.inj htail).1
        subst hb
        exact h ⟨[], line, rfl⟩

theorem splitLine_cut {line p ts : Bytes} (h : ¬ crlf <:+: line) (hts : ts ≠ [])
    (hp : p ++ ts = line ++ crlf) : splitLine p = none := by
  cases hs : splitLine p with
  | none => rfl
  | some r =>
    have hline := splitLine_line h []
    rw [List.append_nil, ← hp, splitLine_append hs ts, Option.some.injEq, Prod.mk.injEq] at hline
    exact absurd (List.append_eq_nil_iff.mp hline.2).2 hts

theorem trailers_cut {line : Bytes} (h : ¬ crlf <:+: line) (hl : line.length + 2 ≤ maxLine)
    (p ts : Bytes) (hts : ts ≠ []) (hp : p ++ ts = line ++ crlf) :
    (drain .trailers p).fault = none := by
  have hshort : ¬ maxLine < p.length := by
    have := congrArg List.length hp
    simp only [List.length_append, crlf, List.length_cons, List.length_nil] at this
    omega
  rw [drain_of_waiting]
  rw [decode, skipTrailers_of_none (splitLine_cut h hts hp), if_neg hshort]

theorem plain_trailer (t : TrailerText) (h : Plain .trailers w es left) :
    Plain .trailers (t.bytes ++ w) es left := by
  refine h.skip (fun p => ?_) (trailers_cut t.line_whole t.line_short)
  obtain ⟨b, line, hline⟩ := List.exists_cons_of_ne_nil t.line_ne_nil
  have hsplit := splitLine_line t.line_whole p
  rw [hline] at hsplit
  rw [decode, TrailerText.bytes, hline, skipTrailers_of_cons hsplit]
  rfl

theorem plain_end (rest : Bytes) : Plain .trailers (crlf ++ rest) [.done] rest := by
  have hnil : ¬ crlf <:+: [] := by decide
  refine (plain_done rest).event (fun p => ?_) ?_
  · exact skipTrailers_of_nil (splitLine_line hnil p)
  · exact trailers_cut hnil (by decide)

end Chunked

namespace ChunkedText

open Chunked

variable {rest : Bytes}

theorem plain_trailers (ts : List TrailerText) (rest : Bytes) :
    Plain .trailers (ts.flatMap TrailerText.bytes ++ (crlf ++ rest)) [.done] rest := by
  induction ts with
  | nil => exact plain_end rest
  | cons t ts ih =>
    rw [List.flatMap_cons, List.append_assoc]
    exact plain_trailer t ih

theorem plain_chunk (c : ChunkText) {w : Bytes} {es : List BodyEvent} {left : Bytes}
    (h : Plain .size w es left) : Plain .size (c.bytes ++ w) (c.events ++ es) left := by
  have hn : c.size.value ≠ 0 := by
    rw [c.size_value]
    exact Nat.ne_of_gt (List.length_pos_iff.mpr c.data_ne_nil)
  have hdata := plain_data c.data_ne_nil (plain_chunkEnd (plain_dataEnd h))
  rw [← c.size_value] at hdata
  have hsize := plain_size c.size c.size_short hn hdata
  rw [ChunkText.bytes, ChunkText.events, ← c.size_value]
  simpa only [List.append_assoc, List.cons_append, List.nil_append] using hsize

theorem plain (t : ChunkedText) (rest : Bytes) : Plain .size (t.bytes ++ rest) t.events rest := by
  have hlast : Plain .size (t.last.bytes ++ (t.trailers.flatMap TrailerText.bytes ++
      (crlf ++ rest))) [.done] rest :=
    plain_last t.last t.last_short t.last_value (plain_trailers t.trailers rest)
  have hchunks : ∀ cs : List ChunkText, Plain .size (cs.flatMap ChunkText.bytes ++
      (t.last.bytes ++ (t.trailers.flatMap TrailerText.bytes ++ (crlf ++ rest))))
      (cs.flatMap ChunkText.events ++ [.done]) rest := by
    intro cs
    induction cs with
    | nil => exact hlast
    | cons c cs ih =>
      rw [List.flatMap_cons, List.flatMap_cons, List.append_assoc, List.append_assoc]
      exact plain_chunk c ih
  rw [bytes, events]
  simpa only [List.append_assoc] using hchunks t.chunks

theorem payload_events (t : ChunkedText) : Chunked.payload t.events = t.payload := by
  have hchunks : ∀ cs : List ChunkText,
      Chunked.payload (cs.flatMap ChunkText.events) = cs.flatMap ChunkText.data := by
    intro cs
    induction cs with
    | nil => rfl
    | cons c cs ih =>
      rw [List.flatMap_cons, List.flatMap_cons, Chunked.payload_append, ih]
      simp [Chunked.payload, ChunkText.events, BodyEvent.payload]
  rw [events, Chunked.payload_append, hchunks]
  exact List.append_nil _

theorem running (t : ChunkedText) {b more : Bytes} (h : b ++ more = t.bytes ++ rest) :
    (Framing.chunked .size).Running b more t.payload := by
  have hsize : State.size ≠ .done := by simp
  have hplain := t.plain rest
  rw [← h] at hplain
  refine ⟨⟨trivial, hsize⟩, ?_, ?_, ?_⟩
  · rw [Framing.drain_chunked hsize, hplain.whole]
    rfl
  · rw [Framing.payload_drain_chunked hsize, hplain.whole]
    exact t.payload_events
  · intro c rest hc e he
    have hfault := hplain.cut (b ++ c) rest (by rw [List.append_assoc, hc])
    rw [Framing.drain_chunked hsize] at he
    simp only [Framing.chunkedStop, hfault] at he
    split at he <;> cases he

end ChunkedText

end HttpRelay
