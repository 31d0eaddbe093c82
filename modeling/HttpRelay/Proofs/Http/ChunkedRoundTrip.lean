import HttpRelay.Proofs.Http.ChunkedForm

namespace HttpRelay

namespace Chunked

variable {b : Bytes}

theorem drain_size {t : SizeForm} (h : t.value ≠ 0) (b : Bytes) :
    drain .size (t.bytes ++ b) = (drain (.data t.value) b).after [.chunkStart t.value] :=
  drain_size_of_pos (SizeLine.scan_bytes t b) h

theorem drain_last {t : SizeForm} (h : t.value = 0) (b : Bytes) :
    drain .size (t.bytes ++ b) = drain .trailers b := by
  have hscan := SizeLine.scan_bytes t b
  rw [h] at hscan
  exact drain_congr (readSize_of_zero hscan)

theorem drain_data {data : Bytes} (h : data ≠ []) (b : Bytes) :
    drain (.data data.length) (data ++ b) = (drain .endPending b).after [.data data] := by
  have hlen : data.length ≤ (data ++ b).length := by
    rw [List.length_append]
    exact Nat.le_add_right _ _
  rw [drain_data_of_le (List.length_pos_iff.mpr h) hlen, List.drop_left, List.take_left]

theorem drain_content (c : Block) (b : Bytes) :
    drain .size (c.size.bytes ++ (c.data ++ b)) =
      (drain .endPending b).after [.chunkStart c.size.value, .data c.data] := by
  have hvalue : c.size.value ≠ 0 := by
    rw [c.size_value]
    exact Nat.ne_of_gt (List.length_pos_iff.mpr c.data_ne_nil)
  rw [drain_size hvalue, c.size_value, drain_data c.data_ne_nil]
  rfl

theorem drain_blocks (cs : List Block) (b : Bytes) :
    drain .size (cs.flatMap Block.bytes ++ b) =
      (drain .size b).after (cs.flatMap Block.events) := by
  induction cs with
  | nil => rfl
  | cons c cs ih =>
    have hend : drain .dataEnd (crlf ++ (cs.flatMap Block.bytes ++ b)) =
        drain .size (cs.flatMap Block.bytes ++ b) := drain_congr rfl
    rw [List.flatMap_cons, Block.bytes, List.append_assoc, List.append_assoc, List.append_assoc,
      drain_content, drain_endPending, hend, ih]
    rfl

theorem drain_trailers (ts : List TrailerLine) (b : Bytes) :
    drain .trailers (ts.flatMap TrailerLine.bytes ++ b) = drain .trailers b := by
  induction ts with
  | nil => rfl
  | cons t ts ih =>
    obtain ⟨x, line, hline⟩ := List.exists_cons_of_ne_nil t.line_ne_nil
    have hsplit := splitLine_line t.line_whole (ts.flatMap TrailerLine.bytes ++ b)
    rw [hline] at hsplit
    rw [← ih, List.flatMap_cons, List.append_assoc, TrailerLine.bytes, hline]
    exact drain_congr (skipTrailers_of_cons hsplit)

theorem drain_end (b : Bytes) : drain .trailers (crlf ++ b) = (drain .done b).after [.done] := by
  have hd : decode .trailers (crlf ++ b) = ⟨.ok (some .done), .done, b⟩ := skipTrailers_of_nil rfl
  rw [drain_of_event (v := .done) (by rw [hd]), hd]

theorem Drained.after_after (d : Drained) (es fs : List BodyEvent) :
    (d.after fs).after es = d.after (es ++ fs) := by
  simp only [Drained.after, List.append_assoc]

theorem drain_form (t : BodyForm) (b : Bytes) :
    drain .size (t.bytes ++ b) = (drain .done b).after t.events := by
  rw [BodyForm.bytes, List.append_assoc, List.append_assoc, List.append_assoc, drain_blocks,
    drain_last t.last_value, drain_trailers, drain_end, Drained.after_after, BodyForm.events]

end Chunked

namespace SizeLine

def hexByte (c : Char) : UInt8 := c.toNat.toUInt8

def hexBytes (n : Nat) : Bytes := (Nat.toDigits 16 n).map hexByte

theorem digit_hexByte : ∀ d < 16, digit? (hexByte (Nat.digitChar d)) = some d := by decide

theorem number_append (v : Nat) (digits : Bytes) (b : UInt8) :
    SizeText.number v (digits ++ [b]) =
      16 * SizeText.number v digits + (digit? b).getD 0 := by
  induction digits generalizing v with
  | nil => rfl
  | cons c digits ih => exact ih _

theorem hexBytes_of_lt {n : Nat} (h : n < 16) : hexBytes n = [hexByte (Nat.digitChar n)] := by
  rw [hexBytes, Nat.toDigits_of_lt_base h]
  rfl

theorem hexBytes_of_le {n : Nat} (h : 16 ≤ n) :
    hexBytes n = hexBytes (n / 16) ++ [hexByte (Nat.digitChar (n % 16))] := by
  rw [hexBytes, Nat.toDigits_of_base_le (by decide) h, List.map_append]
  rfl

theorem number_hexBytes (n : Nat) : SizeText.number 0 (hexBytes n) = n := by
  induction n using Nat.strongRecOn with
  | ind n ih =>
    rcases Nat.lt_or_ge n 16 with hlt | hge
    · rw [hexBytes_of_lt hlt, SizeText.number, digit_hexByte n hlt]
      simp [SizeText.number]
    · have hmod := Nat.mod_lt n (show 0 < 16 by decide)
      rw [hexBytes_of_le hge, number_append, ih (n / 16) (by omega), digit_hexByte _ hmod]
      exact Nat.div_add_mod n 16

theorem digit_of_mem_hexBytes {n : Nat} {b : UInt8} (h : b ∈ hexBytes n) :
    (digit? b).isSome = true := by
  induction n using Nat.strongRecOn with
  | ind n ih =>
    rcases Nat.lt_or_ge n 16 with hlt | hge
    · rw [hexBytes_of_lt hlt, List.mem_singleton] at h
      rw [h, digit_hexByte n hlt]
      rfl
    · rw [hexBytes_of_le hge, List.mem_append, List.mem_singleton] at h
      rcases h with hfront | rfl
      · exact ih (n / 16) (by omega) hfront
      · rw [digit_hexByte _ (Nat.mod_lt n (by decide))]
        rfl

end SizeLine

theorem SizeForm.exists_value {n : Nat} (h : n < 2 ^ 64) :
    ∃ t : SizeForm, t.digits ≠ [] ∧ t.value = n := by
  have hne : SizeLine.hexBytes n ≠ [] := by
    rw [SizeLine.hexBytes, ne_eq, List.map_eq_nil_iff]
    exact Nat.toDigits_ne_nil
  have hle : (SizeLine.hexBytes n).length ≤ SizeLine.maxDigits := by
    rw [SizeLine.hexBytes, List.length_map]
    exact (Nat.length_toDigits_le_iff (by decide) (by decide)).mpr h
  refine ⟨⟨SizeLine.hexBytes n, ⟨[], none, nofun, nofun⟩, hle, ?_⟩, hne, ?_⟩
  · exact fun b hb => SizeLine.digit_of_mem_hexBytes hb
  · exact SizeLine.number_hexBytes n

theorem Block.exists_blocks (chunks : List Bytes)
    (h : ∀ c ∈ chunks, c ≠ [] ∧ c.length < 2 ^ 64) :
    ∃ blocks : List Block, blocks.map Block.data = chunks := by
  induction chunks with
  | nil => exact ⟨[], rfl⟩
  | cons c chunks ih =>
    obtain ⟨hc, hchunks⟩ := List.forall_mem_cons.mp h
    obtain ⟨blocks, rfl⟩ := ih hchunks
    obtain ⟨size, -, hvalue⟩ := SizeForm.exists_value hc.2
    exact ⟨⟨size, c, hc.1, hvalue⟩ :: blocks, rfl⟩

namespace Chunked

def chunkEvents (c : Bytes) : List BodyEvent := [.chunkStart c.length, .data c, .chunkEnd]

theorem events_of_data (cs : List Block) :
    cs.flatMap Block.events = (cs.map Block.data).flatMap chunkEvents := by
  have hevents : Block.events = fun c => chunkEvents c.data := by
    funext c
    rw [Block.events, c.size_value, chunkEvents]
  rw [List.flatMap_map, hevents]

/-- Chunks come out of a decoder as they were written, however their sizes are spelled and
whatever trailers follow, and the bytes behind them are left. Every list of chunks has such a
text. -/
theorem feed_encoded :
    (∀ (t : BodyForm) (rest : Bytes), feed .size [] [t.bytes ++ rest] =
      ⟨(t.blocks.map Block.data).flatMap chunkEvents ++ [.done], none, .done, rest⟩) ∧
    ∀ chunks : List Bytes, (∀ c ∈ chunks, c ≠ [] ∧ c.length < 2 ^ 64) →
      ∃ t : BodyForm, t.Numbered ∧ t.blocks.map Block.data = chunks := by
  constructor
  · intro t rest
    have hdrain : drain .size (t.bytes ++ rest) = ⟨t.events, none, .done, rest⟩ := by
      rw [drain_form, drain_of_waiting rfl]
      simp [Drained.after, decode]
    rw [← events_of_data]
    simp [feed, hdrain, Drained.after, BodyForm.events]
  · intro chunks h
    obtain ⟨blocks, hblocks⟩ := Block.exists_blocks chunks h
    obtain ⟨last, hnumbered, hlast⟩ := SizeForm.exists_value (n := 0) (by decide)
    exact ⟨⟨blocks, last, [], hlast⟩, hnumbered, hblocks⟩

def disguised : List Bytes := ["\r\n0\r\n\r\n".toUTF8.toList, "5;x\r\n".toUTF8.toList]

theorem feed_encoded_disguised : (∀ c ∈ disguised, c ≠ [] ∧ c.length < 2 ^ 64) ∧
    ∃ t : BodyForm, t.Numbered ∧ ∀ rest, feed .size [] [t.bytes ++ rest] =
      ⟨disguised.flatMap chunkEvents ++ [.done], none, .done, rest⟩ := by
  have hchunks : ∀ c ∈ disguised, c ≠ [] ∧ c.length < 2 ^ 64 := by decide +kernel
  obtain ⟨t, hnumbered, ht⟩ := feed_encoded.2 disguised hchunks
  have hfeed := feed_encoded.1 t
  rw [ht] at hfeed
  exact ⟨hchunks, t, hnumbered, hfeed⟩

end Chunked

end HttpRelay
