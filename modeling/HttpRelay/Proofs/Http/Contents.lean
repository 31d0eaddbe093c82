import HttpRelay.Proofs.Http.ChunkedText

namespace HttpRelay

namespace Chunked

variable {s : State} {b c rest : Bytes} {n : Nat}

def behindChunk : Bytes → Option Bytes
  | 0x0d :: 0x0a :: next => some next
  | _ => none

theorem behindChunk_length {next : Bytes} (h : behindChunk b = some next) :
    next.length < b.length := by
  unfold behindChunk at h
  split at h
  · obtain rfl := Option.some.inj h
    simp only [List.length_cons]
    omega
  · cases h

/-- The payload in the first bytes of a body in chunks, up to the first place where they go
wrong: the data of each chunk, and of the last one as much as there is. -/
def contents (b : Bytes) : Bytes :=
  match _hs : SizeLine.scan b with
  | .more _ | .bad _ => []
  | .done size rest =>
    if size = 0 then []
    else rest.take size ++
      match _hn : behindChunk (rest.drop size) with
      | some next => contents next
      | none => []
termination_by b.length
decreasing_by
  have hrest := Wire.scan_rest_length _hs
  have hnext := behindChunk_length _hn
  rw [List.length_drop] at hnext
  omega

theorem contents_of_chunk (h : SizeLine.scan b = .done n rest) (hn : n ≠ 0) :
    contents b =
      rest.take n ++ ((behindChunk (rest.drop n)).map contents).getD [] := by
  rw [contents]
  split
  · simp_all
  · simp_all
  · rename_i size rest' hs
    rw [h, Wire.Scan.done.injEq] at hs
    obtain ⟨rfl, rfl⟩ := hs
    rw [if_neg hn]
    congr 1
    split <;> simp_all

theorem behindChunk_append {next : Bytes} (h : behindChunk b = some next) (c : Bytes) :
    behindChunk (b ++ c) = some (next ++ c) := by
  unfold behindChunk at h
  split at h
  · obtain rfl := Option.some.inj h
    rfl
  · cases h

theorem contents_append (b c : Bytes) : contents b <+: contents (b ++ c) := by
  fun_induction contents b with
  | case1 | case2 | case3 => exact List.nil_prefix
  | case4 b size rest hs hn ih =>
    have hs' : SizeLine.scan (b ++ c) = .done size (rest ++ c) := Wire.scan_append_of_done hs c
    rw [contents_of_chunk hs' hn]
    split
    · rename_i next hb
      have hnext := behindChunk_length hb
      rw [List.length_drop] at hnext
      have hge : size ≤ rest.length := by omega
      rw [List.take_append_of_le_length hge, List.drop_append_of_le_length hge,
        behindChunk_append hb, List.prefix_append_right_inj]
      exact ih next hb
    -- nothing is certain behind this chunk, which may even be cut short
    · rw [List.append_nil, List.take_append, List.append_assoc]
      exact List.prefix_append _ _

theorem payload_drain_trailers (h : decode s b = skipTrailers rest) :
    payload (drain s b).events = [] := by
  cases hf : (skipTrailers rest).found with
  | error fault =>
    rw [drain_of_fault (by rw [h, hf])]
    rfl
  | ok o =>
    cases o with
    | none =>
      rw [drain_of_waiting (by rw [h, hf])]
      rfl
    | some v =>
      obtain ⟨rfl, -⟩ := skipTrailers_event hf
      have hstate := (skipTrailers_state rest).mpr hf
      rw [drain_of_event (by rw [h, hf]), h, hstate, drain_of_waiting rfl]
      rfl

theorem payload_drain_dataEnd (b : Bytes) : payload (drain .dataEnd b).events =
    ((behindChunk b).map fun next => payload (drain .size next).events).getD [] := by
  unfold behindChunk
  split
  · rename_i next
    have hnext : drain .dataEnd (0x0d :: 0x0a :: next) = drain .size next := drain_congr rfl
    rw [hnext]
    rfl
  · rename_i hne
    have hnone : ∀ v, (decode .dataEnd b).found ≠ .ok (some v) := by
      intro v hv
      simp only [decode] at hv
      unfold readDataEnd at hv
      split at hv
      · exact absurd rfl (hne _)
      · cases hv
      · cases hv
    cases hf : (decode .dataEnd b).found with
    | error fault =>
      rw [drain_of_fault hf]
      rfl
    | ok o =>
      cases o with
      | none =>
        rw [drain_of_waiting hf]
        rfl
      | some v => exact absurd hf (hnone v)

theorem payload_drain_data (hn : n ≠ 0) (b : Bytes) : payload (drain (.data n) b).events =
    b.take n ++ payload (drain .dataEnd (b.drop n)).events := by
  have hnil : payload (drain .dataEnd []).events = [] := payload_drain_dataEnd []
  by_cases hb : b = []
  · rw [hb, drain_data_nil, List.take_nil, List.drop_nil, hnil]
    rfl
  rcases Nat.lt_or_ge b.length n with hlt | hge
  · have hle := Nat.le_of_lt hlt
    rw [drain_data_of_lt hb hlt, List.take_of_length_le hle, List.drop_of_length_le hle, hnil]
    rfl
  · rw [drain_data_of_le (Nat.pos_of_ne_zero hn) hge, drain_endPending]
    rfl

theorem payload_drain_size (b : Bytes) : payload (drain .size b).events = contents b := by
  fun_induction contents b with
  | case1 b stage hs =>
    have hwait : (decode .size b).found =
        if maxLine < b.length then .error .sizeTooLong else .ok none :=
      congrArg Reply.found (readSize_of_more hs)
    by_cases hlong : maxLine < b.length
    · rw [drain_of_fault (hwait.trans (if_pos hlong))]
      rfl
    · rw [drain_of_waiting (hwait.trans (if_neg hlong))]
      rfl
  | case2 b cause hs =>
    rw [drain_of_fault]
    · rfl
    · rw [decode, readSize, hs]
  | case3 b rest hs => exact payload_drain_trailers (readSize_of_zero hs)
  | case4 b size rest hs hn ih =>
    rw [drain_size_of_pos hs hn]
    refine (payload_drain_data hn rest).trans (congrArg (rest.take size ++ ·) ?_)
    rw [payload_drain_dataEnd]
    split
    · rename_i next hb
      rw [hb]
      exact ih next hb
    · rename_i hb
      rw [hb]
      rfl

theorem contents_chunks (cs : List ChunkText) (rest : Bytes) :
    contents (cs.flatMap ChunkText.bytes ++ rest) =
      cs.flatMap ChunkText.data ++ contents rest := by
  induction cs with
  | nil => rfl
  | cons c cs ih =>
    have hne : c.data.length ≠ 0 := by
      rw [ne_eq, List.length_eq_zero_iff]
      exact c.data_ne_nil
    have hscan := SizeLine.scan_size c.size
      (c.data ++ (crlf ++ (cs.flatMap ChunkText.bytes ++ rest)))
    rw [c.size_value] at hscan
    have hnext : ∀ next, behindChunk (crlf ++ next) = some next := fun _ => rfl
    rw [List.flatMap_cons, List.flatMap_cons, ChunkText.bytes, List.append_assoc,
      List.append_assoc, List.append_assoc, List.append_assoc, contents_of_chunk hscan hne,
      List.take_left, List.drop_left, hnext, Option.map_some, Option.getD_some, ih]

theorem contents_last {t : SizeText} (ht : t.value = 0) (rest : Bytes) :
    contents (t.bytes ++ rest) = [] := by
  have hscan := SizeLine.scan_size t rest
  rw [ht] at hscan
  rw [contents]
  split <;> simp_all

theorem contents_part {t : SizeText} {part : Bytes} (h : part.length ≤ t.value) :
    contents (t.bytes ++ part) = part := by
  by_cases ht : t.value = 0
  · obtain rfl : part = [] := List.length_eq_zero_iff.mp (by omega)
    exact contents_last ht []
  · rw [contents_of_chunk (SizeLine.scan_size t part) ht, List.take_of_length_le h,
      List.drop_of_length_le h]
    exact List.append_nil part

theorem contents_text (t : ChunkedText) (rest : Bytes) :
    contents (t.bytes ++ rest) = t.payload := by
  rw [ChunkedText.bytes, List.append_assoc, contents_chunks, List.append_assoc,
    contents_last t.last_value]
  exact List.append_nil _

example : contents "3\r\nabc\r\n5\r\nde".toUTF8.toList = "abcde".toUTF8.toList := by
  decide +kernel

end Chunked

namespace Framing

variable {f : Framing} {b : Bytes} {head : Head} {method : String}

def contents : Framing → Bytes → Bytes
  | chunked _, b => Chunked.contents b
  | length n, b => b.take n
  | untilClose, b => b
  | empty _, _ => []

def Fresh : Framing → Prop
  | chunked s => s = .size
  | empty reported => reported = false
  | length _ | untilClose => True

theorem fresh_of_ofHead (h : ofHead head method = .ok f) : f.Fresh := by
  unfold ofHead at h
  split at h
  · obtain rfl := Except.ok.inj h
    rfl
  · split at h
    · obtain rfl := Except.ok.inj h
      rfl
    · cases hn : head.contentLength with
      | error e =>
        rw [hn] at h
        cases h
      | ok n =>
        rw [hn] at h
        obtain rfl := Except.ok.inj h
        cases n <;> trivial

theorem Fresh.sound (h : f.Fresh) : f.Sound := by
  cases f with
  | chunked s =>
    obtain rfl : s = .size := h
    exact ⟨trivial, nofun⟩
  | _ => trivial

theorem payload_drain (h : f.Fresh) (b : Bytes) : (f.drain b).payload = f.contents b := by
  cases f with
  | chunked s =>
    obtain rfl : s = .size := h
    rw [payload_drain_chunked (by simp)]
    exact Chunked.payload_drain_size b
  | length n =>
    rcases Nat.lt_or_ge b.length n with hlt | hge
    · rw [(drain_length_of_lt hlt).1]
      exact (List.take_of_length_le (Nat.le_of_lt hlt)).symm
    · exact (drain_length_of_le hge).1
  | untilClose => exact (drain_untilClose b).1
  | empty reported =>
    obtain rfl : reported = false := h
    rw [drain_empty]
    rfl

theorem contents_append (f : Framing) (b c : Bytes) : f.contents b <+: f.contents (b ++ c) := by
  cases f with
  | chunked s => exact Chunked.contents_append b c
  | length n =>
    rw [contents, contents, List.take_append]
    exact List.prefix_append _ _
  | untilClose => exact List.prefix_append b c
  | empty reported => exact List.nil_prefix

end Framing

end HttpRelay
