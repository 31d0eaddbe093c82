import HttpRelay.Http.Framing
import HttpRelay.Proofs.Wire.Resume

namespace HttpRelay.Chunked

variable {s : State} {b : Bytes}

def Fault.isLimit : Fault → Bool
  | sizeTooLong | trailerTooLong => true
  | badSize _ | missingLineEnd _ => false

def State.Sound : State → Prop
  | data remaining => 0 < remaining
  | _ => True

theorem splitLine_append {line rest : Bytes} (h : splitLine b = some (line, rest))
    (c : Bytes) : splitLine (b ++ c) = some (line, rest ++ c) := by
  fun_induction splitLine b generalizing line with
  | case1 tail =>
    simp only [Option.some.injEq, Prod.mk.injEq] at h
    obtain ⟨rfl, rfl⟩ := h
    rfl
  | case2 x tail hne ih =>
    simp only [Option.map_eq_some_iff, Prod.mk.injEq, Prod.exists] at h
    obtain ⟨l, t, hl, rfl, rfl⟩ := h
    rw [List.cons_append, splitLine, ih hl]
    · rfl
    · intro r hx ht
      cases tail with
      | nil => simp [splitLine] at hl
      | cons y tail =>
        rw [List.cons_append, List.cons.injEq] at ht
        exact hne tail hx (by rw [ht.1])
  | case3 => simp at h

theorem skipTrailers_of_none (h : splitLine b = none) : skipTrailers b =
    ⟨if maxLine < b.length then .error .trailerTooLong else .ok none, .trailers, b⟩ := by
  rw [skipTrailers]
  split <;> simp_all

theorem skipTrailers_of_nil {rest : Bytes} (h : splitLine b = some ([], rest)) :
    skipTrailers b = ⟨.ok (some .done), .done, rest⟩ := by
  rw [skipTrailers]
  split <;> simp_all

theorem skipTrailers_of_cons {x : UInt8} {line rest : Bytes}
    (h : splitLine b = some (x :: line, rest)) : skipTrailers b = skipTrailers rest := by
  rw [skipTrailers]
  split <;> simp_all

theorem skipTrailers_append_of_waiting (h : (skipTrailers b).found = .ok none) (c : Bytes) :
    (skipTrailers b).state = .trailers ∧
      skipTrailers (b ++ c) = skipTrailers ((skipTrailers b).buffer ++ c) := by
  fun_induction skipTrailers b with
  | case1 => exact ⟨rfl, rfl⟩
  | case2 => simp at h
  | case3 b rest x line hs ih =>
    rw [skipTrailers_of_cons (splitLine_append hs c)]
    exact ih h

theorem skipTrailers_append_of_event {e : BodyEvent}
    (h : (skipTrailers b).found = .ok (some e)) (c : Bytes) :
    skipTrailers (b ++ c) =
      ⟨.ok (some e), (skipTrailers b).state, (skipTrailers b).buffer ++ c⟩ := by
  fun_induction skipTrailers b with
  | case1 b hs => split at h <;> simp at h
  | case2 b rest hs =>
    rw [skipTrailers_of_nil (splitLine_append hs c)]
    simpa using h
  | case3 b rest x line hs ih =>
    rw [skipTrailers_of_cons (splitLine_append hs c)]
    exact ih h

theorem skipTrailers_fault {f : Fault} (h : (skipTrailers b).found = .error f) :
    f.isLimit = true := by
  fun_induction skipTrailers b with
  | case1 b hs =>
    split at h
    · rw [Except.error.injEq] at h
      rw [← h]
      rfl
    · simp at h
  | case2 => simp at h
  | case3 b rest x line hs ih => exact ih h

theorem readSize_of_zero {rest : Bytes} (h : SizeLine.scan b = .done 0 rest) :
    readSize b = skipTrailers rest := by
  rw [readSize, h]
  rfl

theorem readSize_of_pos {n : Nat} {rest : Bytes} (h : SizeLine.scan b = .done n rest)
    (hn : n ≠ 0) : readSize b = ⟨.ok (some (.chunkStart n)), .data n, rest⟩ := by
  simp only [readSize, h]

theorem readSize_of_more {stage : SizeLine.Stage} (h : SizeLine.scan b = .more stage) :
    readSize b = ⟨if maxLine < b.length then .error .sizeTooLong else .ok none, .size, b⟩ := by
  rw [readSize, h]

theorem readSize_append_of_waiting (h : (readSize b).found = .ok none) (c : Bytes) :
    readSize (b ++ c) = decode (readSize b).state ((readSize b).buffer ++ c) := by
  unfold readSize at h ⊢
  unfold SizeLine.scan at h ⊢
  cases hs : Wire.scan SizeLine.step (.size 0 0) b with
  | more t => simp [decode, readSize, SizeLine.scan]
  | bad e => simp [hs] at h
  | done n rest =>
    rw [Wire.scan_append_of_done hs]
    cases n with
    | zero =>
      simp only [hs] at h ⊢
      obtain ⟨hstate, happ⟩ := skipTrailers_append_of_waiting h c
      rw [hstate, happ]
      rfl
    | succ n => simp [hs] at h

theorem readSize_append_of_event {e : BodyEvent} (h : (readSize b).found = .ok (some e))
    (c : Bytes) :
    readSize (b ++ c) = ⟨.ok (some e), (readSize b).state, (readSize b).buffer ++ c⟩ := by
  unfold readSize at h ⊢
  unfold SizeLine.scan at h ⊢
  cases hs : Wire.scan SizeLine.step (.size 0 0) b with
  | more t =>
    simp only [hs] at h
    split at h <;> simp at h
  | bad e => simp [hs] at h
  | done n rest =>
    rw [Wire.scan_append_of_done hs]
    cases n with
    | zero =>
      simp only [hs] at h ⊢
      exact skipTrailers_append_of_event h c
    | succ n =>
      simp only [hs] at h ⊢
      simpa using h

theorem readSize_append_of_fault {f : Fault} (h : (readSize b).found = .error f)
    (hf : f.isLimit = false) (c : Bytes) :
    ∃ g, (readSize (b ++ c)).found = .error g ∧ g.isLimit = false := by
  unfold readSize at h ⊢
  unfold SizeLine.scan at h ⊢
  cases hs : Wire.scan SizeLine.step (.size 0 0) b with
  | more t =>
    simp only [hs] at h
    split at h
    · rw [Except.error.injEq] at h
      simp [← h, Fault.isLimit] at hf
    · simp at h
  | bad e =>
    rw [Wire.scan_append_of_bad hs]
    exact ⟨_, rfl, rfl⟩
  | done n rest =>
    cases n with
    | zero =>
      simp only [hs] at h
      simp [skipTrailers_fault h] at hf
    | succ n => simp [hs] at h

theorem readData_of_le {n : Nat} (hn : 0 < n) (hb : n ≤ b.length) :
    readData n b = ⟨.ok (some (.data (b.take n))), .endPending, b.drop n⟩ := by
  have hne : b.isEmpty = false := by
    cases b with
    | nil => simp at hb; omega
    | cons => rfl
  simp [readData, hne, hb]

theorem readData_of_lt {n : Nat} (hb : b ≠ []) (hn : b.length < n) :
    readData n b = ⟨.ok (some (.data b)), .data (n - b.length), []⟩ := by
  have hle : b.length ≤ n := Nat.le_of_lt hn
  have hne : b.length ≠ n := Nat.ne_of_lt hn
  simp [readData, hb, List.take_of_length_le hle, hle, hne]

theorem decode_append_of_waiting (h : (decode s b).found = .ok none) (c : Bytes) :
    decode s (b ++ c) = decode (decode s b).state ((decode s b).buffer ++ c) := by
  cases s with
  | size => exact readSize_append_of_waiting h c
  | data n =>
    cases b with
    | nil => rfl
    | cons x b => simp [decode, readData] at h
  | endPending => simp [decode] at h
  | dataEnd =>
    simp only [decode] at h ⊢
    unfold readDataEnd at h ⊢
    split at h
    · rw [List.cons_append, List.cons_append]
      exact readSize_append_of_waiting h c
    · simp at h
    · rfl
  | trailers =>
    obtain ⟨hstate, happ⟩ := skipTrailers_append_of_waiting h c
    simp only [decode, hstate, happ]
  | done => rfl

theorem decode_append_of_event {e : BodyEvent} (h : (decode s b).found = .ok (some e))
    (hs : s.Sound) (hb : ∀ n, s = .data n → n ≤ b.length) (c : Bytes) :
    decode s (b ++ c) = ⟨.ok (some e), (decode s b).state, (decode s b).buffer ++ c⟩ := by
  cases s with
  | size => exact readSize_append_of_event h c
  | data n =>
    have hn := hb n rfl
    simp only [decode] at h ⊢
    rw [readData_of_le hs hn] at h ⊢
    rw [readData_of_le hs (by simp; omega)]
    simpa [List.take_append_of_le_length hn, List.drop_append_of_le_length hn] using h
  | endPending =>
    simp only [decode] at h ⊢
    simpa using h
  | dataEnd =>
    simp only [decode] at h ⊢
    unfold readDataEnd at h ⊢
    split at h
    · rw [List.cons_append, List.cons_append]
      exact readSize_append_of_event h c
    · simp at h
    · simp at h
  | trailers => exact skipTrailers_append_of_event h c
  | done => simp [decode] at h

theorem decode_append_of_fault {f : Fault} (h : (decode s b).found = .error f)
    (hf : f.isLimit = false) (c : Bytes) :
    ∃ g, (decode s (b ++ c)).found = .error g ∧ g.isLimit = false := by
  cases s with
  | size => exact readSize_append_of_fault h hf c
  | data n =>
    simp only [decode, readData] at h
    split at h <;> simp at h
  | endPending => simp [decode] at h
  | dataEnd =>
    simp only [decode] at h ⊢
    unfold readDataEnd at h ⊢
    split at h
    · rw [List.cons_append, List.cons_append]
      exact readSize_append_of_fault h hf c
    · rename_i x y b hxy
      rw [List.cons_append, List.cons_append]
      split
      · rename_i heq
        rw [List.cons.injEq, List.cons.injEq] at heq
        exact (hxy heq.1 heq.2.1).elim
      · exact ⟨_, rfl, rfl⟩
      · rename_i heq
        exact absurd rfl (heq _ _ _)
    · simp at h
  | trailers => simp [skipTrailers_fault h] at hf
  | done => simp [decode] at h

theorem skipTrailers_sound (b : Bytes) : (skipTrailers b).state.Sound := by
  fun_induction skipTrailers b with
  | case1 => trivial
  | case2 => trivial
  | case3 _ _ _ _ _ ih => exact ih

theorem readSize_sound (b : Bytes) : (readSize b).state.Sound := by
  unfold readSize
  split
  · exact skipTrailers_sound _
  · rename_i hn _
    exact Nat.pos_of_ne_zero hn
  · trivial
  · trivial

theorem decode_sound (hs : s.Sound) (b : Bytes) : (decode s b).state.Sound := by
  cases s with
  | size => exact readSize_sound b
  | data n =>
    by_cases hb : b = []
    · subst hb
      exact hs
    · rcases Nat.lt_or_ge b.length n with hlt | hge
      · simp only [decode, readData_of_lt hb hlt]
        exact Nat.sub_pos_of_lt hlt
      · simp only [decode, readData_of_le hs hge]
        trivial
  | endPending => trivial
  | dataEnd =>
    simp only [decode]
    unfold readDataEnd
    split
    · exact readSize_sound _
    · trivial
    · trivial
  | trailers => exact skipTrailers_sound b
  | done => trivial

theorem skipTrailers_event {e : BodyEvent} (h : (skipTrailers b).found = .ok (some e)) :
    e = .done ∧ (skipTrailers b).buffer.length < b.length := by
  fun_induction skipTrailers b with
  | case1 b hs => split at h <;> simp at h
  | case2 b rest hs =>
    have hl := splitLine_length hs
    refine ⟨by simpa [eq_comm] using h, ?_⟩
    dsimp only
    omega
  | case3 b rest x line hs ih =>
    have hl := splitLine_length hs
    have := ih h
    exact ⟨this.1, by omega⟩

theorem readSize_event {e : BodyEvent} (h : (readSize b).found = .ok (some e)) :
    (∀ bs, e ≠ .data bs) ∧ (readSize b).buffer.length < b.length := by
  unfold readSize at h ⊢
  split at h
  · rename_i rest hs
    have hl := Wire.scan_rest_length hs
    obtain ⟨rfl, hd⟩ := skipTrailers_event h
    exact ⟨by simp, by omega⟩
  · rename_i size rest _ hs
    have hl := Wire.scan_rest_length hs
    simp only [Except.ok.injEq, Option.some.injEq] at h
    exact ⟨by simp [← h], hl⟩
  · split at h <;> simp at h
  · simp at h

theorem decode_data_ne_nil (hs : s.Sound) {bs : Bytes}
    (h : (decode s b).found = .ok (some (.data bs))) : bs ≠ [] := by
  cases s with
  | size => exact absurd rfl ((readSize_event h).1 bs)
  | data n =>
    simp only [decode, readData] at h
    split at h
    · simp at h
    · rename_i hb
      simp only [Except.ok.injEq, Option.some.injEq, BodyEvent.data.injEq] at h
      rw [← h]
      simp only [ne_eq, List.take_eq_nil_iff, not_or]
      exact ⟨Nat.ne_of_gt hs, by simpa using hb⟩
  | endPending => simp [decode] at h
  | dataEnd =>
    simp only [decode] at h
    unfold readDataEnd at h
    split at h
    · exact absurd rfl ((readSize_event h).1 bs)
    · simp at h
    · simp at h
  | trailers => exact absurd (skipTrailers_event h).1 (by simp)
  | done => simp [decode] at h

theorem decode_shrinks {e : BodyEvent} (h : (decode s b).found = .ok (some e)) :
    Framing.weight (.chunked (decode s b).state) (decode s b).buffer <
      Framing.weight (.chunked s) b := by
  have hf : (Framing.decode (.chunked s) b).found = .ok (some e) :=
    Framing.found_ofChunkedReply.mpr h
  rcases Framing.decode_progress hf with rfl | hlt
  · apply Framing.weight_lt_of_length_lt
    cases s with
    | size => exact (readSize_event h).2
    | data n =>
      simp only [decode, readData] at h
      split at h <;> simp at h
    | endPending => simp [decode] at h
    | dataEnd =>
      simp only [decode] at h ⊢
      unfold readDataEnd at h ⊢
      split at h
      · have := (readSize_event h).2
        simp only [List.length_cons]
        omega
      · simp at h
      · simp at h
    | trailers => exact (skipTrailers_event h).2
    | done => simp [decode] at h
  · exact hlt

end HttpRelay.Chunked
