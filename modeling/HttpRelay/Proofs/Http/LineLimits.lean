import HttpRelay.Proofs.Http.ChunkedRoundTrip

namespace HttpRelay.Chunked

variable {s : State} {b w front part missing line rest : Bytes} {es : List BodyEvent} {f : Fault}

theorem Taken.stop (h : Taken s w es) (b : Bytes) :
    (drain .size (w ++ b)).stop = (drain s b).stop := by
  cases h with
  | size cs =>
    rw [drain_blocks]
    rfl
  | data cs size part n hn hsize =>
    have hvalue : size.value ≠ 0 := by
      rw [hsize]
      exact Nat.ne_of_gt (Nat.add_pos_right _ hn)
    rw [List.append_assoc, List.append_assoc, drain_blocks, drain_size hvalue]
    change (drain (.data size.value) (part ++ b)).stop = _
    by_cases hpart : part = []
    · rw [hsize, hpart, List.length_nil, Nat.zero_add, List.nil_append]
    · have hlt : part.length < size.value := by
        rw [hsize]
        exact Nat.lt_add_of_pos_right hn
      rw [(drain_data_append hpart hlt b).2, hsize, Nat.add_sub_cancel_left]
  | endPending cs c =>
    rw [List.append_assoc, List.append_assoc, drain_blocks, drain_content]
    rfl
  | dataEnd cs c =>
    rw [List.append_assoc, List.append_assoc, drain_blocks, drain_content, drain_endPending]
    rfl
  | trailers cs last ts h =>
    rw [List.append_assoc, List.append_assoc, drain_blocks, drain_last h, drain_trailers]
    rfl
  | done t =>
    rw [drain_form]
    rfl

theorem drain_taken (h : Taken s w es) (b : Bytes) :
    ∃ used reported, b = used ++ (drain s b).buffer ∧
      Taken (drain s b).state (w ++ used) reported := by
  fun_induction drain s b generalizing w es with
  | case1 s b =>
    obtain ⟨used, reported, hb, hnext, -⟩ := decode_continues h b
    exact ⟨used, reported, hb, hnext⟩
  | case2 s b =>
    obtain ⟨used, reported, hb, hnext, -⟩ := decode_continues h b
    exact ⟨used, reported, hb, hnext⟩
  | case3 s b v hf ih =>
    obtain ⟨used, reported, hb, hnext, -⟩ := decode_continues h b
    obtain ⟨more, all, hbuffer, hend⟩ := ih hnext
    refine ⟨used ++ more, all, ?_, ?_⟩
    · rw [List.append_assoc]
      exact hb.trans (congrArg _ hbuffer)
    · rwa [List.append_assoc] at hend

/-- A line that a decoder reads behind some bytes, with the fault it has for one that is too
long: the size line of a chunk, the one in front of the trailers, or a trailer line, down to the
empty one that ends the body. -/
inductive LineAt : Fault → Bytes → Bytes → Prop
  | size (cs : List Block) (t : SizeForm) :
      LineAt .sizeTooLong (cs.flatMap Block.bytes) t.bytes
  | trailer (cs : List Block) (last : SizeForm) (ts : List TrailerLine) (line : Bytes)
      (hlast : last.value = 0) (hline : ¬ crlf <:+: line) :
      LineAt .trailerTooLong
        (cs.flatMap Block.bytes ++ (last.bytes ++ ts.flatMap TrailerLine.bytes)) (line ++ crlf)

def Overlong (f : Fault) (fed : Bytes) : Prop :=
  ∃ front part missing, fed = front ++ part ∧ missing ≠ [] ∧ LineAt f front (part ++ missing) ∧
    maxLine < part.length

inductive Outgrown : Fault → State → Bytes → Prop
  | size {b : Bytes} {stage : SizeLine.Stage} (hl : maxLine < b.length)
      (hs : SizeLine.scan b = .more stage) : Outgrown .sizeTooLong .size b
  | trailer {b : Bytes} (hl : maxLine < b.length) (hs : splitLine b = none) :
      Outgrown .trailerTooLong .trailers b

theorem skipTrailers_outgrown (h : (skipTrailers b).found = .error f) :
    Outgrown f (skipTrailers b).state (skipTrailers b).buffer := by
  fun_induction skipTrailers b with
  | case1 b hs =>
    split at h
    · rename_i hl
      obtain rfl := Except.error.inj h
      exact .trailer hl hs
    · cases h
  | case2 => cases h
  | case3 b rest x line hs ih => exact ih h

theorem readSize_outgrown (h : (readSize b).found = .error f) (hf : f.isLimit = true) :
    Outgrown f (readSize b).state (readSize b).buffer := by
  cases hs : SizeLine.scan b with
  | more stage =>
    rw [readSize_of_more hs] at h ⊢
    dsimp only at h
    split at h
    · rename_i hl
      obtain rfl := Except.error.inj h
      exact .size hl hs
    · cases h
  | bad e =>
    rw [readSize, hs] at h
    obtain rfl := Except.error.inj h
    cases hf
  | done n rest =>
    cases n with
    | zero =>
      rw [readSize_of_zero hs] at h ⊢
      exact skipTrailers_outgrown h
    | succ n =>
      rw [readSize_of_pos hs (Nat.succ_ne_zero n)] at h
      cases h

theorem decode_outgrown (h : (decode s b).found = .error f) (hf : f.isLimit = true) :
    Outgrown f (decode s b).state (decode s b).buffer := by
  cases s with
  | size => exact readSize_outgrown h hf
  | data n =>
    simp only [decode, readData] at h
    split at h <;> cases h
  | endPending => cases h
  | dataEnd =>
    simp only [decode] at h ⊢
    unfold readDataEnd at h ⊢
    split at h
    · exact readSize_outgrown h hf
    · obtain rfl := Except.error.inj h
      cases hf
    · cases h
  | trailers => exact skipTrailers_outgrown h
  | done => cases h

theorem drain_outgrown (h : (drain s b).fault = some f) (hf : f.isLimit = true) :
    Outgrown f (drain s b).state (drain s b).buffer := by
  fun_induction drain s b with
  | case1 s b g hg =>
    obtain rfl := Option.some.inj h
    exact decode_outgrown hg hf
  | case2 => cases h
  | case3 s b v hv ih => exact ih h

theorem whole_of_splitLine (h : splitLine b = none) : ¬ crlf <:+: b := by
  fun_induction splitLine b with
  | case1 => cases h
  | case2 x tail hne ih =>
    intro hin
    rcases List.infix_cons_iff.mp hin with ⟨more, hmore⟩ | hin
    · obtain ⟨rfl, hl⟩ := List.cons.inj hmore
      exact hne more rfl hl.symm
    · exact ih (Option.map_eq_none_iff.mp h) hin
  | case3 => decide

theorem Outgrown.overlong (h : Outgrown f s b) (ht : Taken s w es) : Overlong f (w ++ b) := by
  cases h with
  | size hl hs =>
    cases ht with
    | size cs =>
      obtain ⟨missing, hmissing, t, ht⟩ := SizeLine.scan_more_iff.mp ⟨_, hs⟩
      exact ⟨_, b, missing, rfl, hmissing, ht ▸ LineAt.size cs t, hl⟩
  | trailer hl hs =>
    cases ht with
    | trailers cs last ts hlast =>
      have hline := LineAt.trailer cs last ts b hlast (whole_of_splitLine hs)
      exact ⟨_, b, crlf, rfl, List.cons_ne_nil _ _, hline, hl⟩

namespace LineAt

theorem taken (h : LineAt f front line) : ∃ s es, Taken s (front ++ line) es := by
  cases h with
  | size cs t =>
    by_cases ht : t.value = 0
    · have htaken := Taken.trailers cs t [] ht
      rw [List.flatMap_nil, List.append_nil] at htaken
      exact ⟨_, _, htaken⟩
    · have htaken := Taken.data cs t [] t.value (Nat.pos_of_ne_zero ht) (Nat.zero_add _).symm
      rw [List.append_nil] at htaken
      exact ⟨_, _, htaken⟩
  | trailer cs last ts line hlast hline =>
    by_cases hne : line = []
    · have htaken := Taken.done ⟨cs, last, ts, hlast⟩
      rw [BodyForm.bytes, ← List.append_assoc last.bytes, ← List.append_assoc] at htaken
      rw [hne]
      exact ⟨_, _, htaken⟩
    · have htaken := Taken.trailers cs last (ts ++ [⟨line, hne, hline⟩]) hlast
      rw [List.flatMap_append, List.flatMap_singleton, ← List.append_assoc last.bytes,
        ← List.append_assoc] at htaken
      exact ⟨_, _, htaken⟩

theorem fault_of_cut (h : LineAt f front (part ++ missing)) (hmissing : missing ≠ []) :
    (drain .size (front ++ part)).fault = if maxLine < part.length then some f else none := by
  have hfault : ∀ {s es}, Taken s front es → decode s part =
      ⟨if maxLine < part.length then .error f else .ok none, s, part⟩ →
      (drain .size (front ++ part)).fault = if maxLine < part.length then some f else none := by
    intro s es ht hd
    have hstop : (drain .size (front ++ part)).fault = (drain s part).fault :=
      congrArg Prod.fst (ht.stop part)
    rw [hstop]
    by_cases hl : maxLine < part.length
    · rw [if_pos hl] at hd ⊢
      rw [drain_of_fault (g := f) (by rw [hd])]
    · rw [if_neg hl] at hd ⊢
      rw [drain_of_waiting (by rw [hd])]
  generalize hline : part ++ missing = line at h
  cases h with
  | size cs t =>
    obtain ⟨stage, hs⟩ := SizeLine.scan_more_iff.mpr ⟨missing, hmissing, t, hline.symm⟩
    exact hfault (.size cs) (readSize_of_more hs)
  | trailer cs last ts line hlast hwhole =>
    apply hfault (.trailers cs last ts hlast)
    exact skipTrailers_of_none (splitLine_cut hwhole hmissing hline)

end LineAt

namespace Session

/-- What a decoder makes of lines, whatever was fed to it in whatever pieces and however often it
was asked in between. -/
structure Limited (calls : List Call) : Prop where
  refuses {f : Fault} : f.isLimit = true →
    ((drain (run calls).state (run calls).buffer).fault = some f ↔
      Overlong f (calls.flatMap Call.bytes))
  spares {f : Fault} {front part missing : Bytes} :
    calls.flatMap Call.bytes = front ++ part → LineAt f front (part ++ missing) →
    missing ≠ [] → part.length ≤ maxLine →
      (drain (run calls).state (run calls).buffer).fault = none
  passes {f : Fault} {front line rest : Bytes} :
    calls.flatMap Call.bytes = front ++ line ++ rest → LineAt f front line →
      (drain (run calls).state (run calls).buffer).buffer.length ≤ rest.length
  bounded {f : Fault} {front line : Bytes} {before after : List Call} :
    calls = before ++ after → (decode (run before).state (run before).buffer).found = .ok none →
    front ++ line <+: calls.flatMap Call.bytes → LineAt f front line →
    (before.flatMap Call.bytes).length < (front ++ line).length →
      line.length ≤ maxLine + (after.flatMap Call.bytes).length

theorem stop_run (calls : List Call) :
    (drain .size (calls.flatMap Call.bytes)).stop =
      (drain (run calls).state (run calls).buffer).stop := by
  obtain ⟨w, es, hfed, htaken, -⟩ := (run_sound calls).taken
  rw [hfed]
  exact htaken.stop _

theorem fault_run (calls : List Call) :
    (drain .size (calls.flatMap Call.bytes)).fault =
      (drain (run calls).state (run calls).buffer).fault :=
  congrArg Prod.fst (stop_run calls)

theorem refuses_iff (calls : List Call) (hf : f.isLimit = true) :
    (drain (run calls).state (run calls).buffer).fault = some f ↔
      Overlong f (calls.flatMap Call.bytes) := by
  constructor
  · intro h
    obtain ⟨w, es, hfed, htaken, -⟩ := (run_sound calls).taken
    obtain ⟨used, reported, hbuffer, hnext⟩ := drain_taken htaken (run calls).buffer
    have hover := (drain_outgrown h hf).overlong hnext
    rwa [List.append_assoc, ← hbuffer, ← hfed] at hover
  · rintro ⟨front, part, missing, hfed, hmissing, hline, hl⟩
    rw [← fault_run, hfed, hline.fault_of_cut hmissing, if_pos hl]

theorem length_of_waiting {before : List Call}
    (h : (decode (run before).state (run before).buffer).found = .ok none)
    (hfed : before.flatMap Call.bytes = front ++ part) (hline : LineAt f front (part ++ missing))
    (hmissing : missing ≠ []) : part.length ≤ maxLine := by
  have hfault := hline.fault_of_cut hmissing
  rw [← hfed, fault_run, drain_of_waiting h] at hfault
  apply Nat.le_of_not_lt
  intro hl
  rw [if_pos hl] at hfault
  cases hfault

theorem line_limit (calls : List Call) : Limited calls := by
  constructor
  case refuses =>
    intro f hf
    exact refuses_iff calls hf
  case spares =>
    intro f front part missing hfed hline hmissing hl
    rw [← fault_run, hfed, hline.fault_of_cut hmissing, if_neg (Nat.not_lt.mpr hl)]
  case passes =>
    intro f front line rest hfed hline
    obtain ⟨s, es, htaken⟩ := hline.taken
    have hstop := stop_run calls
    rw [hfed, htaken.stop] at hstop
    obtain ⟨used, reported, hrest, -⟩ := drain_taken htaken rest
    have hbuffer : (drain s rest).buffer = (drain (run calls).state (run calls).buffer).buffer :=
      congrArg (fun r => r.2.2) hstop
    have hlen := congrArg List.length hrest
    rw [List.length_append, hbuffer] at hlen
    omega
  case bounded =>
    intro f front line before after hcalls hwait hprefix hline hlt
    obtain ⟨rest, hfed⟩ := hprefix
    rw [hcalls, List.flatMap_append, List.append_assoc] at hfed
    have hlen := congrArg List.length hfed
    simp only [List.length_append] at hlen hlt
    rcases List.append_eq_append_iff.mp hfed.symm with ⟨ts, hfront, -⟩ | ⟨part, hbefore, hrest⟩
    · -- the line begins behind the call
      have := congrArg List.length hfront
      rw [List.length_append] at this
      omega
    · rcases Wire.cut_cases hrest.symm with ⟨missing, hmissing, rfl, -⟩ | ⟨ts, rfl, -⟩
      · have hle := length_of_waiting hwait hbefore hline hmissing
        have := congrArg List.length hbefore
        simp only [List.length_append] at this hlen hlt ⊢
        omega
      · have := congrArg List.length hbefore
        simp only [List.length_append] at this
        omega

def extended : SizeForm where
  digits := [0x35]
  tail :=
    { blanks := []
      extension := some (List.replicate maxLine 0x78)
      blanks_bytes := nofun
      extension_bytes := by
        intro b hb
        rw [List.eq_of_mem_replicate hb]
        decide }
  digits_le := by decide
  digits_hex := by
    intro b hb
    rw [List.mem_singleton.mp hb]
    rfl

def unended : Bytes := 0x35 :: 0x3b :: List.replicate maxLine 0x78

def zero : SizeForm where
  digits := [0x30]
  tail := ⟨[], none, nofun, nofun⟩
  digits_le := by decide
  digits_hex := by
    intro b hb
    rw [List.mem_singleton.mp hb]
    rfl

def tag : Bytes := List.replicate maxLine 0x74

theorem extended_bytes : extended.bytes = unended ++ crlf := rfl

theorem tag_whole : ¬ crlf <:+: tag := by
  intro hin
  have hmem : (0x0d : UInt8) ∈ tag := hin.subset (by decide)
  exact absurd (List.eq_of_mem_replicate hmem) (by decide)

theorem run_once {r : Reply} (h : decode .size b = r) :
    run [.feed b, .decode] = ⟨r.state, r.buffer, r.events⟩ := by
  subst h
  rfl

theorem reads_overlong_lines :
    (LineAt .sizeTooLong [] extended.bytes ∧ maxLine < extended.bytes.length ∧
      run [.feed extended.bytes, .decode] = ⟨.data 5, [], [.chunkStart 5]⟩ ∧
      (decode .size unended).found = .error .sizeTooLong) ∧
    LineAt .trailerTooLong zero.bytes (tag ++ crlf) ∧ maxLine < (tag ++ crlf).length ∧
      run [.feed (zero.bytes ++ (tag ++ crlf)), .decode] = ⟨.trailers, [], []⟩ := by
  have htag : (tag ++ crlf).length = maxLine + 2 := by
    rw [List.length_append, tag, List.length_replicate]
    rfl
  have hlength : unended.length = maxLine + 2 := by
    rw [unended, List.length_cons, List.length_cons, List.length_replicate]
  refine ⟨⟨.size [] extended, ?_, ?_, ?_⟩, .trailer [] zero [] tag rfl tag_whole, ?_, ?_⟩
  · rw [extended_bytes, List.length_append, hlength]
    exact Nat.lt_of_lt_of_le (Nat.lt_add_of_pos_right (by decide)) (Nat.le_add_right _ _)
  · have hscan := SizeLine.scan_bytes extended []
    rw [List.append_nil] at hscan
    exact run_once (readSize_of_pos hscan (by decide))
  · obtain ⟨stage, hs⟩ := SizeLine.scan_more_iff.mpr
      ⟨crlf, List.cons_ne_nil _ _, extended, extended_bytes⟩
    have hl : maxLine < unended.length := by omega
    rw [decode, readSize_of_more hs, if_pos hl]
  · omega
  · have hsplit : splitLine (tag ++ crlf) = some (tag, []) := by
      rw [← splitLine_line tag_whole [], List.append_nil]
    have hd : decode .size (zero.bytes ++ (tag ++ crlf)) = ⟨.ok none, .trailers, []⟩ := by
      rw [decode, readSize_of_zero (SizeLine.scan_bytes zero _), skipTrailers_of_cons hsplit]
      exact skipTrailers_of_none rfl
    exact run_once hd

end Session

end HttpRelay.Chunked
