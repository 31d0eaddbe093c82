import HttpRelay.Proofs.Http.ChunkedFeeds

namespace HttpRelay

def BodyEvent.payload : BodyEvent → Bytes
  | data bytes => bytes
  | _ => []

namespace Chunked

variable {s : State} {b : Bytes} {v : BodyEvent}

def payload (es : List BodyEvent) : Bytes := es.flatMap BodyEvent.payload

theorem payload_append (es fs : List BodyEvent) :
    payload (es ++ fs) = payload es ++ payload fs := List.flatMap_append

theorem payload_bytewise (es : List BodyEvent) : payload (bytewise es) = payload es := by
  induction es with
  | nil => rfl
  | cons v es ih =>
    have hatoms : payload (atoms v) = v.payload := by
      cases v with
      | data bs => simp [payload, atoms, BodyEvent.payload, List.flatMap_map]
      | _ => rfl
    change payload (atoms v ++ bytewise es) = payload ([v] ++ es)
    rw [payload_append, payload_append, ih, hatoms]
    exact congrArg (· ++ payload es) (List.append_nil _).symm

theorem skipTrailers_state (b : Bytes) :
    (skipTrailers b).state = .done ↔ (skipTrailers b).found = .ok (some .done) := by
  fun_induction skipTrailers b with
  | case1 => split <;> simp
  | case2 => simp
  | case3 _ _ _ _ _ ih => exact ih

theorem readSize_state (b : Bytes) :
    (readSize b).state = .done ↔ (readSize b).found = .ok (some .done) := by
  unfold readSize
  split
  · exact skipTrailers_state _
  · simp
  · split <;> simp
  · simp

theorem decode_state (hs : s ≠ .done) (b : Bytes) :
    (decode s b).state = .done ↔ (decode s b).found = .ok (some .done) := by
  cases s with
  | size => exact readSize_state b
  | data n =>
    simp only [decode, readData]
    split
    · simp
    · simp only [Except.ok.injEq, Option.some.injEq, reduceCtorEq, iff_false]
      split <;> simp
  | endPending => simp [decode]
  | dataEnd =>
    simp only [decode]
    unfold readDataEnd
    split
    · exact readSize_state _
    · simp
    · simp
  | trailers => exact skipTrailers_state b
  | done => exact absurd rfl hs

end Chunked

namespace Framing

variable {f : Framing} {b : Bytes}

def Drained.payload (d : Drained) : Bytes := Chunked.payload d.events

def Drained.after (es : List BodyEvent) (d : Drained) : Drained :=
  { d with events := es ++ d.events }

theorem drain_of_waiting (h : (decode f b).found = .ok none) :
    drain f b = ⟨[], .hungry, (decode f b).framing, (decode f b).buffer⟩ := by
  rw [drain]
  split <;> simp_all

theorem drain_of_fault {e : Failure} (h : (decode f b).found = .error e) :
    drain f b = ⟨[], .broken e, (decode f b).framing, (decode f b).buffer⟩ := by
  rw [drain]
  split <;> simp_all

theorem drain_of_done (h : (decode f b).found = .ok (some .done)) :
    drain f b = ⟨[], .complete, (decode f b).framing, (decode f b).buffer⟩ := by
  rw [drain]
  split <;> simp_all

theorem drain_of_event {v : BodyEvent} (h : (decode f b).found = .ok (some v)) (hv : v ≠ .done) :
    drain f b = (drain (decode f b).framing (decode f b).buffer).after [v] := by
  rw [drain]
  split <;> simp_all [Drained.after]

def chunkedStop (d : Chunked.Drained) : Stop :=
  match d.fault with
  | some fault => .broken (.chunkDecode fault.message)
  | none => if d.state = .done then .complete else .hungry

theorem chunkedStop_after (es : List BodyEvent) (d : Chunked.Drained) :
    chunkedStop (d.after es) = chunkedStop d := rfl

theorem drain_chunked {s : Chunked.State} (hs : s ≠ .done) (b : Bytes) :
    drain (.chunked s) b = ⟨(Chunked.drain s b).events.filter (· ≠ .done),
      chunkedStop (Chunked.drain s b), .chunked (Chunked.drain s b).state,
      (Chunked.drain s b).buffer⟩ := by
  fun_induction Chunked.drain s b with
  | case1 s b fault hf =>
    have hd : (decode (.chunked s) b).found = .error (.chunkDecode fault.message) :=
      fault_ofChunkedReply.mpr ⟨fault, hf, rfl⟩
    rw [drain_of_fault hd]
    rfl
  | case2 s b hf =>
    have hd : (decode (.chunked s) b).found = .ok none := found_ofChunkedReply.mpr hf
    have hstate : (Chunked.decode s b).state ≠ .done := by
      rw [ne_eq, Chunked.decode_state hs, hf]
      simp
    rw [drain_of_waiting hd]
    simp [chunkedStop, hstate, decode, ofChunkedReply]
  | case3 s b v hf ih =>
    have hd : (decode (.chunked s) b).found = .ok (some v) := found_ofChunkedReply.mpr hf
    by_cases hv : v = .done
    · subst hv
      have hstate : (Chunked.decode s b).state = .done := (Chunked.decode_state hs b).mpr hf
      have hrest : Chunked.drain .done (Chunked.decode s b).buffer =
          ⟨[], none, .done, (Chunked.decode s b).buffer⟩ := Chunked.drain_of_waiting rfl
      rw [drain_of_done hd]
      simp [hstate, hrest, chunkedStop, decode, ofChunkedReply, Chunked.Drained.after]
    · have hstate : (Chunked.decode s b).state ≠ .done := by
        rw [ne_eq, Chunked.decode_state hs, hf]
        simpa using hv
      have hrest : drain (decode (.chunked s) b).framing (decode (.chunked s) b).buffer =
          drain (.chunked (Chunked.decode s b).state) (Chunked.decode s b).buffer := rfl
      rw [drain_of_event hd hv, hrest, ih hstate, chunkedStop_after]
      simp [Drained.after, Chunked.Drained.after, hv]

theorem payload_filter_done (es : List BodyEvent) :
    Chunked.payload (es.filter (· ≠ .done)) = Chunked.payload es := by
  induction es with
  | nil => rfl
  | cons v es ih =>
    by_cases hv : v = .done
    · subst hv
      exact ih
    · rw [List.filter_cons_of_pos (by simpa using hv)]
      exact congrArg (v.payload ++ ·) ih

theorem payload_drain_chunked {s : Chunked.State} (hs : s ≠ .done) (b : Bytes) :
    (drain (.chunked s) b).payload = Chunked.payload (Chunked.drain s b).events := by
  rw [drain_chunked hs, Drained.payload, payload_filter_done]

theorem drain_length_zero (b : Bytes) :
    drain (.length 0) b = ⟨[], .complete, .length 0, b⟩ := drain_of_done rfl

theorem decode_length_nil {n : Nat} (hn : n ≠ 0) :
    decode (.length n) [] = ⟨.ok none, .length n, []⟩ := by
  simp [decode, readLength, hn]

theorem decode_length_of_ne_nil {n : Nat} (hn : n ≠ 0) (hb : b ≠ []) : decode (.length n) b =
    ⟨.ok (some (.data (b.take n))), .length (n - (b.take n).length), b.drop n⟩ := by
  simp [decode, readLength, hn, hb]

theorem drain_length_nil {n : Nat} (hn : n ≠ 0) :
    drain (.length n) [] = ⟨[], .hungry, .length n, []⟩ := by
  have hd := decode_length_nil hn
  rw [drain_of_waiting (by rw [hd]), hd]

theorem drain_length_cons {n : Nat} (hn : n ≠ 0) (hb : b ≠ []) :
    drain (.length n) b =
      (drain (.length (n - (b.take n).length)) (b.drop n)).after [.data (b.take n)] := by
  have hd := decode_length_of_ne_nil hn hb
  rw [drain_of_event (v := .data (b.take n)) (by rw [hd]) (by simp), hd]

theorem drain_length_of_le {n : Nat} (h : n ≤ b.length) :
    (drain (.length n) b).payload = b.take n ∧ (drain (.length n) b).stop = .complete := by
  by_cases hn : n = 0
  · subst hn
    rw [drain_length_zero]
    exact ⟨rfl, rfl⟩
  · have hb : b ≠ [] := by
      rintro rfl
      exact hn (Nat.le_zero.mp h)
    have hrest : n - (b.take n).length = 0 := by
      rw [List.length_take]
      omega
    rw [drain_length_cons hn hb, hrest, drain_length_zero]
    exact ⟨List.append_nil _, rfl⟩

theorem drain_length_of_lt {n : Nat} (h : b.length < n) :
    (drain (.length n) b).payload = b ∧ (drain (.length n) b).stop = .hungry ∧
      (drain (.length n) b).framing = .length (n - b.length) ∧
        (drain (.length n) b).buffer = [] := by
  have hn : n ≠ 0 := by omega
  by_cases hb : b = []
  · subst hb
    rw [drain_length_nil hn]
    exact ⟨rfl, rfl, rfl, rfl⟩
  · have hne : n - b.length ≠ 0 := by omega
    rw [drain_length_cons hn hb, List.take_of_length_le (Nat.le_of_lt h),
      List.drop_of_length_le (Nat.le_of_lt h),
      drain_length_nil hne]
    exact ⟨List.append_nil _, rfl, rfl, rfl⟩

theorem drain_length_hungry_iff {n : Nat} :
    (drain (.length n) b).stop = .hungry ↔ b.length < n := by
  constructor
  · intro h
    apply Nat.lt_of_not_le
    intro hge
    rw [(drain_length_of_le hge).2] at h
    cases h
  · exact fun h => (drain_length_of_lt h).2.1

theorem drain_length_complete_iff {n : Nat} :
    (drain (.length n) b).stop = .complete ↔ n ≤ b.length := by
  constructor
  · intro h
    apply Nat.le_of_not_lt
    intro hlt
    rw [(drain_length_of_lt hlt).2.1] at h
    cases h
  · exact fun h => (drain_length_of_le h).2

theorem drain_untilClose (b : Bytes) : (drain .untilClose b).payload = b ∧
    (drain .untilClose b).stop = .hungry ∧ (drain .untilClose b).framing = .untilClose ∧
      (drain .untilClose b).buffer = [] := by
  have hnil : drain .untilClose [] = ⟨[], .hungry, .untilClose, []⟩ := drain_of_waiting rfl
  by_cases hb : b = []
  · subst hb
    rw [hnil]
    exact ⟨rfl, rfl, rfl, rfl⟩
  · have hd : decode .untilClose b = ⟨.ok (some (.data b)), .untilClose, []⟩ := by
      simp [decode, readAll, hb]
    rw [drain_of_event (v := .data b) (by rw [hd]) (by simp), hd, hnil]
    exact ⟨List.append_nil _, rfl, rfl, rfl⟩

theorem drain_empty (b : Bytes) :
    drain (.empty false) b = ⟨[], .complete, .empty true, b⟩ := drain_of_done rfl

def Sound : Framing → Prop
  | chunked s => s.Sound ∧ s ≠ .done
  | _ => True

structure Drained.Extends (d : Drained) (front : Bytes) (e : Drained) : Prop where
  payload : d.payload = front ++ e.payload
  complete : d.stop = .complete ↔ e.stop = .complete
  hungry : d.stop = .hungry ↔ e.stop = .hungry

theorem chunkedStop_complete {d : Chunked.Drained} :
    chunkedStop d = .complete ↔ d.fault = none ∧ d.state = .done := by
  unfold chunkedStop
  cases d.fault with
  | some fault => simp
  | none => by_cases hd : d.state = .done <;> simp [hd]

theorem chunkedStop_hungry {d : Chunked.Drained} :
    chunkedStop d = .hungry ↔ d.fault = none ∧ d.state ≠ .done := by
  unfold chunkedStop
  cases d.fault with
  | some fault => simp
  | none => by_cases hd : d.state = .done <;> simp [hd]

theorem same_of_standing {d e : Chunked.Drained} (h : d.standing = e.standing) :
    (d.fault = none ↔ e.fault = none) ∧ (d.fault = none → d.state = e.state) := by
  unfold Chunked.Drained.standing at h
  cases hd : d.fault <;> cases he : e.fault <;> simp_all

theorem drain_emptyReported (b : Bytes) :
    drain (.empty true) b = ⟨[], .hungry, .empty true, b⟩ := drain_of_waiting rfl

theorem drain_sound (hs : f.Sound) (h : (f.drain b).stop = .hungry) :
    (f.drain b).framing.Sound := by
  cases f with
  | chunked s =>
    rw [drain_chunked hs.2] at h ⊢
    exact ⟨Chunked.drain_sound hs.1 b, (chunkedStop_hungry.mp h).2⟩
  | length n =>
    rw [(drain_length_of_lt (drain_length_hungry_iff.mp h)).2.2.1]
    trivial
  | untilClose =>
    rw [(drain_untilClose b).2.2.1]
    trivial
  | empty reported =>
    cases reported with
    | false =>
      rw [drain_empty] at h
      cases h
    | true =>
      rw [drain_emptyReported]
      trivial

theorem drain_chunked_append {s : Chunked.State} (hs : s.Sound ∧ s ≠ .done)
    (h : chunkedStop (Chunked.drain s b) = .hungry) (c : Bytes) :
    (drain (.chunked s) (b ++ c)).Extends (Chunked.payload (Chunked.drain s b).events)
      (drain (.chunked (Chunked.drain s b).state) ((Chunked.drain s b).buffer ++ c)) := by
  obtain ⟨hfault, hstate⟩ := chunkedStop_hungry.mp h
  have same := Chunked.drain_append hs.1 hfault c
  obtain ⟨hf, hst⟩ := same_of_standing same.standing
  have hpayload : Chunked.payload (Chunked.drain s (b ++ c)).events =
      Chunked.payload (Chunked.drain s b).events ++ Chunked.payload
        (Chunked.drain (Chunked.drain s b).state ((Chunked.drain s b).buffer ++ c)).events := by
    rw [← Chunked.payload_append, ← Chunked.payload_bytewise, same.events,
      Chunked.payload_bytewise]
    rfl
  refine ⟨?_, ?_, ?_⟩
  · rw [payload_drain_chunked hs.2, payload_drain_chunked hstate, hpayload]
  · rw [drain_chunked hs.2, drain_chunked hstate, chunkedStop_complete, chunkedStop_complete]
    constructor
    · exact fun ⟨hn, hd⟩ => ⟨hf.mp hn, (hst hn).symm.trans hd⟩
    · exact fun ⟨hn, hd⟩ => ⟨hf.mpr hn, (hst (hf.mpr hn)).trans hd⟩
  · rw [drain_chunked hs.2, drain_chunked hstate, chunkedStop_hungry, chunkedStop_hungry]
    constructor
    · exact fun ⟨hn, hd⟩ => ⟨hf.mp hn, fun he => hd ((hst hn).trans he)⟩
    · exact fun ⟨hn, hd⟩ => ⟨hf.mpr hn, fun he => hd ((hst (hf.mpr hn)).symm.trans he)⟩

theorem drain_chunked_append_of_complete {s : Chunked.State} (hs : s.Sound ∧ s ≠ .done)
    (h : chunkedStop (Chunked.drain s b) = .complete) (c : Bytes) :
    Chunked.payload (Chunked.drain s (b ++ c)).events =
        Chunked.payload (Chunked.drain s b).events ∧
      chunkedStop (Chunked.drain s (b ++ c)) = .complete := by
  obtain ⟨hfault, hstate⟩ := chunkedStop_complete.mp h
  have same := Chunked.drain_append hs.1 hfault c
  have hrest : Chunked.drain .done ((Chunked.drain s b).buffer ++ c) =
      ⟨[], none, .done, (Chunked.drain s b).buffer ++ c⟩ := Chunked.drain_of_waiting rfl
  rw [hstate, hrest] at same
  obtain ⟨hf, hst⟩ := same_of_standing same.standing
  refine ⟨?_, chunkedStop_complete.mpr ⟨hf.mpr rfl, hst (hf.mpr rfl)⟩⟩
  rw [← Chunked.payload_bytewise, same.events, Chunked.payload_bytewise]
  exact congrArg Chunked.payload (List.append_nil _)

theorem drain_length_append {n : Nat} (h : b.length < n) (c : Bytes) :
    (drain (.length n) (b ++ c)).Extends b (drain (.length (n - b.length)) c) := by
  rcases Nat.lt_or_ge c.length (n - b.length) with hlt | hge
  · have hl : (b ++ c).length < n := by
      rw [List.length_append]
      omega
    obtain ⟨hp, hstop, -⟩ := drain_length_of_lt hl
    obtain ⟨hp', hstop', -⟩ := drain_length_of_lt hlt
    exact ⟨by rw [hp, hp'], by rw [hstop, hstop'], by rw [hstop, hstop']⟩
  · have hl : n ≤ (b ++ c).length := by
      rw [List.length_append]
      omega
    obtain ⟨hp, hstop⟩ := drain_length_of_le hl
    obtain ⟨hp', hstop'⟩ := drain_length_of_le hge
    refine ⟨?_, by rw [hstop, hstop'], by rw [hstop, hstop']⟩
    rw [hp, hp', List.take_append, List.take_of_length_le (Nat.le_of_lt h)]

theorem drain_append (hs : f.Sound) (h : (f.drain b).stop = .hungry) (c : Bytes) :
    (f.drain (b ++ c)).Extends (f.drain b).payload
      ((f.drain b).framing.drain ((f.drain b).buffer ++ c)) := by
  cases f with
  | chunked s =>
    rw [payload_drain_chunked hs.2]
    rw [drain_chunked hs.2 b] at h ⊢
    exact drain_chunked_append hs h c
  | length n =>
    have hlt := drain_length_hungry_iff.mp h
    obtain ⟨hp, -, hframing, hbuffer⟩ := drain_length_of_lt hlt
    rw [hp, hframing, hbuffer]
    exact drain_length_append hlt c
  | untilClose =>
    obtain ⟨hp, -, hframing, hbuffer⟩ := drain_untilClose b
    obtain ⟨hp', hstop', -⟩ := drain_untilClose (b ++ c)
    obtain ⟨hp'', hstop'', -⟩ := drain_untilClose ([] ++ c)
    rw [hp, hframing, hbuffer]
    exact ⟨by rw [hp', hp'', List.nil_append], by rw [hstop', hstop''],
      by rw [hstop', hstop'']⟩
  | empty reported =>
    cases reported with
    | false =>
      rw [drain_empty] at h
      cases h
    | true =>
      simp only [drain_emptyReported]
      exact ⟨rfl, Iff.rfl, Iff.rfl⟩

theorem drain_append_of_complete (hs : f.Sound) (h : (f.drain b).stop = .complete) (c : Bytes) :
    (f.drain (b ++ c)).payload = (f.drain b).payload ∧ (f.drain (b ++ c)).stop = .complete := by
  cases f with
  | chunked s =>
    rw [payload_drain_chunked hs.2, payload_drain_chunked hs.2]
    rw [drain_chunked hs.2] at h ⊢
    exact drain_chunked_append_of_complete hs h c
  | length n =>
    have hge := drain_length_complete_iff.mp h
    have hge' : n ≤ (b ++ c).length := by
      rw [List.length_append]
      omega
    rw [(drain_length_of_le hge).1, (drain_length_of_le hge').1]
    exact ⟨List.take_append_of_le_length hge, (drain_length_of_le hge').2⟩
  | untilClose =>
    rw [(drain_untilClose b).2.1] at h
    cases h
  | empty reported =>
    cases reported with
    | false =>
      rw [drain_empty, drain_empty]
      exact ⟨rfl, rfl⟩
    | true =>
      rw [drain_emptyReported] at h
      cases h

structure Running (f : Framing) (b more payload : Bytes) : Prop where
  sound : f.Sound
  complete : (f.drain (b ++ more)).stop = .complete
  payload : (f.drain (b ++ more)).payload = payload
  unbroken : ∀ c rest, c ++ rest = more → ∀ e, (f.drain (b ++ c)).stop ≠ .broken e

variable {more rest payload : Bytes}

theorem Running.advance (h : f.Running b more payload) :
    ((f.drain b).stop = .complete ∧ (f.drain b).payload = payload) ∨
      ((f.drain b).stop = .hungry ∧ ∃ payload', payload = (f.drain b).payload ++ payload' ∧
        ∀ c rest, c ++ rest = more →
          (f.drain b).framing.Running ((f.drain b).buffer ++ c) rest payload') := by
  cases hstop : (f.drain b).stop with
  | broken e =>
    have := h.unbroken [] more rfl e
    rw [List.append_nil] at this
    exact absurd hstop this
  | complete =>
    refine .inl ⟨rfl, ?_⟩
    rw [← h.payload]
    exact (drain_append_of_complete h.sound hstop more).1.symm
  | hungry =>
    have hext := drain_append h.sound hstop more
    refine .inr ⟨rfl, _, h.payload.symm.trans hext.payload, ?_⟩
    rintro c rest rfl
    refine ⟨drain_sound h.sound hstop, ?_, ?_, ?_⟩
    · rw [List.append_assoc]
      exact hext.complete.mp h.complete
    · rw [List.append_assoc]
    -- a fault here would be one of the whole, and the whole has none
    · intro c' rest' hc e he
      have hext' := drain_append h.sound hstop (c ++ c')
      have hne := h.unbroken (c ++ c') rest' (by rw [List.append_assoc, hc])
      rw [List.append_assoc] at he
      cases hall : (f.drain (b ++ (c ++ c'))).stop with
      | broken e' => exact hne e' hall
      | complete =>
        rw [hext'.complete.mp hall] at he
        cases he
      | hungry =>
        rw [hext'.hungry.mp hall] at he
        cases he

theorem running_length {n : Nat} (h : n ≤ (b ++ more).length) :
    (length n).Running b more ((b ++ more).take n) := by
  obtain ⟨hpayload, hstop⟩ := drain_length_of_le h
  refine ⟨trivial, hstop, hpayload, ?_⟩
  intro c rest _ e he
  rcases Nat.lt_or_ge (b ++ c).length n with hlt | hge
  · rw [(drain_length_of_lt hlt).2.1] at he
    cases he
  · rw [(drain_length_of_le hge).2] at he
    cases he

theorem running_empty (b more : Bytes) : (empty false).Running b more [] := by
  refine ⟨trivial, ?_, ?_, ?_⟩
  · rw [drain_empty]
  · rw [drain_empty]
    rfl
  · intro c rest _ e he
    rw [drain_empty] at he
    cases he

end Framing

end HttpRelay
