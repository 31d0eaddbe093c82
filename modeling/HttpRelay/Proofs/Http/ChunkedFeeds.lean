import HttpRelay.Proofs.Http.ChunkedSteps

namespace HttpRelay.Chunked

structure Drained where
  events : List BodyEvent
  fault : Option Fault
  state : State
  buffer : Bytes
deriving DecidableEq, Repr

def Drained.after (es : List BodyEvent) (d : Drained) : Drained :=
  { d with events := es ++ d.events }

def drain (s : State) (b : Bytes) : Drained :=
  match _h : (decode s b).found with
  | .error f => ⟨[], some f, (decode s b).state, (decode s b).buffer⟩
  | .ok none => ⟨[], none, (decode s b).state, (decode s b).buffer⟩
  | .ok (some e) => (drain (decode s b).state (decode s b).buffer).after [e]
termination_by Framing.weight (.chunked s) b
decreasing_by exact decode_shrinks _h

def feed (s : State) (b : Bytes) : List Bytes → Drained
  | [] => ⟨[], none, s, b⟩
  | p :: ps =>
    let d := drain s (b ++ p)
    match d.fault with
    | some _ => d
    | none => (feed d.state d.buffer ps).after d.events

def atoms : BodyEvent → List BodyEvent
  | .data bs => bs.map fun x => .data [x]
  | e => [e]

def bytewise (es : List BodyEvent) : List BodyEvent := es.flatMap atoms

inductive Standing where
  | settled (state : State) (buffer : Bytes)
  | broken (overlong : Bool)
deriving DecidableEq, Repr

def Drained.standing (d : Drained) : Standing :=
  match d.fault with
  | none => .settled d.state d.buffer
  | some f => .broken f.isLimit

def Drained.stop (d : Drained) : Option Fault × State × Bytes := (d.fault, d.state, d.buffer)

structure Drained.Same (d e : Drained) : Prop where
  events : bytewise d.events = bytewise e.events
  standing : d.standing = e.standing

variable {s : State} {b : Bytes} {d e f : Drained}

theorem bytewise_append (es fs : List BodyEvent) :
    bytewise (es ++ fs) = bytewise es ++ bytewise fs := List.flatMap_append

theorem bytewise_data (x y : Bytes) :
    bytewise [.data (x ++ y)] = bytewise [.data x] ++ bytewise [.data y] := by
  simp [bytewise, atoms]

namespace Drained

theorem Same.rfl : d.Same d := ⟨Eq.refl _, Eq.refl _⟩

theorem Same.symm (h : d.Same e) : e.Same d := ⟨h.events.symm, h.standing.symm⟩

theorem Same.trans (h : d.Same e) (k : e.Same f) : d.Same f :=
  ⟨h.events.trans k.events, h.standing.trans k.standing⟩

theorem Same.after (h : d.Same e) (es : List BodyEvent) : (d.after es).Same (e.after es) :=
  ⟨by simp only [Drained.after, bytewise_append, h.events], h.standing⟩

theorem Same.of_stop (he : bytewise d.events = bytewise e.events) (hs : d.stop = e.stop) :
    d.Same e := by
  obtain ⟨hfault, hstate, hbuffer⟩ :
      d.fault = e.fault ∧ d.state = e.state ∧ d.buffer = e.buffer := by
    simpa [stop] using hs
  refine ⟨he, ?_⟩
  simp only [Drained.standing, hfault, hstate, hbuffer]

theorem Same.fault_eq_none (h : d.Same e) (hd : d.fault = none) :
    e.fault = none ∧ e.state = d.state ∧ e.buffer = d.buffer := by
  have hs := h.standing
  simp only [Drained.standing, hd] at hs
  split at hs
  · rename_i he
    rw [Standing.settled.injEq] at hs
    exact ⟨he, hs.1.symm, hs.2.symm⟩
  · simp at hs

end Drained

theorem drain_of_waiting (h : (decode s b).found = .ok none) :
    drain s b = ⟨[], none, (decode s b).state, (decode s b).buffer⟩ := by
  rw [drain]
  split <;> simp_all

theorem drain_of_event {v : BodyEvent} (h : (decode s b).found = .ok (some v)) :
    drain s b = (drain (decode s b).state (decode s b).buffer).after [v] := by
  rw [drain]
  split <;> simp_all

theorem drain_of_fault {g : Fault} (h : (decode s b).found = .error g) :
    drain s b = ⟨[], some g, (decode s b).state, (decode s b).buffer⟩ := by
  rw [drain]
  split <;> simp_all

theorem drain_congr {t : State} {c : Bytes} (h : decode s b = decode t c) :
    drain s b = drain t c := by
  cases hf : (decode t c).found with
  | error g => rw [drain_of_fault hf, drain_of_fault (h ▸ hf), h]
  | ok o =>
    cases o with
    | none => rw [drain_of_waiting hf, drain_of_waiting (h ▸ hf), h]
    | some v =>
      have hf' : (decode s b).found = .ok (some v) := h ▸ hf
      rw [drain_of_event hf, drain_of_event hf', h]

theorem drain_sound (hs : s.Sound) (b : Bytes) : (drain s b).state.Sound := by
  fun_induction drain s b with
  | case1 s b => exact decode_sound hs b
  | case2 s b => exact decode_sound hs b
  | case3 s b _ _ ih => exact ih (decode_sound hs b)

theorem drain_settled (h : (drain s b).fault = none) :
    drain (drain s b).state (drain s b).buffer =
      ⟨[], none, (drain s b).state, (drain s b).buffer⟩ := by
  fun_induction drain s b with
  | case1 => simp at h
  | case2 s b hf =>
    have hd : decode s b = decode (decode s b).state (decode s b).buffer := by
      simpa using decode_append_of_waiting hf []
    rw [← drain_congr hd, drain_of_waiting hf]
  | case3 s b _ _ ih => exact ih h

theorem drain_size_of_pos {n : Nat} {rest : Bytes} (h : SizeLine.scan b = .done n rest)
    (hn : n ≠ 0) : drain .size b = (drain (.data n) rest).after [.chunkStart n] := by
  have hd : decode .size b = ⟨.ok (some (.chunkStart n)), .data n, rest⟩ := readSize_of_pos h hn
  rw [drain_of_event (v := .chunkStart n) (by rw [hd]), hd]

theorem drain_endPending (b : Bytes) :
    drain .endPending b = (drain .dataEnd b).after [.chunkEnd] :=
  drain_of_event rfl

theorem drain_data_nil (n : Nat) : drain (.data n) [] = ⟨[], none, .data n, []⟩ :=
  drain_of_waiting rfl

theorem drain_data_of_le {n : Nat} (hn : 0 < n) (hb : n ≤ b.length) :
    drain (.data n) b = (drain .endPending (b.drop n)).after [.data (b.take n)] := by
  have hd : decode (.data n) b = ⟨.ok (some (.data (b.take n))), .endPending, b.drop n⟩ :=
    readData_of_le hn hb
  rw [drain_of_event (v := .data (b.take n)) (by rw [hd]), hd]

theorem drain_data_of_lt {n : Nat} (hb : b ≠ []) (hn : b.length < n) :
    drain (.data n) b = ⟨[.data b], none, .data (n - b.length), []⟩ := by
  have hd : decode (.data n) b = ⟨.ok (some (.data b)), .data (n - b.length), []⟩ :=
    readData_of_lt hb hn
  rw [drain_of_event (v := .data b) (by rw [hd]), hd, drain_data_nil]
  rfl

theorem drain_data_append {n : Nat} (hb : b ≠ []) (hn : b.length < n) (c : Bytes) :
    bytewise (drain (.data n) (b ++ c)).events =
        bytewise ((drain (.data (n - b.length)) c).after [.data b]).events ∧
      (drain (.data n) (b ++ c)).stop = (drain (.data (n - b.length)) c).stop := by
  by_cases hc : c = []
  · subst hc
    rw [List.append_nil, drain_data_of_lt hb hn, drain_data_nil]
    exact ⟨rfl, rfl⟩
  rcases Nat.lt_or_ge c.length (n - b.length) with hlt | hge
  · have hl : (b ++ c).length < n := by
      rw [List.length_append]
      omega
    rw [drain_data_of_lt (by simp [hb]) hl, drain_data_of_lt hc hlt]
    refine ⟨?_, ?_⟩
    · rw [bytewise_data]
      exact (bytewise_append _ _).symm
    · simp [Drained.stop, Nat.sub_sub]
  · have hl : n ≤ (b ++ c).length := by
      rw [List.length_append]
      omega
    rw [drain_data_of_le (by omega) hl, drain_data_of_le (by omega) hge,
      List.drop_append, List.drop_of_length_le (by omega), List.nil_append,
      List.take_append, List.take_of_length_le (by omega)]
    refine ⟨?_, rfl⟩
    simp only [Drained.after, bytewise_append, bytewise_data, List.append_assoc]

theorem covers_or_partial {v : BodyEvent} (h : (decode s b).found = .ok (some v)) :
    (∀ n, s = .data n → n ≤ b.length) ∨ ∃ n, s = .data n ∧ b.length < n ∧ b ≠ [] := by
  cases s with
  | data n =>
    rcases Nat.lt_or_ge b.length n with hlt | hge
    · refine .inr ⟨n, Eq.refl _, hlt, ?_⟩
      rintro rfl
      simp [decode, readData] at h
    · exact .inl fun m hm => by rwa [← State.data.inj hm]
  | _ => exact .inl fun m hm => by simp at hm

theorem drain_append (hs : s.Sound) (h : (drain s b).fault = none) (c : Bytes) :
    (drain s (b ++ c)).Same
      ((drain (drain s b).state ((drain s b).buffer ++ c)).after (drain s b).events) := by
  fun_induction drain s b with
  | case1 => simp at h
  | case2 s b hf =>
    rw [drain_congr (decode_append_of_waiting hf c)]
    exact .rfl
  | case3 s b v hf ih =>
    rcases covers_or_partial hf with hc | ⟨n, rfl, hn, hb⟩
    · have hd := decode_append_of_event hf hs hc c
      rw [drain_of_event (v := v) (by rw [hd]), hd]
      have := (ih (decode_sound hs b) h).after [v]
      simpa only [Drained.after, List.append_assoc] using this
    · have hd : decode (.data n) b = ⟨.ok (some (.data b)), .data (n - b.length), []⟩ :=
        readData_of_lt hb hn
      rw [hd, Except.ok.injEq, Option.some.injEq] at hf
      -- the buffer ends inside a chunk, whose next bytes may join the ones handed out last
      simp only [hd, drain_data_nil, Drained.after, List.nil_append, List.append_nil, ← hf]
      obtain ⟨hevents, hstop⟩ := drain_data_append hb hn c
      exact .of_stop hevents hstop

theorem drain_append_of_fault {g : Fault} (hs : s.Sound) (h : (drain s b).fault = some g)
    (hg : g.isLimit = false) (c : Bytes) : (drain s (b ++ c)).Same (drain s b) := by
  fun_induction drain s b with
  | case1 s b g' hf =>
    obtain ⟨k, hk, hl⟩ := decode_append_of_fault hf (Option.some.inj h ▸ hg) c
    rw [drain_of_fault hk]
    refine ⟨Eq.refl _, ?_⟩
    simp only [Drained.standing, hl, Option.some.inj h, hg]
  | case2 => simp at h
  | case3 s b v hf ih =>
    rcases covers_or_partial hf with hc | ⟨n, rfl, hn, hb⟩
    · have hd := decode_append_of_event hf hs hc c
      rw [drain_of_event (v := v) (by rw [hd]), hd]
      exact (ih (decode_sound hs b) h).after [v]
    · have hd : decode (.data n) b = ⟨.ok (some (.data b)), .data (n - b.length), []⟩ :=
        readData_of_lt hb hn
      simp [hd, drain_data_nil, Drained.after] at h

theorem feed_append (s : State) (b : Bytes) (ps qs : List Bytes)
    (h : (feed s b ps).fault = none) : feed s b (ps ++ qs) =
      (feed (feed s b ps).state (feed s b ps).buffer qs).after (feed s b ps).events := by
  induction ps generalizing s b with
  | nil => rfl
  | cons p ps ih =>
    simp only [List.cons_append, feed] at h ⊢
    cases hf : (drain s (b ++ p)).fault with
    | some g => simp [hf] at h
    | none =>
      simp only [hf] at h ⊢
      rw [ih _ _ h]
      simp only [Drained.after, List.append_assoc]

theorem feed_append_of_fault {g : Fault} (s : State) (b : Bytes) (ps qs : List Bytes)
    (h : (feed s b ps).fault = some g) : feed s b (ps ++ qs) = feed s b ps := by
  induction ps generalizing s b with
  | nil => simp [feed] at h
  | cons p ps ih =>
    simp only [List.cons_append, feed] at h ⊢
    cases hf : (drain s (b ++ p)).fault with
    | some k => rfl
    | none =>
      simp only [hf] at h ⊢
      rw [ih _ _ h]

def Settled (s : State) (b : Bytes) : Prop := drain s b = ⟨[], none, s, b⟩

theorem feed_same_drain {ps : List Bytes} (hs : s.Sound) (hset : Settled s b)
    (hl : (feed s b ps).standing ≠ .broken true) :
    (feed s b ps).Same (drain s (b ++ ps.flatten)) := by
  induction ps generalizing s b with
  | nil =>
    rw [List.flatten_nil, List.append_nil, hset]
    exact .rfl
  | cons p ps ih =>
    rw [List.flatten_cons, ← List.append_assoc]
    simp only [feed] at hl ⊢
    cases hf : (drain s (b ++ p)).fault with
    | some g =>
      have hg : g.isLimit = false := by
        simpa [hf, Drained.standing] using hl
      exact (drain_append_of_fault hs hf hg ps.flatten).symm
    | none =>
      simp only [hf] at hl ⊢
      exact ((ih (drain_sound hs _) (drain_settled hf) hl).after _).trans
        (drain_append hs hf ps.flatten).symm

def singles (bs : Bytes) : List Bytes := bs.map fun x => [x]

theorem singles_append (x y : Bytes) : singles (x ++ y) = singles x ++ singles y :=
  List.map_append

theorem flatten_singles (bs : Bytes) : (singles bs).flatten = bs := by
  induction bs with
  | nil => rfl
  | cons x bs ih => simpa [singles] using ih

theorem standing_of_fault {g : Fault} (h : d.fault = some g) :
    d.standing = .broken g.isLimit := by
  simp [Drained.standing, h]

theorem feed_of_singles {ps : List Bytes} (hs : s.Sound) (hset : Settled s b)
    (hl : (feed s b (singles ps.flatten)).standing ≠ .broken true) :
    (feed s b ps).standing ≠ .broken true := by
  induction ps generalizing s b with
  | nil => simp [feed, Drained.standing]
  | cons p ps ih =>
    -- byte by byte, the first feed comes to the same standing; what breaks there breaks here
    rw [List.flatten_cons, singles_append] at hl
    cases he : (feed s b (singles p)).fault with
    | some g =>
      rw [feed_append_of_fault _ _ _ _ he] at hl
      have hd := (feed_same_drain hs hset hl).standing
      rw [flatten_singles] at hd
      rw [hd] at hl
      simp only [feed]
      cases hf : (drain s (b ++ p)).fault with
      | some k => exact hl
      | none =>
        rw [standing_of_fault he] at hd
        simp [Drained.standing, hf] at hd
    | none =>
      have hle : (feed s b (singles p)).standing ≠ .broken true := by
        simp [Drained.standing, he]
      have hd := feed_same_drain hs hset hle
      rw [flatten_singles] at hd
      obtain ⟨hf, hstate, hbuffer⟩ := hd.fault_eq_none he
      rw [feed_append _ _ _ _ he, ← hstate, ← hbuffer] at hl
      simp only [feed, hf]
      exact ih (drain_sound hs _) (drain_settled hf) hl

theorem drain_data_ne_nil (hs : s.Sound) {bs : Bytes}
    (h : .data bs ∈ (drain s b).events) : bs ≠ [] := by
  fun_induction drain s b with
  | case1 => simp at h
  | case2 => simp at h
  | case3 s b v hf ih =>
    rcases List.mem_cons.mp h with rfl | hmem
    · exact decode_data_ne_nil hs hf
    · exact ih (decode_sound hs b) hmem

theorem feed_data_ne_nil {ps : List Bytes} (hs : s.Sound) {bs : Bytes}
    (h : .data bs ∈ (feed s b ps).events) : bs ≠ [] := by
  induction ps generalizing s b with
  | nil => simp [feed] at h
  | cons p ps ih =>
    simp only [feed] at h
    split at h
    · exact drain_data_ne_nil hs h
    · rcases List.mem_append.mp h with hd | hr
      · exact drain_data_ne_nil hs hd
      · exact ih (drain_sound hs _) hr

theorem settled_start : Settled .size [] := drain_of_waiting rfl

theorem standing_ne_of_fault (h : ∀ f, d.fault = some f → f.isLimit = false) :
    d.standing ≠ .broken true := by
  unfold Drained.standing
  split
  · simp
  · rename_i f hf
    simp [h f hf]

end HttpRelay.Chunked
