import HttpRelay.Proofs.Http.ChunkedForm

namespace HttpRelay.Chunked

variable {s : State} {b : Bytes} {es : List BodyEvent}

structure Handed where
  size : Nat
  pieces : List Bytes
  size_pos : 0 < size
  size_lt : size < 2 ^ 64
  pieces_ne_nil : ∀ p ∈ pieces, p ≠ []
  whole : pieces.flatten.length = size

def opened (size : Nat) (pieces : List Bytes) : List BodyEvent :=
  .chunkStart size :: pieces.map .data

section Pieces

variable {pieces : List Bytes} {p : Bytes}

theorem length_pieces (pieces : List Bytes) (p : Bytes) :
    (pieces ++ [p]).flatten.length = pieces.flatten.length + p.length := by
  rw [List.flatten_append, List.length_append, List.flatten_singleton]

theorem concat_ne_nil (hne : ∀ q ∈ pieces, q ≠ []) (hp : p ≠ []) :
    ∀ q ∈ pieces ++ [p], q ≠ [] := by
  intro q hq
  rcases List.mem_append.mp hq with hold | hnew
  · exact hne q hold
  · rwa [List.mem_singleton.mp hnew]

end Pieces

namespace Handed

def close {size : Nat} {pieces : List Bytes} {last : Bytes} (hlt : size < 2 ^ 64)
    (hne : ∀ p ∈ pieces, p ≠ []) (hlast : last ≠ [])
    (hsum : pieces.flatten.length + last.length = size) : Handed where
  size := size
  pieces := pieces ++ [last]
  size_pos := hsum ▸ Nat.add_pos_right _ (List.length_pos_iff.mpr hlast)
  size_lt := hlt
  pieces_ne_nil := concat_ne_nil hne hlast
  whole := (length_pieces pieces last).trans hsum

def events (c : Handed) : List BodyEvent := opened c.size c.pieces ++ [.chunkEnd]

theorem pieces_exist (c : Handed) : c.pieces ≠ [] := by
  intro h
  have hwhole := c.whole
  rw [h] at hwhole
  exact Nat.ne_of_lt c.size_pos hwhole

end Handed

def Opens : BodyEvent → Prop
  | .chunkStart _ | .data _ => True
  | .chunkEnd | .done => False

theorem opens_of_mem {size : Nat} {pieces : List Bytes} {e : BodyEvent}
    (h : e ∈ opened size pieces) : Opens e := by
  rcases List.mem_cons.mp h with rfl | hdata
  · trivial
  · obtain ⟨p, -, rfl⟩ := List.mem_map.mp hdata
    trivial

theorem opened_inj {xs ys : List BodyEvent} {m n : Nat} {ps qs : List Bytes}
    (h : xs ++ opened m ps = ys ++ opened n qs) : m = n ∧ ps = qs := by
  have hdata : ∀ {e : BodyEvent} {as : List BodyEvent} {k l : Nat} {us vs : List Bytes},
      opened k us ≠ e :: as ++ opened l vs := by
    intro e as k l us vs heq
    have hmem : .chunkStart l ∈ us.map BodyEvent.data := by
      rw [(List.cons.inj heq).2]
      exact List.mem_append_right _ List.mem_cons_self
    obtain ⟨p, -, hp⟩ := List.mem_map.mp hmem
    cases hp
  have hsame : ∀ {k l : Nat} {us vs : List Bytes}, opened k us = opened l vs →
      k = l ∧ us = vs := by
    intro k l us vs heq
    obtain ⟨hsize, hpieces⟩ := List.cons.inj heq
    exact ⟨BodyEvent.chunkStart.inj hsize,
      (List.map_inj_right fun _ _ => BodyEvent.data.inj).mp hpieces⟩
  rcases List.append_eq_append_iff.mp h with ⟨as, -, has⟩ | ⟨as, -, has⟩
  · cases as with
    | nil => exact hsame has
    | cons e as => exact absurd has hdata
  · cases as with
    | nil =>
      obtain ⟨hsize, hpieces⟩ := hsame has
      exact ⟨hsize.symm, hpieces.symm⟩
    | cons e as => exact absurd has hdata

theorem opened_concat (size : Nat) (pieces : List Bytes) (p : Bytes) :
    opened size (pieces ++ [p]) = opened size pieces ++ [.data p] := by
  rw [opened, List.map_append]
  rfl

theorem ne_opened {before : List BodyEvent} {n : Nat} {pieces : List Bytes}
    (h : ∀ e, es.getLast? = some e → ¬ Opens e) : es ≠ before ++ opened n pieces := by
  rintro rfl
  have hne : opened n pieces ≠ [] := List.cons_ne_nil _ _
  have hlast : (before ++ opened n pieces).getLast? = some ((opened n pieces).getLast hne) := by
    rw [List.getLast?_append, List.getLast?_eq_some_getLast hne]
    rfl
  exact h _ hlast (opens_of_mem (List.getLast_mem hne))

theorem not_opens_of_chunks (cs : List Handed) (e : BodyEvent)
    (h : (cs.flatMap Handed.events).getLast? = some e) : ¬ Opens e := by
  induction cs with
  | nil => cases h
  | cons c cs ih =>
    rw [List.flatMap_cons, List.getLast?_append] at h
    cases hrest : (cs.flatMap Handed.events).getLast? with
    | some last =>
      rw [hrest] at h
      exact ih (hrest.trans h)
    | none =>
      rw [hrest, Handed.events, List.getLast?_concat] at h
      obtain rfl := Option.some.inj h
      exact id

theorem done_not_mem_chunks (cs : List Handed) : .done ∉ cs.flatMap Handed.events := by
  intro h
  obtain ⟨c, -, hc⟩ := List.mem_flatMap.mp h
  rcases List.mem_append.mp hc with hopen | hend
  · exact opens_of_mem hopen
  · cases List.mem_singleton.mp hend

inductive Reported : State → List BodyEvent → Prop
  | size (cs : List Handed) : Reported .size (cs.flatMap Handed.events)
  | data (cs : List Handed) (size : Nat) (pieces : List Bytes) (n : Nat) (hn : 0 < n)
      (hlt : size < 2 ^ 64) (hne : ∀ p ∈ pieces, p ≠ [])
      (hsum : pieces.flatten.length + n = size) :
      Reported (.data n) (cs.flatMap Handed.events ++ opened size pieces)
  | endPending (cs : List Handed) (c : Handed) :
      Reported .endPending (cs.flatMap Handed.events ++ opened c.size c.pieces)
  | dataEnd (cs : List Handed) : Reported .dataEnd (cs.flatMap Handed.events)
  | trailers (cs : List Handed) : Reported .trailers (cs.flatMap Handed.events)
  | done (cs : List Handed) : Reported .done (cs.flatMap Handed.events ++ [.done])

def Reply.Reports (r : Reply) (es : List BodyEvent) : Prop := Reported r.state (es ++ r.events)

theorem Reply.Reports.still {r : Reply} (h : Reported s es) (hs : r.state = s)
    (he : r.events = []) : r.Reports es := by
  rw [Reports, hs, he, List.append_nil]
  exact h

theorem skipTrailers_reports (cs : List Handed) (b : Bytes) :
    (skipTrailers b).Reports (cs.flatMap Handed.events) := by
  fun_induction skipTrailers b with
  | case1 b hs =>
    apply Reply.Reports.still (.trailers cs) rfl
    by_cases hl : maxLine < b.length
    · simp [Reply.events, hl]
    · simp [Reply.events, hl]
  | case2 b rest hs => exact .done cs
  | case3 b rest x line hs ih => exact ih

theorem readSize_reports (cs : List Handed) (b : Bytes) :
    (readSize b).Reports (cs.flatMap Handed.events) := by
  unfold readSize
  split
  · exact skipTrailers_reports cs _
  · rename_i size rest hn hs
    obtain ⟨t, rfl, rfl⟩ := SizeLine.scan_sound hs
    exact .data cs t.value [] t.value (Nat.pos_of_ne_zero hn) t.value_lt nofun (Nat.zero_add _)
  · apply Reply.Reports.still (.size cs) rfl
    by_cases hl : maxLine < b.length
    · simp [Reply.events, hl]
    · simp [Reply.events, hl]
  · exact Reply.Reports.still (.size cs) rfl rfl

theorem readData_reports (cs : List Handed) {size n : Nat} {pieces : List Bytes} (hn : 0 < n)
    (hlt : size < 2 ^ 64) (hne : ∀ p ∈ pieces, p ≠ [])
    (hsum : pieces.flatten.length + n = size) (b : Bytes) :
    (readData n b).Reports (cs.flatMap Handed.events ++ opened size pieces) := by
  have hreply : ∀ {p rest : Bytes} {t : State},
      Reported t (cs.flatMap Handed.events ++ opened size (pieces ++ [p])) →
        Reply.Reports ⟨.ok (some (.data p)), t, rest⟩
          (cs.flatMap Handed.events ++ opened size pieces) := by
    intro p rest t h
    rw [opened_concat, ← List.append_assoc] at h
    exact h
  by_cases hb : b = []
  · subst hb
    exact Reply.Reports.still (.data cs size pieces n hn hlt hne hsum) rfl rfl
  rcases Nat.lt_or_ge b.length n with hshort | hfull
  · rw [readData_of_lt hb hshort]
    apply hreply
    apply Reported.data cs size _ _ (Nat.sub_pos_of_lt hshort) hlt (concat_ne_nil hne hb)
    rw [length_pieces]
    omega
  · rw [readData_of_le hn hfull]
    apply hreply
    have hpiece : (b.take n).length = n := List.length_take_of_le hfull
    have htake : b.take n ≠ [] := by
      rw [← List.length_pos_iff, hpiece]
      exact hn
    exact .endPending cs (.close hlt hne htake (hpiece.symm ▸ hsum))

theorem readDataEnd_reports (cs : List Handed) (b : Bytes) :
    (readDataEnd b).Reports (cs.flatMap Handed.events) := by
  unfold readDataEnd
  split
  · exact readSize_reports cs _
  · exact Reply.Reports.still (.dataEnd cs) rfl rfl
  · exact Reply.Reports.still (.dataEnd cs) rfl rfl

theorem decode_reports (h : Reported s es) (b : Bytes) : (decode s b).Reports es := by
  cases h with
  | size cs => exact readSize_reports cs b
  | data cs size pieces n hn hlt hne hsum => exact readData_reports cs hn hlt hne hsum b
  | endPending cs c =>
    have hend := Reported.dataEnd (cs ++ [c])
    rw [List.flatMap_append, List.flatMap_singleton, Handed.events, ← List.append_assoc] at hend
    exact hend
  | dataEnd cs => exact readDataEnd_reports cs b
  | trailers cs => exact skipTrailers_reports cs b
  | done cs => exact Reply.Reports.still (.done cs) rfl rfl

namespace Session

theorem call_reported {s : Session} (h : Reported s.state s.events) (c : Call) :
    Reported (s.call c).state (s.call c).events := by
  cases c with
  | feed p => exact h
  | decode => exact decode_reports h s.buffer

theorem run_reported (calls : List Call) : Reported (run calls).state (run calls).events :=
  List.foldlRecOn (motive := fun s : Session => Reported s.state s.events) calls call
    (.size []) fun _ hs c _ => call_reported hs c

end Session

section Again

variable {f : Fault}

theorem skipTrailers_again (h : (skipTrailers b).found = .error f) :
    decode (skipTrailers b).state (skipTrailers b).buffer = skipTrailers b := by
  fun_induction skipTrailers b with
  | case1 b hs => exact skipTrailers_of_none hs
  | case2 => cases h
  | case3 b rest x line hs ih => exact ih h

theorem readSize_again (h : (readSize b).found = .error f) :
    decode (readSize b).state (readSize b).buffer = readSize b := by
  have hstill : ∀ {o : Except Fault (Option BodyEvent)}, readSize b = ⟨o, .size, b⟩ →
      decode (readSize b).state (readSize b).buffer = readSize b := by
    intro o ho
    rw [ho]
    exact ho
  cases hs : SizeLine.scan b with
  | more stage => exact hstill (readSize_of_more hs)
  | bad e =>
    apply hstill
    rw [readSize, hs]
  | done n rest =>
    cases n with
    | zero =>
      rw [readSize_of_zero hs] at h ⊢
      exact skipTrailers_again h
    | succ n =>
      rw [readSize, hs] at h
      cases h

theorem readDataEnd_again (h : (readDataEnd b).found = .error f) :
    decode (readDataEnd b).state (readDataEnd b).buffer = readDataEnd b := by
  have hstill : ∀ {o : Except Fault (Option BodyEvent)}, readDataEnd b = ⟨o, .dataEnd, b⟩ →
      decode (readDataEnd b).state (readDataEnd b).buffer = readDataEnd b := by
    intro o ho
    rw [ho]
    exact ho
  unfold readDataEnd at h
  split at h
  · exact readSize_again h
  · apply hstill
    rw [readDataEnd]
    assumption
  · cases h

theorem decode_again (h : (decode s b).found = .error f) :
    decode (decode s b).state (decode s b).buffer = decode s b := by
  cases s with
  | size => exact readSize_again h
  | data n =>
    simp only [decode, readData] at h
    split at h <;> cases h
  | endPending => cases h
  | dataEnd => exact readDataEnd_again h
  | trailers => exact skipTrailers_again h
  | done => cases h

end Again

namespace Reported

theorem grammar (h : Reported s es) :
    ∃ cs : List Handed, es <+: cs.flatMap Handed.events ++ [.done] := by
  have hchunk : ∀ (cs : List Handed) (c : Handed) {es : List BodyEvent}, es <+: c.events →
      cs.flatMap Handed.events ++ es <+: (cs ++ [c]).flatMap Handed.events ++ [.done] := by
    intro cs c es hes
    rw [List.flatMap_append, List.flatMap_singleton]
    exact ((List.prefix_append_right_inj _).mpr hes).trans (List.prefix_append _ _)
  cases h with
  | size cs => exact ⟨cs, List.prefix_append _ _⟩
  | data cs size pieces n hn hlt hne hsum =>
    -- the bytes that are still missing may be any
    have hmissing : List.replicate n (0 : UInt8) ≠ [] := by
      rw [ne_eq, List.replicate_eq_nil_iff]
      exact Nat.ne_of_gt hn
    have hlength : (List.replicate n (0 : UInt8)).length = n := List.length_replicate
    refine ⟨_, hchunk cs (.close hlt hne hmissing (hlength.symm ▸ hsum)) ?_⟩
    dsimp only [Handed.close]
    rw [Handed.events, opened_concat, List.append_assoc]
    exact List.prefix_append _ _
  | endPending cs c => exact ⟨cs ++ [c], hchunk cs c (List.prefix_append _ _)⟩
  | dataEnd cs => exact ⟨cs, List.prefix_append _ _⟩
  | trailers cs => exact ⟨cs, List.prefix_append _ _⟩
  | done cs => exact ⟨cs, List.prefix_rfl⟩

theorem opened {before : List BodyEvent} {size : Nat} {pieces : List Bytes}
    (h : Reported s (before ++ opened size pieces)) :
    (∃ n, s = .data n ∧ 0 < n ∧ pieces.flatten.length + n = size) ∨
      (s = .endPending ∧ pieces.flatten.length = size) := by
  generalize hes : before ++ Chunked.opened size pieces = es at h
  cases h with
  | size cs => exact absurd hes.symm (ne_opened (not_opens_of_chunks cs))
  | data cs m parts n hn hlt hne hsum =>
    obtain ⟨rfl, rfl⟩ := opened_inj hes
    exact .inl ⟨n, rfl, hn, hsum⟩
  | endPending cs c =>
    obtain ⟨rfl, rfl⟩ := opened_inj hes
    exact .inr ⟨rfl, c.whole⟩
  | dataEnd cs => exact absurd hes.symm (ne_opened (not_opens_of_chunks cs))
  | trailers cs => exact absurd hes.symm (ne_opened (not_opens_of_chunks cs))
  | done cs =>
    refine absurd hes.symm (ne_opened ?_)
    intro e he
    rw [List.getLast?_concat] at he
    obtain rfl := Option.some.inj he
    exact id

theorem state_of_done (h : Reported s es) (hdone : .done ∈ es) : s = .done := by
  have hopened : ∀ {cs : List Handed} {n : Nat} {pieces : List Bytes},
      .done ∉ cs.flatMap Handed.events ++ Chunked.opened n pieces := by
    intro cs n pieces hmem
    rcases List.mem_append.mp hmem with hchunks | hopen
    · exact done_not_mem_chunks cs hchunks
    · exact opens_of_mem hopen
  cases h with
  | size cs => exact absurd hdone (done_not_mem_chunks cs)
  | data => exact absurd hdone hopened
  | endPending => exact absurd hdone hopened
  | dataEnd cs => exact absurd hdone (done_not_mem_chunks cs)
  | trailers cs => exact absurd hdone (done_not_mem_chunks cs)
  | done => rfl

theorem done_mem_iff (h : Reported s es) : .done ∈ es ↔ s = .done := by
  constructor
  · exact h.state_of_done
  · rintro rfl
    cases h with
    | done cs => exact List.mem_append_right _ List.mem_cons_self

end Reported

namespace Session

/-- The events of a session follow the chunks, at every moment. -/
structure Orderly (s : Session) : Prop where
  grammar : ∃ cs : List Handed, (∀ c ∈ cs, c.pieces ≠ []) ∧
    s.events <+: cs.flatMap Handed.events ++ [.done]
  within {before : List BodyEvent} {size : Nat} {pieces : List Bytes} :
    s.events = before ++ opened size pieces → pieces.flatten.length ≤ size
  prompt {before : List BodyEvent} {size : Nat} {pieces : List Bytes} :
    s.events = before ++ opened size pieces → pieces.flatten.length = size → ∀ more,
      decode s.state (s.buffer ++ more) = ⟨.ok (some .chunkEnd), .dataEnd, s.buffer ++ more⟩
  finished : .done ∈ s.events → ∀ more,
    decode s.state (s.buffer ++ more) = ⟨.ok none, s.state, s.buffer ++ more⟩
  steady {f : Fault} : (decode s.state s.buffer).found = .error f →
    decode (s.call .decode).state (s.call .decode).buffer = decode s.state s.buffer

theorem orderly (calls : List Call) : (run calls).Orderly := by
  have hreported := run_reported calls
  constructor
  case grammar =>
    obtain ⟨cs, hcs⟩ := hreported.grammar
    exact ⟨cs, fun c _ => c.pieces_exist, hcs⟩
  case within =>
    intro before size pieces h
    rw [h] at hreported
    rcases hreported.opened with ⟨n, -, -, hsum⟩ | ⟨-, hsum⟩
    · omega
    · omega
  case prompt =>
    intro before size pieces h hwhole more
    rw [h] at hreported
    rcases hreported.opened with ⟨n, -, hn, hsum⟩ | ⟨hs, -⟩
    · omega
    · rw [hs]
      rfl
  case finished =>
    intro h more
    rw [hreported.state_of_done h]
    rfl
  case steady =>
    intro f h
    exact decode_again h

end Session

end HttpRelay.Chunked
