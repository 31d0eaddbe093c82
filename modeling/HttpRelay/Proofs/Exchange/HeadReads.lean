import HttpRelay.Proofs.Exchange.HeadCuts
import HttpRelay.Proofs.Exchange.Openings
import HttpRelay.Proofs.Exchange.Promptness

namespace HttpRelay

namespace Incoming

variable {ending : Ending}

def heard (i : Incoming) (es : List Effect) : Bytes := i.received [] (es.count .asked)

def unheard (i : Incoming) (es : List Effect) : Incoming :=
  ⟨i.arrivals.drop (es.count .asked), i.ending⟩

def bytes (i : Incoming) : Bytes := i.arrivals.flatMap Arrival.bytes

theorem heard_append_unheard (i : Incoming) (es : List Effect) :
    i.heard es ++ (i.unheard es).bytes = i.bytes := by
  rw [heard, received, List.nil_append, unheard, bytes, ← List.flatMap_append,
    List.take_append_drop]
  rfl

theorem heard_of_none (i : Incoming) {es : List Effect} (h : es.count .asked = 0) :
    i.heard es = [] := by
  rw [heard, received, h]
  rfl

theorem unheard_of_none (i : Incoming) {es : List Effect} (h : es.count .asked = 0) :
    i.unheard es = i := by
  rw [unheard, h]
  rfl

theorem heard_nil {es : List Effect} : heard ⟨[], ending⟩ es = [] := by
  rw [heard, received, List.take_nil]
  rfl

theorem heard_cons {a : Arrival} {as : List Arrival} {es fs : List Effect}
    (h : es.count .asked = fs.count .asked + 1) :
    heard ⟨a :: as, ending⟩ es = a.bytes ++ heard ⟨as, ending⟩ fs := by
  rw [heard, received, h]
  rfl

theorem unheard_cons {a : Arrival} {as : List Arrival} {es fs : List Effect}
    (h : es.count .asked = fs.count .asked + 1) :
    unheard ⟨a :: as, ending⟩ es = unheard ⟨as, ending⟩ fs := by
  rw [unheard, h]
  rfl

theorem heard_cons_of_one {a : Arrival} {as : List Arrival} {es : List Effect}
    (h : es.count .asked = 1) : heard ⟨a :: as, ending⟩ es = a.bytes := by
  rw [heard, received, h]
  simp

theorem unheard_cons_of_one {a : Arrival} {as : List Arrival} {es : List Effect}
    (h : es.count .asked = 1) : unheard ⟨a :: as, ending⟩ es = ⟨as, ending⟩ := by
  rw [unheard, h]
  rfl

theorem heard_congr (i : Incoming) {es fs : List Effect}
    (h : es.count .asked = fs.count .asked) : i.heard es = i.heard fs := by
  rw [heard, h]
  rfl

theorem unheard_congr (i : Incoming) {es fs : List Effect}
    (h : es.count .asked = fs.count .asked) : i.unheard es = i.unheard fs := by
  rw [unheard, h]
  rfl

end Incoming

namespace HeadSearch

variable {buffer more rest : Bytes} {head : Head} {received : Bool} {ending : Ending}
  {arrivals : List Arrival}

theorem look_text {t : HeadText} (hcount : t.fields.length ≤ HeadReader.maxHeaders)
    (hinterim : t.head.isInterim = true) (rest : Bytes) :
    (look (t.bytes ++ rest)).settled = (look rest).settled ∧
      (look (t.bytes ++ rest)).buffer = (look rest).buffer := by
  rw [look_of_interim (t.scan_bytes rest hcount) hinterim]
  exact ⟨rfl, rfl⟩

theorem look_heads (s : HeadSeries) (rest : Bytes) :
    (look (s.bytes ++ rest)).settled = some (.ok s.final.head) ∧
      (look (s.bytes ++ rest)).buffer = rest := by
  obtain ⟨interims, final, hcounted, hinterim, hcount, hfinal⟩ := s
  dsimp only [HeadSeries.bytes]
  induction interims with
  | nil =>
    rw [List.flatMap_nil, List.nil_append, look_of_final (final.scan_bytes rest hcount) hfinal]
    exact ⟨rfl, rfl⟩
  | cons t ts ih =>
    rw [List.forall_mem_cons] at hcounted hinterim
    obtain ⟨hsettled, hbuffer⟩ := look_text hcounted.1 hinterim.1
      (ts.flatMap HeadText.bytes ++ final.bytes ++ rest)
    rw [List.flatMap_cons, List.append_assoc, List.append_assoc, ← List.append_assoc _ final.bytes,
      hsettled, hbuffer]
    exact ih hcounted.2 hinterim.2

theorem look_found_iff : (look buffer).settled = some (.ok head) ∧ (look buffer).buffer = rest ↔
    ∃ s : HeadSeries, s.final.head = head ∧ buffer = s.bytes ++ rest := by
  constructor
  · rintro ⟨hsettled, rfl⟩
    obtain ⟨s, hbytes, hhead⟩ := look_found hsettled
    exact ⟨s, hhead, hbytes⟩
  · rintro ⟨s, rfl, rfl⟩
    exact look_heads s rest

theorem look_append (h : (look buffer).settled = none) (more : Bytes) :
    (look (buffer ++ more)).settled = (look ((look buffer).buffer ++ more)).settled ∧
      (look (buffer ++ more)).buffer = (look ((look buffer).buffer ++ more)).buffer := by
  fun_induction look buffer with
  | case1 buffer => exact ⟨rfl, rfl⟩
  | case2 buffer fault => cases h
  | case3 buffer first behind hscan hinterim l ih =>
    obtain ⟨hsettled, hbuffer⟩ := ih h
    rw [look_of_interim (Wire.scan_append_of_done hscan more) hinterim]
    exact ⟨hsettled, hbuffer⟩
  | case4 buffer first behind hscan hfinal => cases h

theorem count_asked_look (l : Look) : l.effects.count .asked = 0 := by
  apply List.count_eq_zero.mpr
  intro h
  obtain ⟨status, -, hs⟩ := List.mem_map.mp h
  cases hs

theorem count_asked (l : Look) : (l.effects ++ [Effect.asked]).count .asked = 1 := by
  rw [List.count_append, count_asked_look]
  rfl

theorem count_asked_after (l : Look) (s : HeadSearch) :
    (s.after (l.effects ++ [.asked])).effects.count .asked = s.effects.count .asked + 1 := by
  rw [after, List.count_append, count_asked, Nat.add_comm]

theorem Searches.incoming {s : HeadSearch} (h : Searches ending received buffer arrivals s) :
    s.incoming = Incoming.unheard ⟨arrivals, ending⟩ s.effects := by
  induction h with
  | settled => exact (Incoming.unheard_of_none _ (count_asked_look _)).symm
  | ended =>
    rw [Incoming.unheard, List.drop_nil]
  | data _ _ ih => exact ih.trans (Incoming.unheard_cons (count_asked_after _ _)).symm
  | fault => exact (Incoming.unheard_cons_of_one (count_asked _)).symm

theorem pending_iff {incoming : Incoming} {es : List Effect} {o : Option (Except Failure Head)}
    {b : Bytes} (h : (look buffer).settled = none) (hes : incoming.heard es = [])
    (ho : o ≠ some (.ok head)) : (o = some (.ok head) ∧ b = rest) ↔
      (look (buffer ++ incoming.heard es)).settled = some (.ok head) ∧
        (look (buffer ++ incoming.heard es)).buffer = rest := by
  rw [hes, List.append_nil, h]
  exact iff_of_false (fun hfound => ho hfound.1) nofun

theorem Searches.found_iff {s : HeadSearch} (h : Searches ending received buffer arrivals s) :
    (s.outcome = some (.ok head) ∧ s.buffer = rest) ↔
      let read := buffer ++ Incoming.heard ⟨arrivals, ending⟩ s.effects
      (look read).settled = some (.ok head) ∧ (look read).buffer = rest := by
  dsimp only
  induction h with
  | settled hl =>
    rw [Incoming.heard_of_none _ (count_asked_look _), List.append_nil, hl]
  | ended hl =>
    apply pending_iff hl Incoming.heard_nil
    intro hfound
    cases ending <;> cases hfound
  | data hl _ ih =>
    rw [Incoming.heard_cons (count_asked_after _ _), Arrival.bytes, (look_append hl _).1,
      (look_append hl _).2, ← List.append_assoc]
    exact ih
  | fault hl =>
    apply pending_iff hl (Incoming.heard_cons_of_one (count_asked _))
    intro hfound
    cases hfound

theorem nextHead_found_iff {incoming : Incoming} :
    ((nextHead [] incoming).outcome = some (.ok head) ∧ (nextHead [] incoming).buffer = rest) ↔
      ∃ s : HeadSeries, s.final.head = head ∧
        incoming.heard (nextHead [] incoming).effects = s.bytes ++ rest := by
  rw [← look_found_iff]
  exact (searches _ _ _ _).found_iff

end HeadSearch

end HttpRelay
