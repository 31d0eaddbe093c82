import HttpRelay.Proofs.Exchange.Delivery
import HttpRelay.Proofs.Http.HeadForms

namespace HttpRelay

structure HeadSeries where
  interims : List HeadText
  final : HeadText
  interims_counted : ∀ t ∈ interims, t.fields.length ≤ HeadReader.maxHeaders
  interims_interim : ∀ t ∈ interims, t.head.isInterim = true
  final_counted : final.fields.length ≤ HeadReader.maxHeaders
  final_final : final.head.isInterim = false

namespace HeadSeries

def bytes (s : HeadSeries) : Bytes := s.interims.flatMap HeadText.bytes ++ s.final.bytes

structure Short (s : HeadSeries) : Prop where
  interims : ∀ t ∈ s.interims, t.bytes.length ≤ maxHead
  final : s.final.bytes.length ≤ maxHead

def single (t : HeadText) (hcount : t.fields.length ≤ HeadReader.maxHeaders)
    (hfinal : t.head.isInterim = false) : HeadSeries :=
  ⟨[], t, by simp, by simp, hcount, hfinal⟩

def cons (t : HeadText) (hcount : t.fields.length ≤ HeadReader.maxHeaders)
    (hinterim : t.head.isInterim = true) (s : HeadSeries) : HeadSeries :=
  { s with
    interims := t :: s.interims
    interims_counted := List.forall_mem_cons.mpr ⟨hcount, s.interims_counted⟩
    interims_interim := List.forall_mem_cons.mpr ⟨hinterim, s.interims_interim⟩ }

theorem bytes_cons (t : HeadText) (hcount : t.fields.length ≤ HeadReader.maxHeaders)
    (hinterim : t.head.isInterim = true) (s : HeadSeries) :
    (s.cons t hcount hinterim).bytes = t.bytes ++ s.bytes :=
  List.append_assoc _ _ _

theorem Short.leads {s : HeadSeries} (h : s.Short) (rest : Bytes) :
    Leads s.final.head rest (s.bytes ++ rest) :=
  HeadsText.leads ⟨s.interims, s.final, fun t ht => ⟨s.interims_counted t ht, h.interims t ht⟩,
    s.interims_interim, ⟨s.final_counted, h.final⟩, s.final_final⟩ rest

end HeadSeries

namespace HeadSearch

variable {buffer rest : Bytes} {head : Head} {received : Bool} {ending : Ending}
  {arrivals : List Arrival}

theorem look_found (h : (look buffer).settled = some (.ok head)) :
    ∃ s : HeadSeries, buffer = s.bytes ++ (look buffer).buffer ∧ s.final.head = head := by
  fun_induction look buffer with
  | case1 buffer s hs => split at h <;> cases h
  | case2 buffer fault hs => cases h
  | case3 buffer first rest hs hinterim l ih =>
    obtain ⟨t, hcount, rfl, rfl⟩ := HeadReader.scan_sound hs
    obtain ⟨s, hbytes, hhead⟩ := ih h
    refine ⟨s.cons t hcount hinterim, ?_, hhead⟩
    rw [HeadSeries.bytes_cons, List.append_assoc, ← hbytes]
  | case4 buffer first rest hs hfinal =>
    obtain ⟨t, hcount, rfl, rfl⟩ := HeadReader.scan_sound hs
    obtain rfl := Except.ok.inj (Option.some.inj h)
    exact ⟨.single t hcount (eq_false_of_ne_true hfinal), rfl, rfl⟩

theorem look_pending {more : Bytes} {s : HeadSeries} (h : (look buffer).settled = none)
    (hs : (look buffer).buffer ++ more = s.bytes ++ rest) :
    ∃ t : HeadSeries, buffer ++ more = t.bytes ++ rest ∧ t.final = s.final := by
  fun_induction look buffer with
  | case1 buffer => exact ⟨s, hs, rfl⟩
  | case2 buffer fault => cases h
  | case3 buffer first behind hscan hinterim l ih =>
    obtain ⟨t, hcount, rfl, rfl⟩ := HeadReader.scan_sound hscan
    obtain ⟨s', hbytes, hfinal⟩ := ih h hs
    refine ⟨s'.cons t hcount hinterim, ?_, hfinal⟩
    rw [HeadSeries.bytes_cons, List.append_assoc, hbytes, List.append_assoc]
  | case4 buffer first behind hscan hfinal => cases h

theorem Searches.sound {s : HeadSearch} (hs : Searches ending received buffer arrivals s)
    (h : s.outcome = some (.ok head)) :
    ∃ (heads : HeadSeries) (ps : List Bytes) (later : List Arrival),
      arrivals = Arrival.pieces ps ++ later ∧ s.incoming = ⟨later, ending⟩ ∧
      buffer ++ ps.flatten = heads.bytes ++ s.buffer ∧ heads.final.head = head := by
  induction hs with
  | @settled received buffer arrivals outcome hl =>
    -- a look that settles the search reads no more, whatever has arrived
    obtain ⟨heads, hbytes, hhead⟩ := look_found (hl.trans h)
    exact ⟨heads, [], arrivals, rfl, rfl, by rwa [List.flatten_nil, List.append_nil], hhead⟩
  | ended => cases ending <;> cases h
  | @data received buffer bytes filled arrivals s hl _ ih =>
    obtain ⟨heads, ps, later, rfl, hincoming, hbytes, hhead⟩ := ih h
    rw [List.append_assoc, ← List.flatten_cons] at hbytes
    obtain ⟨t, ht, hfinal⟩ := look_pending hl hbytes
    refine ⟨t, bytes :: ps, later, ?_, hincoming, ht, by rw [hfinal, hhead]⟩
    rw [Arrival.pieces_cons filled, List.cons_append]
  | fault => cases h

structure Finds (s : HeadSearch) (head : Head) (rest : Bytes) (later : List Arrival)
    (ending : Ending) : Prop where
  outcome : s.outcome = some (.ok head)
  left : ∃ qs : List Bytes, s.buffer ++ qs.flatten = rest ∧
    s.incoming = ⟨Arrival.pieces qs ++ later, ending⟩

theorem finds_of_leads {ps : List Bytes} (h : Leads head rest (buffer ++ ps.flatten))
    (later : List Arrival) (ending : Ending) :
    (nextHead buffer ⟨Arrival.pieces ps ++ later, ending⟩).Finds head rest later ending := by
  obtain ⟨qs, left, hrest, houtcome, hbuffer, hincoming⟩ :=
    search_leads later (!buffer.isEmpty) ending h
  exact ⟨houtcome, qs, by rw [← hrest, ← hbuffer]; rfl, hincoming⟩

end HeadSearch

open HeadSearch in
/-- Heads within the limits are found however they are cut into reads, and nothing behind them
is lost; and bytes in which a head is found for one cut are such heads. -/
theorem nextHead_independent_of_cuts (buffer : Bytes) (ps : List Bytes) :
    (∀ (heads : HeadSeries) (rest : Bytes), heads.Short →
      buffer ++ ps.flatten = heads.bytes ++ rest → ∀ later ending,
        (nextHead buffer ⟨Arrival.pieces ps ++ later, ending⟩).Finds heads.final.head rest later
          ending) ∧
    ∀ ending head, (nextHead buffer ⟨Arrival.pieces ps, ending⟩).outcome = some (.ok head) →
      ∃ (heads : HeadSeries) (rest : Bytes), heads.final.head = head ∧
        buffer ++ ps.flatten = heads.bytes ++ rest ∧
        (nextHead buffer ⟨Arrival.pieces ps, ending⟩).Finds head rest [] ending ∧
        (heads.Short → ∀ (buffer' : Bytes) (ps' : List Bytes),
          buffer' ++ ps'.flatten = buffer ++ ps.flatten → ∀ later' ending',
            (nextHead buffer' ⟨Arrival.pieces ps' ++ later', ending'⟩).Finds head rest later'
              ending') := by
  constructor
  · intro heads rest hshort hbytes later ending
    have hleads := hshort.leads rest
    rw [← hbytes] at hleads
    exact finds_of_leads hleads later ending
  · intro ending head h
    obtain ⟨heads, read, later, harrivals, hincoming, hbytes, rfl⟩ :=
      (searches _ _ _ _).sound h
    obtain ⟨unread, hflatten, rfl⟩ := Arrival.pieces_eq_append harrivals
    let found := nextHead buffer ⟨Arrival.pieces ps, ending⟩
    have hall : buffer ++ ps.flatten = heads.bytes ++ (found.buffer ++ unread.flatten) := by
      rw [hflatten, ← List.append_assoc, hbytes, List.append_assoc]
      rfl
    refine ⟨heads, found.buffer ++ unread.flatten, rfl, hall, ?_, ?_⟩
    · refine ⟨h, unread, rfl, ?_⟩
      rw [List.append_nil]
      exact hincoming
    · intro hshort buffer' ps' hps' later' ending'
      have hleads := hshort.leads (found.buffer ++ unread.flatten)
      rw [← hall, ← hps'] at hleads
      exact finds_of_leads hleads later' ending'

def Sample.series : HeadSeries :=
  ⟨heads.interims, heads.final, by decide +kernel, by decide +kernel, by decide +kernel,
    by decide +kernel⟩

theorem nextHead_sample :
    (Sample.series.Short ∧ Sample.heads.bytes.take 9 ++
      [Sample.heads.bytes.drop 9, [0x21]].flatten = Sample.series.bytes ++ [0x21]) ∧
    (nextHead (Sample.heads.bytes.take 9)
      ⟨Arrival.pieces [Sample.heads.bytes.drop 9, [0x21]] ++ [], .silent⟩).Finds
        Sample.series.final.head [0x21] [] .silent := by
  have hshort : Sample.series.Short := ⟨by decide +kernel, by decide +kernel⟩
  have hbytes : Sample.heads.bytes.take 9 ++ [Sample.heads.bytes.drop 9, [0x21]].flatten =
      Sample.series.bytes ++ [0x21] := by decide +kernel
  refine ⟨⟨hshort, hbytes⟩, ?_⟩
  exact (nextHead_independent_of_cuts _ _).1 Sample.series [0x21] hshort hbytes [] .silent

end HttpRelay
