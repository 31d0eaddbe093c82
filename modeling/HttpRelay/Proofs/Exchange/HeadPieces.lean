import HttpRelay.Exchange.NextHead
import HttpRelay.Proofs.Wire.Pieces
import HttpRelay.Proofs.Wire.Resume

namespace HttpRelay

namespace HeadReader

variable {bs : Bytes} {head : Head}

def Reads (bs : Bytes) (head : Head) : Prop := scan bs = .done head []

theorem Reads.scan_append (h : Reads bs head) (rest : Bytes) :
    scan (bs ++ rest) = .done head rest := Wire.scan_append_of_done h rest

theorem Reads.scan_part {ps qs : Bytes} (h : Reads (ps ++ qs) head) (hq : qs ≠ []) :
    ∃ s, scan ps = .more s := Wire.scan_more_of_cut h hq

end HeadReader

inductive Leads (head : Head) (rest : Bytes) : Bytes → Prop where
  | final {bs : Bytes} (reads : HeadReader.Reads bs head) (short : bs.length ≤ maxHead)
      (final : head.isInterim = false) : Leads head rest (bs ++ rest)
  | interim {bs ws : Bytes} {interim : Head} (reads : HeadReader.Reads bs interim)
      (short : bs.length ≤ maxHead) (isInterim : interim.isInterim = true)
      (behind : Leads head rest ws) : Leads head rest (bs ++ ws)

namespace HeadSearch

variable {bs buffer more rest : Bytes} {head : Head} {s : HeadReader.Stage}

theorem look_of_more (h : HeadReader.scan buffer = .more s) (hl : buffer.length ≤ maxHead) :
    look buffer = ⟨[], none, buffer⟩ := by
  have hn : ¬ maxHead < buffer.length := Nat.not_lt.mpr hl
  rw [look]
  split <;> simp_all

theorem look_of_outgrown (h : HeadReader.scan buffer = .more s) (hl : maxHead < buffer.length) :
    look buffer = ⟨[], some (.error headTooLong), buffer⟩ := by
  rw [look]
  split <;> simp_all

theorem look_of_bad {fault : HeadReader.Fault} (h : HeadReader.scan buffer = .bad fault) :
    look buffer = ⟨[], some (.error (badHead fault)), buffer⟩ := by
  rw [look]
  split <;> simp_all

theorem look_of_final (h : HeadReader.scan buffer = .done head rest)
    (hf : head.isInterim = false) : look buffer = ⟨[], some (.ok head), rest⟩ := by
  rw [look]
  split <;> simp_all

theorem look_of_interim (h : HeadReader.scan buffer = .done head rest)
    (hi : head.isInterim = true) :
    look buffer = { look rest with interim := head.status :: (look rest).interim } := by
  rw [look]
  split <;> simp_all

theorem search_of_settled {received : Bool} {ending : Ending} {outcome : Except Failure Head}
    (h : (look buffer).settled = some outcome) (arrivals : List Arrival) :
    search received buffer ending arrivals =
      ⟨(look buffer).effects, some outcome, (look buffer).buffer, ⟨arrivals, ending⟩⟩ := by
  cases arrivals <;> simp only [search, h]

theorem search_of_pending {received : Bool} {ending : Ending} (h : (look buffer).settled = none)
    {bytes : Bytes} (filled : bytes ≠ []) (arrivals : List Arrival) :
    search received buffer ending (.data bytes filled :: arrivals) =
      (search true ((look buffer).buffer ++ bytes) ending arrivals).after
        ((look buffer).effects ++ [.asked]) := by
  simp only [search, h]

inductive Standing (head : Head) (rest more : Bytes) (l : Look) : Prop where
  | found (settled : l.settled = some (.ok head)) (left : l.buffer ++ more = rest)
  | pending (settled : l.settled = none) (left : Leads head rest (l.buffer ++ more))
      (more_ne_nil : more ≠ [])

theorem look_of_part {ts : Bytes} (h : HeadReader.Reads (buffer ++ ts) head)
    (hl : (buffer ++ ts).length ≤ maxHead) (hts : ts ≠ []) :
    look buffer = ⟨[], none, buffer⟩ := by
  obtain ⟨s, hs⟩ := h.scan_part hts
  rw [List.length_append] at hl
  exact look_of_more hs (Nat.le_trans (Nat.le_add_right _ _) hl)

theorem look_standing {ws : Bytes} (h : Leads head rest ws) (hb : buffer ++ more = ws) :
    Standing head rest more (look buffer) := by
  induction h generalizing buffer with
  | @final bs reads short final =>
    rcases Wire.cut_cases hb with ⟨ts, hts, rfl, rfl⟩ | ⟨ts, rfl, rfl⟩
    · rw [look_of_part reads short hts]
      refine .pending rfl ?_ (by simp [hts])
      rw [← List.append_assoc]
      exact .final reads short final
    · rw [look_of_final (reads.scan_append ts) final]
      exact .found rfl rfl
  | @interim bs ws interim reads short isInterim behind ih =>
    rcases Wire.cut_cases hb with ⟨ts, hts, rfl, rfl⟩ | ⟨ts, rfl, rfl⟩
    · rw [look_of_part reads short hts]
      refine .pending rfl ?_ (by simp [hts])
      rw [← List.append_assoc]
      exact .interim reads short isInterim behind
    · rw [look_of_interim (reads.scan_append ts) isInterim]
      cases ih rfl with
      | found settled left => exact .found settled left
      | pending settled left more_ne_nil => exact .pending settled left more_ne_nil

theorem search_leads {ps : List Bytes} (later : List Arrival) (received : Bool)
    (ending : Ending) (h : Leads head rest (buffer ++ ps.flatten)) :
    ∃ qs : List Bytes, ∃ left : Bytes, left ++ qs.flatten = rest ∧
      (search received buffer ending (Arrival.pieces ps ++ later)).outcome = some (.ok head) ∧
      (search received buffer ending (Arrival.pieces ps ++ later)).buffer = left ∧
      (search received buffer ending (Arrival.pieces ps ++ later)).incoming =
        ⟨Arrival.pieces qs ++ later, ending⟩ := by
  induction ps generalizing received buffer with
  | nil =>
    cases look_standing h rfl with
    | found settled left =>
      refine ⟨[], (look buffer).buffer, left, ?_⟩
      rw [search_of_settled settled]
      exact ⟨rfl, rfl, rfl⟩
    | pending settled left more_ne_nil => exact absurd rfl more_ne_nil
  | cons p ps ih =>
    by_cases hp : p = []
    · subst hp
      exact ih received h
    cases look_standing h rfl with
    | found settled left =>
      refine ⟨p :: ps, (look buffer).buffer, left, ?_⟩
      rw [search_of_settled settled]
      exact ⟨rfl, rfl, rfl⟩
    | pending settled left more_ne_nil =>
      rw [List.flatten_cons, ← List.append_assoc] at left
      obtain ⟨qs, leftover, hrest, ho, hbuf, hin⟩ := ih true left
      refine ⟨qs, leftover, hrest, ?_⟩
      rw [Arrival.pieces_cons hp, List.cons_append, search_of_pending settled]
      exact ⟨ho, hbuf, hin⟩

theorem look_of_overlong {ts : Bytes} (h : HeadReader.Reads (buffer ++ ts) head) (hts : ts ≠ [])
    (hl : maxHead < buffer.length) : look buffer = ⟨[], some (.error headTooLong), buffer⟩ := by
  obtain ⟨s, hs⟩ := h.scan_part hts
  exact look_of_outgrown hs hl

theorem search_overlong {ts : Bytes} {ps : List Bytes} (later : List Arrival) (received : Bool)
    (ending : Ending) (h : HeadReader.Reads (buffer ++ ps.flatten ++ ts) head) (hts : ts ≠ [])
    (hl : maxHead < (buffer ++ ps.flatten).length) :
    (search received buffer ending (Arrival.pieces ps ++ later)).outcome =
      some (.error headTooLong) := by
  induction ps generalizing received buffer with
  | nil =>
    rw [List.flatten_nil, List.append_nil] at h hl
    have hlook := look_of_overlong h hts hl
    rw [search_of_settled (by rw [hlook])]
  | cons p ps ih =>
    by_cases hp : p = []
    · subst hp
      exact ih received h hl
    rw [List.flatten_cons, ← List.append_assoc] at h hl
    have hsplit : HeadReader.Reads (buffer ++ (p ++ (ps.flatten ++ ts))) head := by
      simpa only [List.append_assoc] using h
    have hne : p ++ (ps.flatten ++ ts) ≠ [] := by simp [hts]
    by_cases hlong : maxHead < buffer.length
    · have hlook := look_of_overlong hsplit hne hlong
      rw [search_of_settled (by rw [hlook])]
    · obtain ⟨s, hs⟩ := hsplit.scan_part hne
      have hlook := look_of_more hs (Nat.not_lt.mp hlong)
      rw [Arrival.pieces_cons hp, List.cons_append, search_of_pending (by rw [hlook]), hlook]
      exact ih true h hl

end HeadSearch

end HttpRelay
