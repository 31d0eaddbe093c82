import HttpRelay.Proofs.Exchange.Fragments
import HttpRelay.Proofs.Exchange.Openings
import HttpRelay.Proofs.Http.BodyFeeds
import HttpRelay.Proofs.Wire.Pieces

namespace HttpRelay.Receipt

variable {f : Framing} {b payload : Bytes} {ps : List Bytes} {later : List Arrival}
  {ending : HttpRelay.Ending}

theorem flatMap_events (es : List BodyEvent) :
    (es.map Signal.event).flatMap Signal.data = Chunked.payload es :=
  List.flatMap_map Signal.event Signal.data es

theorem flatMap_drainedSignals (d : Framing.Drained) :
    (drainedSignals d).flatMap Signal.data = d.payload := by
  have hasked : (if d.stop = .hungry then [Signal.asked] else []).flatMap Signal.data = [] := by
    split <;> rfl
  rw [drainedSignals, List.flatMap_append, flatMap_events, hasked, List.append_nil]
  rfl

theorem collect_running (later : List Arrival) (ending : HttpRelay.Ending)
    (h : f.Running b ps.flatten payload) :
    (collect f b ending (Arrival.pieces ps ++ later)).outcome = some (.ok ()) ∧
      (collect f b ending (Arrival.pieces ps ++ later)).payload = payload := by
  induction ps generalizing f b payload with
  | nil =>
    rcases h.advance with ⟨hstop, hpayload⟩ | ⟨hstop, -⟩
    · rw [← hpayload, ← flatMap_drainedSignals]
      cases later <;> simp [collect, hstop, Receipt.payload]
    · have hcomplete := h.complete
      rw [List.flatten_nil, List.append_nil, hstop] at hcomplete
      cases hcomplete
  | cons p ps ih =>
    by_cases hp : p = []
    · subst hp
      exact ih h
    rw [Arrival.pieces_cons hp]
    rcases h.advance with ⟨hstop, hpayload⟩ | ⟨hstop, payload', hpayload, hrun⟩
    · rw [← hpayload, ← flatMap_drainedSignals]
      simp [collect, hstop, Receipt.payload]
    · obtain ⟨houtcome, hrest⟩ := ih (hrun p ps.flatten rfl)
      rw [hpayload, ← flatMap_drainedSignals, ← hrest]
      simp only [List.cons_append, collect, hstop, after, Receipt.payload,
        List.flatMap_append]
      exact ⟨houtcome, trivial⟩

theorem collect_untilClose (h : Incoming.ClosesAtOnce ⟨later, ending⟩) (b : Bytes) :
    (collect .untilClose b ending (Arrival.pieces ps ++ later)).outcome = some (.ok ()) ∧
      (collect .untilClose b ending (Arrival.pieces ps ++ later)).payload = b ++ ps.flatten := by
  induction ps generalizing b with
  | nil =>
    obtain ⟨hpayload, hstop, hframing, -⟩ := Framing.drain_untilClose b
    have hdata := flatMap_drainedSignals (Framing.drain .untilClose b)
    rw [hpayload] at hdata
    rcases h with ⟨rfl, hend⟩ | ⟨fault, rest, rfl, hfault⟩
    · dsimp only at hend
      subst hend
      simp [collect, hstop, hframing, Framing.finish, Ending.outcome, Receipt.payload, hdata]
    · simp [collect, hstop, hframing, hfault, Framing.finish, Receipt.payload, hdata]
  | cons p ps ih =>
    by_cases hp : p = []
    · subst hp
      exact ih b
    rw [Arrival.pieces_cons hp]
    obtain ⟨hpayload, hstop, hframing, hbuffer⟩ := Framing.drain_untilClose b
    have hdata := flatMap_drainedSignals (Framing.drain .untilClose b)
    rw [hpayload] at hdata
    obtain ⟨houtcome, hrest⟩ := ih p
    simp only [Receipt.payload] at hrest
    simp only [List.cons_append, collect, hstop, hframing, hbuffer, after,
      Receipt.payload, List.flatMap_append, List.nil_append, hdata, hrest, List.flatten_cons]
    exact ⟨houtcome, trivial⟩

end HttpRelay.Receipt
