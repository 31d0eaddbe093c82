import HttpRelay.Proofs.Exchange.BodyPieces

namespace HttpRelay

namespace Receipt

variable {f : Framing} {b : Bytes} {arrivals : List Arrival} {ending : HttpRelay.Ending}
  {before after : List Signal}

def AtRest (later : List Signal) : Prop :=
  later = [] ∨ ∃ rest, later = .asked :: rest

theorem rest_cases {es : List BodyEvent} {tail : List Signal} (ht : AtRest tail)
    (ha : AtRest after) (h : es.map .event ++ tail = before ++ after) :
    before = es.map .event ∨
      ∃ t, before = es.map .event ++ .asked :: t ∧ tail = .asked :: (t ++ after) := by
  induction es generalizing before with
  | nil =>
    cases before with
    | nil => exact .inl rfl
    | cons s t =>
      rcases ht with rfl | ⟨rest, rfl⟩
      · cases h
      · obtain ⟨rfl, hrest⟩ := List.cons.inj h
        exact .inr ⟨t, rfl, congrArg _ hrest⟩
  | cons e es ih =>
    cases before with
    | nil =>
      rcases ha with rfl | ⟨rest, rfl⟩
      · cases h
      · cases (List.cons.inj h).1
    | cons s t =>
      obtain ⟨rfl, hrest⟩ := List.cons.inj h
      rcases ih hrest with rfl | ⟨u, rfl, htail⟩
      · exact .inl rfl
      · exact .inr ⟨u, rfl, htail⟩

theorem count_events (es : List BodyEvent) : (es.map Signal.event).count .asked = 0 := by
  apply List.count_eq_zero.mpr
  intro hmem
  obtain ⟨e, -, he⟩ := List.mem_map.mp hmem
  cases he

inductive Signals : Framing → Bytes → List Arrival → List Signal → Prop where
  | final {f : Framing} {b : Bytes} {arrivals : List Arrival} :
    Signals f b arrivals ((f.drain b).events.map .event)
  | last {f : Framing} {b : Bytes} {arrivals : List Arrival}
    (h : (arrivals.take 1).flatMap Arrival.bytes = []) :
    Signals f b arrivals ((f.drain b).events.map .event ++ [.asked])
  | more {f : Framing} {b bytes : Bytes} {filled : bytes ≠ []} {rest : List Arrival}
    {signals : List Signal}
    (hungry : (f.drain b).stop = .hungry)
    (h : Signals (f.drain b).framing ((f.drain b).buffer ++ bytes) rest signals) :
    Signals f b (.data bytes filled :: rest) ((f.drain b).events.map .event ++ .asked :: signals)

theorem signals_collect (f : Framing) (b : Bytes) (ending : HttpRelay.Ending)
    (arrivals : List Arrival) : Signals f b arrivals (collect f b ending arrivals).signals := by
  induction arrivals generalizing f b with
  | nil =>
    have hfinal : Signals f b [] _ := .final
    have hlast : Signals f b [] _ := .last rfl
    cases hstop : (f.drain b).stop <;> simpa [collect, hstop, drainedSignals]
  | cons a rest ih =>
    have hfinal : Signals f b (a :: rest) _ := .final
    cases hstop : (f.drain b).stop with
    | complete => simpa [collect, hstop, drainedSignals]
    | broken failure => simpa [collect, hstop, drainedSignals]
    | hungry =>
      cases a with
      | fault fault =>
        have hlast : Signals f b (.fault fault :: rest) _ := .last rfl
        simpa [collect, hstop, drainedSignals]
      | data bytes filled =>
        have hmore : Signals f b (.data bytes filled :: rest) _ :=
          .more hstop (ih (f.drain b).framing ((f.drain b).buffer ++ bytes))
        simpa [collect, hstop, drainedSignals, Receipt.after]

theorem drained_at_rest (f : Framing) (b : Bytes) (arrivals : List Arrival) :
    ((f.drain b).events.map .event).flatMap Signal.data =
      (f.drain (b ++ (arrivals.take (((f.drain b).events.map Signal.event).count .asked)).flatMap
        Arrival.bytes)).payload := by
  rw [count_events, flatMap_events, List.take_zero, List.flatMap_nil, List.append_nil]
  rfl

theorem Signals.at_rest {signals : List Signal} (h : Signals f b arrivals signals) (hs : f.Sound)
    (hsplit : signals = before ++ after) (ha : AtRest after) : before.flatMap Signal.data =
      (f.drain (b ++ (arrivals.take (before.count .asked)).flatMap Arrival.bytes)).payload := by
  induction h generalizing before with
  | final =>
    rcases rest_cases (.inl rfl) ha ((List.append_nil _).trans hsplit) with rfl | ⟨t, rfl, htail⟩
    · exact drained_at_rest _ _ _
    · cases htail
  | last hnone =>
    rcases rest_cases (.inr ⟨_, rfl⟩) ha hsplit with rfl | ⟨t, rfl, htail⟩
    · exact drained_at_rest _ _ _
    · obtain rfl : t = [] := (List.append_eq_nil_iff.mp (List.cons.inj htail).2.symm).1
      have hone : [Signal.asked].count .asked = 1 := rfl
      rw [List.count_append, count_events, hone, List.flatMap_append, flatMap_events, hnone,
        List.append_nil]
      exact List.append_nil _
  | more hungry hrest ih =>
    rcases rest_cases (.inr ⟨_, rfl⟩) ha hsplit with rfl | ⟨t, rfl, htail⟩
    · exact drained_at_rest _ _ _
    · have hlater := ih (Framing.drain_sound hs hungry) (List.cons.inj htail).2
      rw [List.append_assoc] at hlater
      rw [List.count_append, count_events, List.count_cons_self, Nat.zero_add,
        List.take_succ_cons, List.flatMap_cons, Arrival.bytes,
        (Framing.drain_append hs hungry _).payload, ← hlater, List.flatMap_append, flatMap_events]
      rfl

end Receipt

namespace Stream

variable {held : Utf8.Carry} {outcome : Option (Except Failure Unit)} {signals : List Signal}
  {es rest before after : List Effect}

theorem split_asked (hes : Effect.asked ∉ es) (h : es ++ rest = before ++ .asked :: after) :
    ∃ t, before = es ++ t ∧ rest = t ++ .asked :: after := by
  rcases List.append_eq_append_iff.mp h with ⟨t, hbefore, hrest⟩ | ⟨t, hes', hasked⟩
  · exact ⟨t, hbefore, hrest⟩
  · cases t with
    | nil =>
      rw [List.append_nil] at hes'
      exact ⟨[], by rw [hes', List.append_nil], hasked.symm⟩
    | cons e t =>
      obtain rfl := (List.cons.inj hasked).1
      rw [hes'] at hes
      exact absurd (List.mem_append_right before List.mem_cons_self) hes

theorem asked_not_mem_react (held : Utf8.Carry) (e : BodyEvent) :
    Effect.asked ∉ (react held (.event e)).1 := by
  intro h
  cases e with
  | data segment =>
    obtain ⟨t, ht⟩ := fragment_effects h
    cases ht
  | done => exact absurd h List.not_mem_nil
  | _ => cases List.mem_singleton.mp h

theorem count_react (held : Utf8.Carry) (s : Signal) :
    (react held s).1.count .asked = [s].count .asked := by
  cases s with
  | asked => rfl
  | event e => exact List.count_eq_zero.mpr (asked_not_mem_react held e)

theorem count_effects (held : Utf8.Carry) (outcome : Option (Except Failure Unit))
    (signals : List Signal) :
    (effects held outcome signals).count .asked = signals.count .asked := by
  induction signals generalizing held with
  | nil =>
    apply List.count_eq_zero.mpr
    intro h
    simp only [effects] at h
    split at h
    · obtain ⟨t, ht⟩ := fragment_effects h
      cases ht
    · exact absurd h List.not_mem_nil
  | cons s signals ih =>
    rw [effects, List.count_append, count_react, ih, ← List.count_append]
    rfl

theorem react_asked {s : Signal}
    (h : effects held outcome (s :: signals) = before ++ .asked :: after) :
    (s = .asked ∧ before = []) ∨ ∃ t, before = (react held s).1 ++ t ∧
      effects (react held s).2 outcome signals = t ++ .asked :: after := by
  rw [effects] at h
  cases s with
  | event e => exact .inr (split_asked (asked_not_mem_react held e) h)
  | asked =>
    cases before with
    | nil => exact .inl ⟨rfl, rfl⟩
    | cons e t =>
      obtain ⟨rfl, hrest⟩ := List.cons.inj h
      exact .inr ⟨t, rfl, hrest⟩

theorem effects_asked (h : effects held outcome signals = before ++ .asked :: after) :
    ∃ ss ts, signals = ss ++ .asked :: ts ∧ before.count .asked = ss.count .asked ∧
      (Effect.text before).toList = (Utf8.run held (ss.flatMap Signal.data)).1 := by
  induction signals generalizing held before with
  | nil =>
    have hnone := count_effects held outcome []
    rw [h, List.count_append, List.count_cons_self] at hnone
    cases hnone
  | cons s signals ih =>
    rcases react_asked h with ⟨rfl, rfl⟩ | ⟨t, rfl, hrest⟩
    · exact ⟨[], signals, rfl, rfl, rfl⟩
    · obtain ⟨ss, ts, rfl, hcount, htext⟩ := ih hrest
      obtain ⟨hs, hstate⟩ := react_eq_run held s
      refine ⟨s :: ss, ts, rfl, ?_, ?_⟩
      · rw [List.count_append, count_react, hcount, ← List.count_append]
        rfl
      · rw [Effect.text_append, String.toList_append, htext, hs, hstate, List.flatMap_cons,
          Utf8.run_append, String.toList_ofList]

end Stream

end HttpRelay
