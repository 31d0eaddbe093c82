import HttpRelay.Proofs.Exchange.Receipts
import HttpRelay.Proofs.Exchange.Runs
import HttpRelay.Proofs.Http.BodyFeeds

namespace HttpRelay

def Signal.data : Signal → Bytes
  | .event e => e.payload
  | .asked => []

def Receipt.payload (r : Receipt) : Bytes := r.signals.flatMap Signal.data

namespace Effect

def text (es : List Effect) : String := String.join (fragments es)

theorem text_append (es fs : List Effect) : text (es ++ fs) = text es ++ text fs := by
  rw [text, fragments_append, String.join_append]
  rfl

end Effect

namespace Stream

theorem text_fragment (text : String) :
    Effect.text (fragment (Utf8.nonempty text)) = text := by
  by_cases h : text = "" <;> simp [Utf8.nonempty, fragment, Effect.text, Effect.fragments,
    Effect.fragment?, h]

theorem fragment_ne_empty {text t : String}
    (h : t ∈ Effect.fragments (fragment (Utf8.nonempty text))) : t ≠ "" := by
  by_cases hn : text = ""
  · simp [Utf8.nonempty, fragment, Effect.fragments, hn] at h
  · have ht : t = text := by
      simpa [Utf8.nonempty, fragment, Effect.fragments, Effect.fragment?, hn] using h
    rwa [ht]

theorem react_eq_run (held : Utf8.Carry) (s : Signal) :
    Effect.text (react held s).1 = String.ofList (Utf8.run held s.data).1 ∧
      (react held s).2 = (Utf8.run held s.data).2 := by
  cases s with
  | asked => exact ⟨rfl, rfl⟩
  | event e =>
    cases e with
    | data segment =>
      simp only [react, Signal.data, BodyEvent.payload, text_fragment, and_self]
    | _ => exact ⟨rfl, rfl⟩

theorem react_ne_empty {held : Utf8.Carry} {s : Signal} {t : String}
    (h : t ∈ Effect.fragments (react held s).1) : t ≠ "" := by
  cases s with
  | asked => simp [react, Effect.fragments, Effect.fragment?] at h
  | event e =>
    cases e with
    | data segment => exact fragment_ne_empty h
    | _ => simp [react, note, Effect.fragments, Effect.fragment?] at h

theorem fragments_ne_empty {held : Utf8.Carry} {outcome : Option (Except Failure Unit)}
    {signals : List Signal} {t : String}
    (h : t ∈ Effect.fragments (effects held outcome signals)) : t ≠ "" := by
  induction signals generalizing held with
  | nil =>
    simp only [effects] at h
    split at h
    · exact fragment_ne_empty h
    · simp [Effect.fragments] at h
  | cons s signals ih =>
    rw [effects, Effect.fragments_append, List.mem_append] at h
    rcases h with h | h
    · exact react_ne_empty h
    · exact ih h

def leftover (outcome : Option (Except Failure Unit)) (held : Utf8.Carry) : List Char :=
  match outcome with
  | some (.ok ()) => Utf8.flush held
  | _ => []

theorem toList_text_effects (held : Utf8.Carry) (outcome : Option (Except Failure Unit))
    (signals : List Signal) :
    (Effect.text (effects held outcome signals)).toList =
      (Utf8.run held (signals.flatMap Signal.data)).1 ++
        leftover outcome (Utf8.run held (signals.flatMap Signal.data)).2 := by
  induction signals generalizing held with
  | nil =>
    simp only [effects, leftover]
    split
    · rw [text_fragment]
      simp [Utf8.run]
    · simp [Utf8.run, Effect.text, Effect.fragments]
  | cons s signals ih =>
    obtain ⟨htext, hstate⟩ := react_eq_run held s
    rw [effects, Effect.text_append, String.toList_append, ih, htext, hstate,
      List.flatMap_cons, Utf8.run_append, String.toList_ofList, List.append_assoc]

theorem text_relayed {receipt : Receipt} (h : receipt.outcome = some (.ok ())) :
    Effect.text receipt.relayed.effects = Utf8.lossy receipt.payload := by
  rw [← String.toList_inj, Receipt.relayed, toList_text_effects, Utf8.toList_lossy, h]
  rfl

theorem fragment_effects {text : Option String} {e : Effect} (h : e ∈ fragment text) :
    ∃ t, e = .fragment t := by
  cases text with
  | none => exact absurd h List.not_mem_nil
  | some t => exact ⟨t, List.mem_singleton.mp h⟩

theorem fragment_intake (text : Option String) : ∀ e ∈ fragment text, e.IsIntake := by
  intro e he
  obtain ⟨t, rfl⟩ := fragment_effects he
  trivial

theorem react_intake (held : Utf8.Carry) (s : Signal) : ∀ e ∈ (react held s).1, e.IsIntake := by
  intro e he
  cases s with
  | asked =>
    rw [List.mem_singleton.mp he]
    trivial
  | event v =>
    cases v with
    | data segment => exact fragment_intake _ e he
    | done => exact absurd he List.not_mem_nil
    | _ =>
      rw [List.mem_singleton.mp he]
      trivial

theorem effects_intake (held : Utf8.Carry) (outcome : Option (Except Failure Unit))
    (signals : List Signal) : ∀ e ∈ effects held outcome signals, e.IsIntake := by
  induction signals generalizing held with
  | nil =>
    intro e he
    simp only [effects] at he
    split at he
    · exact fragment_intake _ e he
    · exact absurd he List.not_mem_nil
  | cons s signals ih =>
    intro e he
    rw [effects, List.mem_append] at he
    exact he.elim (react_intake held s e) (ih _ e)

theorem writtenBytes_relayed (receipt : Receipt) :
    Effect.writtenBytes receipt.relayed.effects = [] :=
  Effect.writtenBytes_intake (effects_intake _ _ _)

end Stream

end HttpRelay
