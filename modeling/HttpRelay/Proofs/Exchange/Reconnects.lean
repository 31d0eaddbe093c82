import HttpRelay.Exchange.Reconnect
import HttpRelay.Proofs.Exchange.Unanswered

namespace HttpRelay

namespace Proxy

variable {proxy : Proxy} {target : Endpoint} {peer : Peer}

theorem negotiate_wire (proxy : Proxy) (target : Endpoint) (peer : Peer) :
    (proxy.negotiate target peer).Only Effect.IsWire := by
  refine (Run.Only.ofExcept _).bind fun request => ?_
  refine (Outgoing.send_wire _ _ _).bind fun outgoing => ?_
  refine Run.Only.bind ?_ ?_
  · exact fun e he => ((HeadSearch.searches _ _ _ _).quiet e he).isWire
  · rintro ⟨head, buffer, incoming⟩
    refine (Run.Only.ofExcept _).bind fun head => ?_
    exact (Run.Only.act trivial).bind fun _ => Run.Only.ofExcept (.ok _)

theorem negotiate_ne_unexpectedClose (proxy : Proxy) (target : Endpoint) (peer : Peer) :
    (proxy.negotiate target peer).outcome ≠ some (.error .unexpectedClose) := by
  intro h
  rcases Run.bind_error h with hr | ⟨request, -, hrest⟩
  · rw [connectRequest, Endpoint.validate] at hr
    split at hr
    · cases hr
    · cases hr
  rcases Run.bind_error hrest with hs | ⟨outgoing, -, hrest⟩
  · obtain ⟨fault, hf⟩ := Outgoing.send_error hs
    cases hf
  rcases Run.bind_error hrest with hn | ⟨⟨head, buffer, incoming⟩, -, hrest⟩
  · have hanswer : ∀ e, proxy.answerFailure e ≠ .unexpectedClose := by
      intro e
      unfold answerFailure
      split <;> simp [handshake]
    obtain ⟨e, -, he⟩ := Run.mapFailure_error hn
    exact hanswer e he
  rcases Run.bind_error hrest with hj | ⟨head, -, hrest⟩
  · have hj := Option.some.inj hj
    rw [judge] at hj
    split at hj
    · cases hj
    · split at hj <;> cases hj
  · simp [Run.log, Run.act_bind, Run.after, pure, Run.ok] at hrest

end Proxy

namespace Effect

def isConnecting : Effect → Bool
  | connecting .. => true
  | _ => false

theorem length_contacts (es : List Effect) : (contacts es).length = es.countP isConnecting := by
  induction es with
  | nil => rfl
  | cons e es ih =>
    rw [List.countP_cons]
    cases e <;> simp [contacts, isConnecting, ih]

theorem countP_inner {es : List Effect} (h : ∀ e ∈ es, e.IsInner) :
    es.countP isConnecting = 0 := by
  apply List.countP_eq_zero.mpr
  intro e he
  have hi := h e he
  cases e with
  | connecting target proxy => cases hi
  | _ => simp [isConnecting]

end Effect

structure Run.Shows {α : Type} (r s : Run α) : Prop where
  outcome : r.outcome = s.outcome
  fragments : Effect.fragments r.effects = Effect.fragments s.effects

theorem Run.Shows.trans {α : Type} {r s t : Run α} (h : r.Shows s) (h' : s.Shows t) :
    r.Shows t := ⟨h.outcome.trans h'.outcome, h.fragments.trans h'.fragments⟩

def Effect.Announced (es : List Effect) : Prop :=
  ∃ target proxy rest, es = connecting target proxy :: rest ∧ ∀ e ∈ rest, e.IsWire

theorem Effect.Announced.fragments {es : List Effect} (h : Announced es) :
    Effect.fragments es = [] := by
  obtain ⟨target, proxy, rest, rfl, hw⟩ := h
  rw [Effect.fragments, List.filterMap_cons_none rfl]
  exact fragments_wire hw

theorem Effect.Announced.countP {es : List Effect} (h : Announced es) :
    es.countP isConnecting = 1 := by
  obtain ⟨target, proxy, rest, rfl, hw⟩ := h
  rw [List.countP_cons, countP_inner fun e he => (hw e he).isInner]
  rfl

namespace Reconnect

variable {α : Type} {connect : Attempt → Run Connection}
  {op : Connection → Run α}

def Abandoned (connect : Attempt → Run Connection) (op : Connection → Run α) : Prop :=
  ∃ c, (connect .initial).outcome = some (.ok c) ∧
    (op c).outcome = some (.error .unexpectedClose)

theorem orElse_of_unexpectedClose {first again : Run α}
    (h : first.outcome = some (.error .unexpectedClose)) :
    orElse first again = again.after first.effects := by
  rw [orElse, h]
  rfl

theorem orElse_of_ne {first again : Run α}
    (h : first.outcome ≠ some (.error .unexpectedClose)) : orElse first again = first := by
  unfold orElse
  split
  · rename_i e he
    cases e with
    | unexpectedClose => exact absurd he h
    | _ => rfl
  · rfl

def once (connect : Attempt → Run Connection) (op : Connection → Run α) (a : Attempt) : Run α :=
  connect a >>= attempt (fun _ c => op c) a

theorem withReconnect_of_abandoned (target : Endpoint) {c : Connection}
    (hc : (connect .initial).outcome = some (.ok c))
    (ho : (op c).outcome = some (.error .unexpectedClose)) :
    withReconnect target connect (fun _ c => op c) =
      (((once connect op .reconnect).after (warning target).effects).after
        (.attempting .initial c.tunnelHead.isSome :: (op c).effects)).after
        (connect .initial).effects := by
  have ha : (attempt (fun _ c => op c) .initial c).outcome =
      some (.error .unexpectedClose) := ho
  rw [withReconnect, Run.bind_of_ok hc, orElse_of_unexpectedClose ha]
  rfl

theorem withReconnect_of_not_abandoned (target : Endpoint) (h : ¬ Abandoned connect op) :
    withReconnect target connect (fun _ c => op c) = once connect op .initial := by
  cases hc : (connect .initial).outcome with
  | none => rw [withReconnect, once, Run.bind_of_none hc, Run.bind_of_none hc]
  | some o =>
    cases o with
    | error e => rw [withReconnect, once, Run.bind_of_error hc, Run.bind_of_error hc]
    | ok c =>
      have hne : (attempt (fun _ c => op c) .initial c).outcome ≠
          some (.error .unexpectedClose) := fun ho => h ⟨c, hc, ho⟩
      rw [withReconnect, once, Run.bind_of_ok hc, Run.bind_of_ok hc, orElse_of_ne hne]

theorem once_shows (connect : Attempt → Run Connection) (op : Connection → Run α) (a : Attempt) :
    (once connect op a).Shows (connect a >>= op) := by
  cases hc : (connect a).outcome with
  | none =>
    rw [once, Run.bind_of_none hc, Run.bind_of_none hc]
    exact ⟨rfl, rfl⟩
  | some o =>
    cases o with
    | error e =>
      rw [once, Run.bind_of_error hc, Run.bind_of_error hc]
      exact ⟨rfl, rfl⟩
    | ok c =>
      rw [once, Run.bind_of_ok hc, Run.bind_of_ok hc]
      refine ⟨rfl, ?_⟩
      rw [Run.after, Run.after, Effect.fragments_append, Effect.fragments_append]
      rfl

theorem countP_once (hconnect : ∀ a, Effect.Announced (connect a).effects)
    (hop : ∀ c, (op c).Only Effect.IsInner) (a : Attempt) :
    (once connect op a).effects.countP Effect.isConnecting = 1 := by
  cases hc : (connect a).outcome with
  | none =>
    rw [once, Run.bind_of_none hc]
    exact (hconnect a).countP
  | some o =>
    cases o with
    | error e =>
      rw [once, Run.bind_of_error hc]
      exact (hconnect a).countP
    | ok c =>
      have hzero : (attempt (fun _ c => op c) a c).effects.countP Effect.isConnecting = 0 := by
        change List.countP Effect.isConnecting (_ :: (op c).effects) = 0
        rw [List.countP_cons, Effect.countP_inner (hop c)]
        rfl
      rw [once, Run.bind_of_ok hc, Run.after, List.countP_append, (hconnect a).countP, hzero]

section Abandoned

variable {c : Connection} (target : Endpoint)
  (hconnect : ∀ a, Effect.Announced (connect a).effects)
  (hop : ∀ c, (op c).Only Effect.IsInner)
  (hc : (connect .initial).outcome = some (.ok c))
  (ho : (op c).outcome = some (.error .unexpectedClose))

include hconnect hc ho

include hop in
theorem contacts_of_abandoned :
    (Effect.contacts (withReconnect target connect fun _ c => op c).effects).length = 2 := by
  rw [withReconnect_of_abandoned target hc ho, Effect.length_contacts, Run.after, Run.after,
    Run.after, List.countP_append, List.countP_append, List.countP_append, List.countP_cons,
    (hconnect .initial).countP, Effect.countP_inner (hop c), countP_once hconnect hop]
  rfl

theorem shows_of_abandoned (hclose : Effect.fragments (op c).effects = []) :
    (withReconnect target connect fun _ c => op c).Shows (connect .reconnect >>= op) := by
  have hattempt : Effect.fragments (.attempting .initial c.tunnelHead.isSome ::
      (op c).effects) = [] := hclose
  rw [withReconnect_of_abandoned target hc ho]
  refine ⟨(once_shows connect op .reconnect).outcome, ?_⟩
  rw [Run.after, Run.after, Run.after, Effect.fragments_append, Effect.fragments_append,
    Effect.fragments_append, (hconnect .initial).fragments, hattempt,
    (once_shows connect op .reconnect).fragments]
  rfl

end Abandoned

structure Faithful (connect : Attempt → Run Connection) (op : Connection → Run α) (r : Run α) :
    Prop where
  contacts_le : (Effect.contacts r.effects).length ≤ 2
  contacts_eq_iff : (Effect.contacts r.effects).length = 2 ↔ Abandoned connect op
  shows_first : ¬ Abandoned connect op → r.Shows (connect .initial >>= op)
  shows_again : Abandoned connect op → r.Shows (connect .reconnect >>= op)

theorem withReconnect_faithful (target : Endpoint)
    (hconnect : ∀ a, Effect.Announced (connect a).effects)
    (hop : ∀ c, (op c).Only Effect.IsInner)
    (hclose : ∀ c, (op c).outcome = some (.error .unexpectedClose) →
      Effect.fragments (op c).effects = []) :
    Faithful connect op (withReconnect target connect fun _ c => op c) := by
  by_cases h : Abandoned connect op
  · obtain ⟨c, hc, ho⟩ := h
    have hcount := contacts_of_abandoned target hconnect hop hc ho
    refine ⟨Nat.le_of_eq hcount, iff_of_true hcount ⟨c, hc, ho⟩,
      fun hn => absurd ⟨c, hc, ho⟩ hn, fun _ => ?_⟩
    exact shows_of_abandoned target hconnect hc ho (hclose c ho)
  · have hcount : (Effect.contacts (withReconnect target connect fun _ c => op c).effects).length =
        1 := by
      rw [withReconnect_of_not_abandoned target h, Effect.length_contacts,
        countP_once hconnect hop]
    refine ⟨by omega, ⟨by omega, fun ha => absurd ha h⟩, fun _ => ?_, fun ha => absurd ha h⟩
    rw [withReconnect_of_not_abandoned target h]
    exact once_shows connect op .initial

end Reconnect

end HttpRelay
