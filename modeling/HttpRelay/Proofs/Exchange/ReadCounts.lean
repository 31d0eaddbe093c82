import HttpRelay.Proofs.Exchange.BodyPasses
import HttpRelay.Proofs.Exchange.BodyRests
import HttpRelay.Proofs.Exchange.Endings
import HttpRelay.Proofs.Exchange.HeadReads
import HttpRelay.Proofs.Exchange.Intake
import HttpRelay.Proofs.Exchange.ReadLoops
import HttpRelay.Proofs.Exchange.Tunnels
import HttpRelay.Proofs.Http.DecoderLoops

namespace HttpRelay

open Loop (LeftWithin)

namespace Run

variable {α β : Type} {most : Nat} {left : α → Nat} {later : β → Nat} {r : Run α}
  {f : α → Run β}

structure Asks (most : Nat) (left : α → Nat) (r : Run α) : Prop where
  within : r.effects.count .asked ≤ most
  saved : ∀ a, r.outcome = some (.ok a) → r.effects.count .asked + left a ≤ most

theorem Asks.bind (h : r.Asks most left) (hf : ∀ a, (f a).Asks (left a) later) :
    (r >>= f).Asks most later := by
  cases ho : r.outcome with
  | none =>
    rw [bind_of_none ho]
    exact ⟨h.within, nofun⟩
  | some o =>
    cases o with
    | error e =>
      rw [bind_of_error ho]
      exact ⟨h.within, nofun⟩
    | ok a =>
      have hleft := h.saved a ho
      rw [bind_of_ok ho]
      constructor
      · have hwithin := (hf a).within
        simp only [after, List.count_append]
        omega
      · intro b hb
        have hsaved := (hf a).saved b hb
        simp only [after, List.count_append]
        omega

theorem Asks.silent (h : r.effects.count .asked = 0) (most : Nat) : r.Asks most fun _ => most where
  within := Nat.le_trans (Nat.le_of_eq h) (Nat.zero_le most)
  saved _ _ := Nat.le_of_eq (by rw [h, Nat.zero_add])

theorem Asks.of_within (h : r.effects.count .asked ≤ most) : r.Asks most fun _ => 0 :=
  ⟨h, fun _ _ => h⟩

theorem Asks.ofExcept (o : Except Failure α) (most : Nat) :
    (Run.ofExcept o).Asks most fun _ => most := .silent rfl most

theorem Asks.pure {a : α} (h : left a ≤ most) : (pure a : Run α).Asks most left where
  within := Nat.zero_le most
  saved b hb := by
    obtain rfl := Except.ok.inj (Option.some.inj hb)
    exact Nat.le_trans (Nat.le_of_eq (Nat.zero_add _)) h

theorem Asks.log (level : Log.Level) (source : Log.Source) (message : String) (most : Nat) :
    (Run.log level source message).Asks most fun _ => most := .silent rfl most

theorem Asks.mapFailure (h : r.Asks most left) (g : Failure → Failure) :
    (r.mapFailure g).Asks most left where
  within := h.within
  saved a ha := by
    apply h.saved a
    cases ho : r.outcome with
    | none =>
      rw [Run.mapFailure, ho] at ha
      cases ha
    | some o =>
      rw [Run.mapFailure, ho] at ha
      cases o with
      | error e => cases ha
      | ok b => exact ha

end Run

theorem HeadSearch.Searches.asks {ending : Ending} {received : Bool} {buffer : Bytes}
    {arrivals : List Arrival} {s : HeadSearch} (h : Searches ending received buffer arrivals s) :
    s.run.Asks (arrivals.length + 1) fun x => x.2.2.arrivals.length + 1 := by
  have hcounts : s.effects.count .asked ≤ arrivals.length + 1 ∧
      ((∃ head, s.outcome = some (.ok head)) →
        s.effects.count .asked + s.incoming.arrivals.length ≤ arrivals.length) := by
    induction h with
    | settled =>
      rw [count_asked_look]
      exact ⟨Nat.zero_le _, fun _ => Nat.le_of_eq (Nat.zero_add _)⟩
    | ended =>
      rw [count_asked]
      refine ⟨Nat.le_refl 1, ?_⟩
      rintro ⟨head, hfound⟩
      cases ending <;> cases hfound
    | data _ _ ih =>
      rw [count_asked_after, List.length_cons]
      refine ⟨Nat.add_le_add_right ih.1 1, fun hfound => ?_⟩
      have hsaved := ih.2 hfound
      simp only [after]
      omega
    | fault =>
      rw [count_asked]
      refine ⟨Nat.le_add_left 1 _, ?_⟩
      rintro ⟨head, hfound⟩
      cases hfound
  refine ⟨hcounts.1, fun x hx => ?_⟩
  cases ho : s.outcome with
  | none =>
    rw [run, ho] at hx
    cases hx
  | some o =>
    cases o with
    | error e =>
      rw [run, ho] at hx
      cases hx
    | ok head =>
      rw [run, ho] at hx
      obtain rfl := Except.ok.inj (Option.some.inj hx)
      exact Nat.add_le_add_right (hcounts.2 ⟨head, ho⟩) 1

theorem Receipt.Signals.asks {f : Framing} {b : Bytes} {arrivals : List Arrival}
    {signals : List Signal} (h : Signals f b arrivals signals) :
    signals.count .asked ≤ arrivals.length + 1 := by
  induction h with
  | final =>
    rw [count_events]
    exact Nat.zero_le _
  | last =>
    rw [List.count_append, count_events]
    exact Nat.le_add_left 1 _
  | more _ _ ih =>
    rw [List.count_append, count_events, List.count_cons_self, List.length_cons]
    omega

theorem Fetch.count_collect_le (limit : UInt64) (size : Nat)
    (outcome : Option (Except Failure Unit)) (kept : List Bytes) (signals : List Signal) :
    (collect limit outcome kept size signals).effects.count .asked ≤ signals.count .asked := by
  induction signals generalizing kept size with
  | nil => exact Nat.le_refl 0
  | cons s signals ih =>
    cases s with
    | asked =>
      have hrest := ih size kept
      rw [collect, Run.after, List.singleton_append, List.count_cons_self, List.count_cons_self]
      exact Nat.add_le_add_right hrest 1
    | event e =>
      rw [List.count_cons_of_ne (by simp)]
      cases e with
      | data segment =>
        rw [collect]
        split
        · exact Nat.zero_le _
        · exact ih _ _
      | chunkStart => exact ih size kept
      | chunkEnd => exact ih size kept
      | done => exact ih size kept

theorem Head.framing_asks (head : Head) (method : String) (most : Nat) :
    (head.framing method).Asks most fun _ => most := by
  refine (Run.Asks.ofExcept _ most).bind fun framing => ?_
  exact (Run.Asks.log _ _ _ most).bind fun _ => .pure (Nat.le_refl most)

section Bodies

variable (framing : Framing) (buffer : Bytes) (incoming : Incoming)

theorem Receipt.count_asked_le :
    (Receipt.of framing buffer incoming).signals.count .asked ≤ incoming.arrivals.length + 1 :=
  (signals_collect framing buffer incoming.ending incoming.arrivals).asks

theorem Stream.relay_asks :
    (relay [] framing buffer incoming.ending incoming.arrivals).Asks
      (incoming.arrivals.length + 1) fun _ => 0 := by
  apply Run.Asks.of_within
  rw [relay_eq_relayed, Receipt.relayed, count_effects]
  exact Receipt.count_asked_le framing buffer incoming

theorem Fetch.gather_asks (limit : UInt64) :
    (gather limit .empty framing buffer incoming.ending incoming.arrivals).Asks
      (incoming.arrivals.length + 1) fun _ => 0 := by
  apply Run.Asks.of_within
  rw [gather_eq_gathered]
  have hcollected := count_collect_le limit 0 (Receipt.of framing buffer incoming).outcome []
    (Receipt.of framing buffer incoming).signals
  exact Nat.le_trans hcollected (Receipt.count_asked_le framing buffer incoming)

end Bodies

namespace Request

variable (request : Request)

theorem exchangeHeads_asks (peer : Peer) :
    (request.exchangeHeads peer).Asks (peer.incoming.arrivals.length + 1)
      fun x => x.2.2.arrivals.length + 1 := by
  refine (Run.Asks.ofExcept _ _).bind fun bytes => ?_
  refine (Run.Asks.silent (Outgoing.count_asked_send _ bytes _) _).bind fun _ => ?_
  exact (HeadSearch.searches _ _ _ _).asks

theorem stream_asks (expected : UInt16) (peer : Peer) :
    (request.stream expected peer).Asks (peer.incoming.arrivals.length + 1) fun _ => 0 := by
  refine (request.exchangeHeads_asks peer).bind ?_
  rintro ⟨head, buffer, incoming⟩
  refine (Run.Asks.log _ _ _ _).bind fun _ => ?_
  split
  · exact ⟨Nat.zero_le _, nofun⟩
  · refine (head.framing_asks _ _).bind fun framing => ?_
    exact (Stream.relay_asks framing buffer incoming).bind fun _ => .pure (Nat.le_refl 0)

theorem fetch_asks (limit : UInt64) (c : Connection) :
    (request.fetch limit c).Asks (c.peer.incoming.arrivals.length + 1) fun _ => 0 := by
  refine (request.exchangeHeads_asks c.peer).bind ?_
  rintro ⟨head, buffer, incoming⟩
  refine (head.framing_asks _ _).bind fun framing => ?_
  refine (Fetch.gather_asks framing buffer incoming limit).bind fun body => ?_
  exact (Run.Asks.ofExcept _ 0).bind fun _ => .pure (Nat.le_refl 0)

end Request

theorem Proxy.negotiate_asks (proxy : Proxy) (target : Endpoint) (peer : Peer) :
    (proxy.negotiate target peer).Asks (peer.incoming.arrivals.length + 1) fun _ => 0 := by
  refine (Run.Asks.ofExcept _ _).bind fun text => ?_
  refine (Run.Asks.silent (Outgoing.count_asked_send _ _ _) _).bind fun outgoing => ?_
  refine ((HeadSearch.searches _ _ _ _).asks.mapFailure _).bind ?_
  rintro ⟨head, buffer, incoming⟩
  refine (Run.Asks.ofExcept _ _).bind fun head => ?_
  exact (Run.Asks.log _ _ _ _).bind fun _ => .pure (Nat.zero_le _)

structure Run.Returns {α : Type} (most : Nat) (r : Run α) : Prop where
  outcome : ∃ o, r.outcome = some o
  asked : r.effects.count .asked ≤ most

theorem Run.Settles.returns {α : Type} {P : α → Prop} {left : α → Nat} {most : Nat} {r : Run α}
    (h : r.Settles P) (hasks : r.Asks most left) : r.Returns most := by
  obtain ⟨o, ho, -⟩ := h
  exact ⟨⟨o, ho⟩, hasks.within⟩

structure ComesToEnd (arrivals : List Arrival) (outgoing : Outgoing) : Prop where
  stream : ∀ (request : Request) (expected : UInt16),
    (request.stream expected ⟨⟨arrivals, .closed⟩, outgoing⟩).Returns (arrivals.length + 1)
  fetch : ∀ (request : Request) (limit : UInt64) (tunnelHead : Option Head),
    (request.fetch limit ⟨⟨⟨arrivals, .closed⟩, outgoing⟩, tunnelHead⟩).Returns
      (arrivals.length + 1)
  negotiate : ∀ (proxy : Proxy) (target : Endpoint),
    (proxy.negotiate target ⟨⟨arrivals, .closed⟩, outgoing⟩).Returns (arrivals.length + 1)
  heads : ∀ (received : Bool) (buffer : Bytes), LeftWithin (HeadSearch.pass .closed)
    (buffer.length + Arrival.load arrivals + 1) ⟨received, buffer, arrivals, []⟩
    (HeadSearch.search received buffer .closed arrivals)
  relays : ∀ (held : Bytes) (f : Framing) (buffer : Bytes), LeftWithin (Stream.pass .closed)
    (arrivals.length + 1) ⟨held, f, buffer, arrivals, []⟩
    (Stream.relay held f buffer .closed arrivals)
  gathers : ∀ (limit : UInt64) (body : Fetch.Collected) (f : Framing) (buffer : Bytes),
    LeftWithin (Fetch.pass limit .closed) (arrivals.length + 1) ⟨body, f, buffer, arrivals, []⟩
      (Fetch.gather limit body f buffer .closed arrivals)

/-- An exchange with a peer that closes in the end returns, behind at most one read more than the
peer has sent. The loops over the events of a body and over the states of its decoder are left as
well, whatever is in the buffer, and within passes that its length bounds. -/
theorem exchanges_end :
    (∀ arrivals outgoing, ComesToEnd arrivals outgoing) ∧
    (∀ held f b, LeftWithin Stream.handle (3 * b.length + 3) ⟨held, f, b, []⟩
      (Stream.turn held f b)) ∧
    (∀ limit body f b, LeftWithin (Fetch.handle limit) (3 * b.length + 3) ⟨body, f, b⟩
      (Fetch.turn limit body f b)) ∧
    (∀ f b, LeftWithin Framing.pass (3 * b.length + 3) ⟨f, b, []⟩ (f.drain b)) ∧
    ∀ s b, LeftWithin Chunked.pass (b.length + 1) (s, b) (Chunked.decode s b) := by
  refine ⟨fun arrivals outgoing => ?_, Stream.turn_leftWithin, Fetch.turn_leftWithin,
    Framing.drain_leftWithin, Chunked.decode_leftWithin⟩
  have hends : Incoming.Ends ⟨arrivals, .closed⟩ := .inl rfl
  constructor
  case stream =>
    intro request expected
    have hasks := request.stream_asks expected ⟨⟨arrivals, .closed⟩, outgoing⟩
    exact (request.stream_settles expected hends).returns hasks
  case fetch =>
    intro request limit tunnelHead
    have hasks := request.fetch_asks limit ⟨⟨⟨arrivals, .closed⟩, outgoing⟩, tunnelHead⟩
    exact (request.fetch_settles limit hends).returns hasks
  case negotiate =>
    intro proxy target
    have hasks := proxy.negotiate_asks target ⟨⟨arrivals, .closed⟩, outgoing⟩
    exact (proxy.negotiate_settles target hends).returns hasks
  case heads =>
    intro received buffer
    exact HeadSearch.search_leftWithin received buffer .closed arrivals
  case relays =>
    intro held f buffer
    exact Stream.relay_leftWithin held f buffer .closed arrivals
  case gathers =>
    intro limit body f buffer
    exact Fetch.gather_leftWithin limit body f buffer .closed arrivals

end HttpRelay
