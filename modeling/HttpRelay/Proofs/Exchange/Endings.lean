import HttpRelay.Exchange.Feed
import HttpRelay.Proofs.Exchange.BodyLoops
import HttpRelay.Proofs.Exchange.Openings

namespace HttpRelay

def Incoming.Ends (i : Incoming) : Prop := i.ending = .closed ∨ ∃ f, .fault f ∈ i.arrivals

def Link.Ends : Link → Prop
  | .refused _ => True
  | .reached peer => peer.incoming.Ends

namespace Run

variable {α β : Type} {P : α → Prop} {Q : β → Prop} {r : Run α} {f : α → Run β}

def Settles (P : α → Prop) (r : Run α) : Prop := ∃ o, r.outcome = some o ∧ ∀ a, o = .ok a → P a

theorem Settles.bind (h : r.Settles P) (hf : ∀ a, P a → (f a).Settles Q) :
    (r >>= f).Settles Q := by
  obtain ⟨o, ho, hp⟩ := h
  cases o with
  | error e =>
    rw [bind_of_error ho]
    exact ⟨_, rfl, nofun⟩
  | ok a =>
    rw [bind_of_ok ho]
    exact hf a (hp a rfl)

theorem Settles.ofExcept (o : Except Failure α) (hp : ∀ a, o = .ok a → P a) :
    (Run.ofExcept o).Settles P := ⟨o, rfl, hp⟩

theorem Settles.act (e : Effect) : (Run.act e).Settles fun _ => True := ⟨_, rfl, fun _ _ => trivial⟩

theorem Settles.pure {a : α} (hp : P a) : (pure a : Run α).Settles P :=
  ⟨_, rfl, fun _ h => Except.ok.inj h ▸ hp⟩

theorem Settles.fail (e : Failure) : (Run.fail e : Run α).Settles P := ⟨_, rfl, nofun⟩

theorem Settles.mapFailure (h : r.Settles P) (g : Failure → Failure) :
    (r.mapFailure g).Settles P := by
  obtain ⟨o, ho, hp⟩ := h
  refine ⟨o.mapError g, by rw [Run.mapFailure, ho]; rfl, fun a ha => ?_⟩
  cases o with
  | error e => cases ha
  | ok b => exact hp a ha

end Run

theorem Incoming.Ends.of_data {bytes : Bytes} {filled : bytes ≠ []} {rest : List Arrival}
    {ending : Ending} (h : Ends ⟨.data bytes filled :: rest, ending⟩) : Ends ⟨rest, ending⟩ := by
  rcases h with hc | ⟨f, hf⟩
  · exact .inl hc
  · rcases List.mem_cons.mp hf with hd | hf
    · cases hd
    · exact .inr ⟨f, hf⟩

theorem Incoming.Ends.closed_of_nil {ending : Ending} (h : Ends ⟨[], ending⟩) :
    ending = .closed := by
  rcases h with hc | ⟨f, hf⟩
  · exact hc
  · exact absurd hf List.not_mem_nil

theorem HeadSearch.Searches.settles {ending : Ending} {received : Bool} {buffer : Bytes}
    {arrivals : List Arrival} {s : HeadSearch} (hs : Searches ending received buffer arrivals s)
    (h : Incoming.Ends ⟨arrivals, ending⟩) : s.run.Settles fun x => x.2.2.Ends := by
  have hfailed : ∀ {s : HeadSearch} {e : Failure}, s.outcome = some (.error e) →
      s.run.Settles fun x => x.2.2.Ends := by
    intro s e he
    exact ⟨.error e, by rw [run, he]; rfl, nofun⟩
  induction hs with
  | @settled received buffer arrivals outcome hl =>
    cases outcome with
    | error e => exact hfailed rfl
    | ok head => exact ⟨_, rfl, fun a ha => Except.ok.inj ha ▸ h⟩
  | ended =>
    obtain rfl := h.closed_of_nil
    exact hfailed rfl
  | data _ _ ih => exact ih h.of_data
  | fault => exact hfailed rfl

theorem Outgoing.send_settles (o : Outgoing) (bytes : Bytes) (failure : IoFault → Failure) :
    (o.send bytes failure).Settles fun _ => True := by
  by_cases h : o.Takes bytes.length
  · rw [send_of_takes h]
    exact ⟨_, rfl, fun _ _ => trivial⟩
  · obtain ⟨fault, hs⟩ := send_of_not_takes h failure
    rw [hs]
    exact ⟨_, rfl, fun _ _ => trivial⟩

theorem Proxy.negotiate_settles (proxy : Proxy) (target : Endpoint) {peer : Peer}
    (h : peer.incoming.Ends) :
    (proxy.negotiate target peer).Settles fun x => x.2.incoming.Ends := by
  refine (Run.Settles.ofExcept _ fun _ _ => trivial).bind fun request _ => ?_
  refine (Outgoing.send_settles _ _ _).bind fun outgoing _ => ?_
  refine (((HeadSearch.searches _ _ _ _).settles h).mapFailure _).bind ?_
  rintro ⟨head, buffer, incoming⟩ hends
  refine (Run.Settles.ofExcept _ fun _ _ => trivial).bind fun head _ => ?_
  exact (Run.Settles.act _).bind fun _ _ => Run.Settles.pure hends

theorem Link.connect_settles {link : Link} (h : link.Ends) (target : Endpoint)
    (proxy : Option Proxy) :
    (link.connect target proxy).Settles fun c => c.peer.incoming.Ends := by
  refine (Run.Settles.act _).bind fun _ _ => ?_
  cases link with
  | refused failure => exact .fail failure
  | reached peer =>
    cases proxy with
    | none => exact .pure h
    | some proxy =>
      refine (proxy.negotiate_settles target h).bind ?_
      rintro ⟨head, peer⟩ hends
      exact .pure hends

theorem Receipt.collect_settles (framing : Framing) (buffer : Bytes) (ending : Ending)
    (arrivals : List Arrival) (h : Incoming.Ends ⟨arrivals, ending⟩) :
    ∃ o, (collect framing buffer ending arrivals).outcome = some o := by
  induction arrivals generalizing framing buffer with
  | nil =>
    obtain rfl := h.closed_of_nil
    rw [collect]
    cases (framing.drain buffer).stop <;> exact ⟨_, rfl⟩
  | cons a rest ih =>
    rw [collect.eq_def]
    dsimp only
    cases (framing.drain buffer).stop with
    | complete => exact ⟨_, rfl⟩
    | broken e => exact ⟨_, rfl⟩
    | hungry =>
      cases a with
      | data bytes filled => exact ih _ _ h.of_data
      | fault f => exact ⟨_, rfl⟩

theorem Fetch.collect_settles {outcome : Option (Except Failure Unit)} (h : ∃ o, outcome = some o)
    (limit : UInt64) (size : Nat) (kept : List Bytes) (signals : List Signal) :
    (collect limit outcome kept size signals).Settles fun _ => True := by
  induction signals generalizing kept size with
  | nil =>
    obtain ⟨o, rfl⟩ := h
    exact ⟨_, rfl, fun _ _ => trivial⟩
  | cons s signals ih =>
    cases s with
    | asked => exact ih size kept
    | event e =>
      cases e with
      | data segment =>
        rw [collect]
        split
        · exact .fail _
        · exact ih _ _
      | chunkStart => exact ih size kept
      | chunkEnd => exact ih size kept
      | done => exact ih size kept

theorem Head.framing_settles (head : Head) (method : String) :
    (head.framing method).Settles fun _ => True := by
  refine (Run.Settles.ofExcept _ fun _ _ => trivial).bind fun framing _ => ?_
  exact (Run.Settles.act _).bind fun _ _ => .pure trivial

theorem Request.exchangeHeads_settles (request : Request) {peer : Peer}
    (h : peer.incoming.Ends) : (request.exchangeHeads peer).Settles fun x => x.2.2.Ends := by
  refine (Run.Settles.ofExcept _ fun _ _ => trivial).bind fun bytes _ => ?_
  refine (Outgoing.send_settles _ _ _).bind fun _ _ => ?_
  exact (HeadSearch.searches _ _ _ _).settles h

theorem Request.stream_settles (request : Request) (expected : UInt16) {peer : Peer}
    (h : peer.incoming.Ends) : (request.stream expected peer).Settles fun _ => True := by
  refine (request.exchangeHeads_settles h).bind ?_
  rintro ⟨head, buffer, incoming⟩ hends
  refine (Run.Settles.act _).bind fun _ _ => ?_
  split
  · exact .fail _
  · refine (head.framing_settles _).bind fun framing _ => ?_
    obtain ⟨o, ho⟩ := Receipt.collect_settles framing buffer incoming.ending incoming.arrivals hends
    rw [Stream.relay_eq_relayed]
    refine Run.Settles.bind (P := fun _ => True) ⟨o, ho, fun _ _ => trivial⟩ fun _ _ => ?_
    exact .pure trivial

theorem Request.fetch_settles (request : Request) (limit : UInt64) {c : Connection}
    (h : c.peer.incoming.Ends) : (request.fetch limit c).Settles fun _ => True := by
  refine (request.exchangeHeads_settles h).bind ?_
  rintro ⟨head, buffer, incoming⟩ hends
  refine (head.framing_settles _).bind fun framing _ => ?_
  have hreceipt := Receipt.collect_settles framing buffer incoming.ending incoming.arrivals hends
  rw [Fetch.gather_eq_gathered]
  refine (Fetch.collect_settles hreceipt _ _ _ _).bind fun body _ => ?_
  exact (Run.Settles.ofExcept _ fun _ _ => trivial).bind fun _ _ => .pure trivial

end HttpRelay
