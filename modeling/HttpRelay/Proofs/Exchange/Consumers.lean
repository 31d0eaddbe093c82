import HttpRelay.Proofs.Exchange.Endings
import HttpRelay.Proofs.Exchange.Factories
import HttpRelay.Proofs.Relay.Fairness

namespace HttpRelay

open Relay

namespace Exchange

variable {x : Exchange} {connector : Connector} {expected : UInt16}

theorem stream_faithful {proxy : Option Proxy} (hp : x.prepare = .ok proxy) (factory : Factory)
    (expected : UInt16) :
    Reconnect.Faithful (fun a => factory.connector a x.target proxy)
      (fun c => x.fullRequest.stream expected c.peer) (x.stream factory.connector expected) := by
  have hconnect : ∀ a, Effect.Announced (factory.connector a x.target proxy).effects :=
    fun a => factory.announced a x.target proxy
  rw [Exchange.stream, run_of_prepared hp]
  refine Reconnect.withReconnect_faithful x.target hconnect (fun c => ?_) fun c hc => ?_
  · exact Request.stream_inner _ _ _
  · exact (Request.stream_unanswered hc).withheld

def attempt (x : Exchange) (factory : Factory) (expected : UInt16) (proxy : Option Proxy)
    (a : Attempt) : Run Head :=
  factory.connector a x.target proxy >>= fun c => x.fullRequest.stream expected c.peer

def Repeats (x : Exchange) (factory : Factory) (expected : UInt16) (proxy : Option Proxy) : Prop :=
  Reconnect.Abandoned (fun a => factory.connector a x.target proxy)
    fun c => x.fullRequest.stream expected c.peer

inductive Yields (x : Exchange) (factory : Factory) (expected : UInt16) : List Item → Prop where
  | refused (e : Failure) (hp : x.prepare = .error e) :
    Yields x factory expected [.failure e.message]
  | attempted (proxy : Option Proxy) (hp : x.prepare = .ok proxy) (a : Attempt)
    (ha : a = .reconnect ↔ x.Repeats factory expected proxy) (o : Except Failure Head)
    (ho : (x.attempt factory expected proxy a).outcome = some o) :
    Yields x factory expected (items (x.attempt factory expected proxy a).effects o)

variable {links : Attempt → Link}

theorem attempt_settles (x : Exchange) (hlinks : ∀ a, (links a).Ends) (expected : UInt16)
    (proxy : Option Proxy) (a : Attempt) :
    (x.attempt (Factory.ofLinks links) expected proxy a).Settles fun _ => True :=
  (Link.connect_settles (hlinks a) x.target proxy).bind fun _ hc =>
    Request.stream_settles _ expected hc

theorem yields_of_shows {factory : Factory} {proxy : Option Proxy} (hp : x.prepare = .ok proxy)
    {a : Attempt} (ha : a = .reconnect ↔ x.Repeats factory expected proxy)
    {r : Run Head} (hr : r.Shows (x.attempt factory expected proxy a)) {o : Except Failure Head}
    (ho : r.outcome = some o) : x.Yields factory expected (items r.effects o) := by
  have hitems : items r.effects o = items (x.attempt factory expected proxy a).effects o := by
    simp only [items, hr.fragments]
  rw [hitems]
  exact .attempted proxy hp a ha o (hr.outcome.symm.trans ho)

theorem stream_yields (x : Exchange) (hlinks : ∀ a, (links a).Ends) (expected : UInt16) :
    ∃ o, (x.stream (Factory.ofLinks links).connector expected).outcome = some o ∧
      x.Yields (Factory.ofLinks links) expected
        (items (x.stream (Factory.ofLinks links).connector expected).effects o) := by
  cases hp : x.prepare with
  | error e =>
    rw [Exchange.stream, run_of_refused hp]
    exact ⟨.error e, rfl, .refused e hp⟩
  | ok proxy =>
    have hfaithful := stream_faithful hp (Factory.ofLinks links) expected
    by_cases h : x.Repeats (Factory.ofLinks links) expected proxy
    · have hshows := hfaithful.shows_again h
      obtain ⟨o, ho, -⟩ := x.attempt_settles hlinks expected proxy .reconnect
      have hout := hshows.outcome.trans ho
      exact ⟨o, hout, yields_of_shows hp (iff_of_true rfl h) hshows hout⟩
    · have hshows := hfaithful.shows_first h
      obtain ⟨o, ho, -⟩ := x.attempt_settles hlinks expected proxy .initial
      have hout := hshows.outcome.trans ho
      have hfirst : Attempt.initial ≠ .reconnect := by simp
      exact ⟨o, hout, yields_of_shows hp (iff_of_false hfirst h) hshows hout⟩

/-- A consumer sees the items of the last attempt in their order and then the end, and what it has
seen when it closes the channel is a beginning of that. -/
theorem consumer_sees (x : Exchange) (links : Attempt → Link) (hlinks : ∀ a, (links a).Ends)
    (expected : UInt16) (capacity : Capacity) :
    ∃ items, x.Yields (Factory.ofLinks links) expected items ∧
      View.Shows ⟨x.feed (Factory.ofLinks links).connector expected capacity, []⟩ items := by
  obtain ⟨o, ho, hyields⟩ := x.stream_yields hlinks expected
  exact ⟨_, hyields, View.shows_of_underway (underway_feed ho capacity)⟩

def sampleExchange : Exchange := ⟨⟨"a.test", 443⟩, none, .get "/"⟩

def sampleLinks : Attempt → Link
  | .initial => .reached ⟨⟨[], .closed⟩, ⟨[], .takesAll, []⟩⟩
  | .reconnect =>
    .reached
      ⟨⟨Arrival.pieces ["HTTP/1.1 200 OK\r\nContent-Length: 5\r\n\r\nab".toUTF8.toList], .closed⟩,
        ⟨[], .takesAll, []⟩⟩

theorem consumer_sees_sample :
    (∀ a, (sampleLinks a).Ends) ∧
      (∃ items, sampleExchange.Yields (Factory.ofLinks sampleLinks) 200 items ∧
        View.Shows ⟨sampleExchange.feed (Factory.ofLinks sampleLinks).connector 200 0, []⟩ items) ∧
      (View.run ⟨sampleExchange.feed (Factory.ofLinks sampleLinks).connector 200 0, []⟩
        (List.replicate 40 [Move.receive, .produce, .insist]).flatten).results.reduceOption =
          [.fragment "ab",
            .failure "failed to read response: connection closed with 3 body bytes outstanding"] := by
  have hlinks : ∀ a, (sampleLinks a).Ends := by
    intro a
    cases a <;> exact .inl rfl
  exact ⟨hlinks, consumer_sees sampleExchange sampleLinks hlinks 200 0, by decide +kernel⟩

end Exchange

end HttpRelay
