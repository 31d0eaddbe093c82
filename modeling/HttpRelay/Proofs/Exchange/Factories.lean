import HttpRelay.Exchange.Feed
import HttpRelay.Net.Dial
import HttpRelay.Proofs.Exchange.Feeds

namespace HttpRelay

/-- Ways to get connections: each call asks for one and does no more than talk to its peer. -/
structure Factory where
  connector : Connector
  announced : ∀ attempt target proxy, Effect.Announced (connector attempt target proxy).effects

theorem Link.connect_announced (link : Link) (target : Endpoint) (proxy : Option Proxy) :
    Effect.Announced (link.connect target proxy).effects := by
  cases link with
  | refused failure => exact ⟨target, proxy.map Proxy.endpoint, [], rfl, by simp⟩
  | reached peer =>
    cases proxy with
    | none => exact ⟨target, none, [], rfl, by simp⟩
    | some proxy =>
      refine ⟨target, some proxy.endpoint, _, rfl, ?_⟩
      exact (Proxy.negotiate_wire proxy target peer).bind fun _ => Run.Only.ofExcept (.ok _)

def Factory.ofLinks (links : Attempt → Link) : Factory where
  connector attempt target proxy := (links attempt).connect target proxy
  announced attempt target proxy := Link.connect_announced (links attempt) target proxy

namespace Dial

theorem connectAny_wire (e : Endpoint) (last : IoFault) (addresses : List Address) :
    (connectAny e last addresses).Only Effect.IsWire := by
  induction addresses generalizing last with
  | nil => exact Run.Only.ofExcept (.error _)
  | cons a rest ih =>
    rw [connectAny]
    split
    · exact fun e he => absurd he List.not_mem_nil
    · exact (Run.Only.act trivial).bind fun _ => ih _

theorem connect_wire (e : Endpoint) : (connect e).Only Effect.IsWire := by
  refine Run.Only.bind ?_ fun addresses => connectAny_wire e noAddress addresses
  unfold resolve
  split
  · exact Run.Only.ofExcept (.ok _)
  · split
    · exact Run.Only.ofExcept (.error _)
    · exact fun e he => absurd he List.not_mem_nil

theorem establish_wire (host : String) (incoming : Incoming) :
    (Tls.establish host incoming : Run Connection).Only Effect.IsWire := by
  unfold Tls.establish
  split <;> exact fun e he => absurd he List.not_mem_nil

theorem secure_announced (target : Endpoint) (proxy : Option Proxy) :
    Effect.Announced (secure target proxy).effects := by
  cases proxy with
  | none =>
    refine ⟨target, none, _, rfl, ?_⟩
    exact (connect_wire target).bind fun peer => establish_wire target.host peer.incoming
  | some proxy =>
    refine ⟨target, some proxy.endpoint, _, rfl, ?_⟩
    refine (Run.Only.act trivial).bind fun _ => ?_
    refine (connect_wire proxy.endpoint).bind fun peer => ?_
    exact (Proxy.negotiate_wire proxy target peer).bind fun r =>
      establish_wire target.host r.2.incoming

end Dial

def Factory.secure : Factory where
  connector _ := Dial.secure
  announced _ := Dial.secure_announced

namespace Exchange

variable {x : Exchange} {e : Failure}

theorem run_of_refused {α : Type} (h : x.prepare = .error e) (connector : Connector)
    (op : Connection → Run α) : x.run connector op = ⟨[], some (.error e)⟩ := by
  rw [Exchange.run, Run.ofExcept_bind, h]
  rfl

theorem run_of_prepared {α : Type} {proxy : Option Proxy} (h : x.prepare = .ok proxy)
    (connector : Connector) (op : Connection → Run α) : x.run connector op =
      withReconnect x.target (fun attempt => connector attempt x.target proxy) fun _ c => op c := by
  rw [Exchange.run, Run.ofExcept_bind, h]

theorem fetch_effects (x : Exchange) (connector : Connector) :
    ∃ notes : List Effect, Effect.fragments notes = [] ∧ notes.countP Effect.isConnecting = 0 ∧
      (x.fetch connector).effects =
        (x.run connector (x.fullRequest.fetch ContentCoding.maxBody)).effects ++ notes := by
  rw [Exchange.fetch, Run.onFailure]
  split
  · exact ⟨_, rfl, rfl, rfl⟩
  · exact ⟨[], rfl, rfl, (List.append_nil _).symm⟩

theorem fetch_outcome (x : Exchange) (connector : Connector) : (x.fetch connector).outcome =
    (x.run connector (x.fullRequest.fetch ContentCoding.maxBody)).outcome := by
  rw [Exchange.fetch, Run.onFailure]
  split <;> rfl

theorem fetch_faithful {connect : Attempt → Run Connection} {connector : Connector}
    (h : Reconnect.Faithful connect (x.fullRequest.fetch ContentCoding.maxBody)
      (x.run connector (x.fullRequest.fetch ContentCoding.maxBody))) :
    Reconnect.Faithful connect (x.fullRequest.fetch ContentCoding.maxBody)
      (x.fetch connector) := by
  obtain ⟨notes, hfragments, hcount, heffects⟩ := x.fetch_effects connector
  have hshows : (x.fetch connector).Shows
      (x.run connector (x.fullRequest.fetch ContentCoding.maxBody)) := by
    refine ⟨x.fetch_outcome connector, ?_⟩
    rw [heffects, Effect.fragments_append, hfragments, List.append_nil]
  have hcontacts : (Effect.contacts (x.fetch connector).effects).length =
      (Effect.contacts (x.run connector
        (x.fullRequest.fetch ContentCoding.maxBody)).effects).length := by
    rw [heffects, Effect.length_contacts, Effect.length_contacts, List.countP_append, hcount,
      Nat.add_zero]
  refine ⟨?_, ?_, fun hn => hshows.trans (h.shows_first hn),
    fun ha => hshows.trans (h.shows_again ha)⟩
  · rw [hcontacts]
    exact h.contacts_le
  · rw [hcontacts]
    exact h.contacts_eq_iff

structure ReconnectsOnce (x : Exchange) (factory : Factory) (proxy : Option Proxy)
    (expected : UInt16) : Prop where
  stream : Reconnect.Faithful (fun a => factory.connector a x.target proxy)
    (fun c => x.fullRequest.stream expected c.peer) (x.stream factory.connector expected)
  fetch : Reconnect.Faithful (fun a => factory.connector a x.target proxy)
    (x.fullRequest.fetch ContentCoding.maxBody) (x.fetch factory.connector)
  stream_abandoned : ∀ c : Connection,
    (x.fullRequest.stream expected c.peer).outcome = some (.error .unexpectedClose) →
      Unanswered x.fullRequest c.peer (x.fullRequest.stream expected c.peer).effects
  fetch_abandoned : ∀ c : Connection,
    (x.fullRequest.fetch ContentCoding.maxBody c).outcome = some (.error .unexpectedClose) →
      Unanswered x.fullRequest c.peer (x.fullRequest.fetch ContentCoding.maxBody c).effects
  handshake : ∀ (p : Proxy) (peer : Peer),
    (p.negotiate x.target peer).outcome ≠ some (.error .unexpectedClose)

/-- An exchange that fails its checks makes no connection; any other one makes a second one only
in place of a first one that was closed before the answer. -/
theorem reconnects_once (x : Exchange) (factory : Factory) (expected : UInt16) :
    (match x.prepare with
    | .error e => x.stream factory.connector expected = ⟨[], some (.error e)⟩ ∧
        (x.fetch factory.connector).outcome = some (.error e) ∧
        Effect.contacts (x.fetch factory.connector).effects = []
    | .ok proxy => x.ReconnectsOnce factory proxy expected) ∧
    (∀ (capacity : Capacity) (count : Nat) (wish : Relay.Feed.Wish),
      (Effect.contacts
        ((x.feed factory.connector expected capacity).consume count wish).1.effects).length ≤
      (Effect.contacts (x.stream factory.connector expected).effects).length) ∧
    ∀ o, (x.stream factory.connector expected).outcome = some o →
      ∀ (capacity : Capacity) (count : Nat),
      (Effect.contacts
        ((x.feed factory.connector expected capacity).consume count .collect).1.effects).length =
      (Effect.contacts (x.stream factory.connector expected).effects).length := by
  refine ⟨?_, x.contacts_consume_le factory.connector expected, fun o => contacts_collect⟩
  cases hp : x.prepare with
  | error e =>
    refine ⟨run_of_refused hp _ _, ?_, ?_⟩
    · rw [fetch_outcome, run_of_refused hp]
    · rw [Exchange.fetch, run_of_refused hp]
      rfl
  | ok proxy =>
    have hconnect : ∀ a, Effect.Announced (factory.connector a x.target proxy).effects :=
      fun a => factory.announced a x.target proxy
    refine ⟨?_, fetch_faithful ?_, fun c => Request.stream_unanswered,
      fun c => Request.fetch_unanswered, fun p => Proxy.negotiate_ne_unexpectedClose p x.target⟩
    · rw [Exchange.stream, run_of_prepared hp]
      refine Reconnect.withReconnect_faithful x.target hconnect (fun c => ?_) fun c hc => ?_
      · exact Request.stream_inner _ _ _
      · exact (Request.stream_unanswered hc).withheld
    · rw [run_of_prepared hp]
      refine Reconnect.withReconnect_faithful x.target hconnect (fun c => ?_) fun c hc => ?_
      · exact (Request.fetch_wire _ _ _).imp fun _ => Effect.IsWire.isInner
      · exact (Request.fetch_unanswered hc).withheld

end Exchange

end HttpRelay
