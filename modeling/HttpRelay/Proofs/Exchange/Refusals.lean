import Mathlib.Control.Monad.Basic
import HttpRelay.Proofs.Exchange.Consumers
import HttpRelay.Proofs.Exchange.Failures
import HttpRelay.Proofs.Relay.FeedMoves

namespace HttpRelay

open Relay

theorem Run.bind_effects {α β : Type} (r : Run α) (f : α → Run β) :
    r.effects <+: (r >>= f).effects := by
  cases h : r.outcome with
  | none =>
    exact ⟨[], by rw [bind_of_none h, List.append_nil]⟩
  | some o =>
    cases o with
    | error e =>
      exact ⟨[], by rw [bind_of_error h, List.append_nil]⟩
    | ok a =>
      rw [bind_of_ok h]
      exact List.prefix_append _ _

theorem Effect.contacts_ne_nil_iff {es : List Effect} :
    contacts es ≠ [] ↔ ∃ e ∈ es, e.isConnecting = true := by
  rw [← List.countP_pos_iff, ← length_contacts, List.length_pos_iff]

theorem Effect.writtenBytes_of_countP {es : List Effect}
    (h : es.countP (fun e => e.written?.isSome) = 0) : writtenBytes es = [] := by
  have hnone : es.filterMap written? = [] := by
    apply List.filterMap_eq_nil_iff.mpr
    intro e he
    have hwritten := List.countP_eq_zero.mp h e he
    rwa [Option.not_isSome_iff_eq_none] at hwritten
  rw [writtenBytes, hnone, List.flatten_nil]

theorem Request.validate_error {request : Request} {e : Failure}
    (h : request.validate = .error e) : e.category = .configuration := by
  have hencode : request.encode = .error e := by
    rw [encode, h]
    rfl
  obtain ⟨reason, rfl⟩ := encode_error hencode
  rfl

theorem Endpoint.validate_error {target : Endpoint} {e : Failure}
    (h : target.validate = .error e) : e.category = .configuration := by
  unfold validate at h
  split at h
  · obtain rfl := Except.error.inj h
    rfl
  · cases h

theorem Proxy.parse_error {url : String} {e : Failure} (h : Proxy.parse url = .error e) :
    e.category = .configuration := by
  unfold parse at h
  dsimp only at h
  split at h
  · obtain rfl := Except.error.inj h
    rfl
  · rename_i url' _
    cases hproxy : ofUrl url' with
    | error reason =>
      rw [hproxy] at h
      obtain rfl := Except.error.inj h
      rfl
    | ok proxy =>
      rw [hproxy] at h
      cases h

namespace Exchange

structure Acceptable (x : Exchange) : Prop where
  proxy : ∀ url, x.proxyUrl = some url → ∃ p, Proxy.parse url = .ok p
  target : x.target.validate = .ok ()
  request : x.fullRequest.validate = .ok ()

variable {x : Exchange} {e : Failure}

theorem proxy_ok {proxy : Option Proxy} (h : x.proxy = .ok proxy) :
    ∀ url, x.proxyUrl = some url → ∃ p, Proxy.parse url = .ok p := by
  intro url hurl
  rw [Exchange.proxy, hurl] at h
  cases hp : Proxy.parse url with
  | ok p => exact ⟨p, rfl⟩
  | error e =>
    simp only [hp] at h
    cases h

theorem proxy_error (h : x.proxy = .error e) : e.category = .configuration ∧ ¬ x.Acceptable := by
  unfold Exchange.proxy at h
  split at h
  · cases h
  · rename_i url hurl
    cases hp : Proxy.parse url with
    | ok p =>
      rw [hp] at h
      cases h
    | error e' =>
      rw [hp] at h
      obtain rfl := Except.error.inj h
      refine ⟨Proxy.parse_error hp, fun hx => ?_⟩
      obtain ⟨p, hok⟩ := hx.proxy url hurl
      rw [hp] at hok
      cases hok

theorem prepare_cases (x : Exchange) :
    (x.Acceptable ∧ ∃ proxy, x.prepare = .ok proxy) ∨
      ¬ x.Acceptable ∧ ∃ e, e.category = .configuration ∧ x.prepare = .error e := by
  cases hp : x.proxy with
  | error e =>
    have hprepare : x.prepare = .error e := by simp [prepare, hp, bind, Except.bind]
    obtain ⟨hcategory, hx⟩ := proxy_error hp
    exact .inr ⟨hx, e, hcategory, hprepare⟩
  | ok proxy =>
    cases ht : x.target.validate with
    | error e =>
      have hprepare : x.prepare = .error e := by simp [prepare, hp, ht, bind, Except.bind]
      refine .inr ⟨fun hx => ?_, e, Endpoint.validate_error ht, hprepare⟩
      rw [hx.target] at ht
      cases ht
    | ok u =>
      cases hr : x.fullRequest.validate with
      | error e =>
        have hprepare : x.prepare = .error e := by simp [prepare, hp, ht, hr, bind, Except.bind]
        refine .inr ⟨fun hx => ?_, e, Request.validate_error hr, hprepare⟩
        rw [hx.request] at hr
        cases hr
      | ok u =>
        have hprepare : x.prepare = .ok proxy := by
          simp [prepare, hp, ht, hr, bind, Except.bind, pure, Except.pure]
        exact .inl ⟨⟨proxy_ok hp, ht, hr⟩, proxy, hprepare⟩

theorem Acceptable.prepared (h : x.Acceptable) : ∃ proxy, x.prepare = .ok proxy := by
  rcases x.prepare_cases with ⟨-, hprepared⟩ | ⟨hx, -⟩
  · exact hprepared
  · exact absurd h hx

theorem prepare_of_not_acceptable (h : ¬ x.Acceptable) :
    ∃ e, e.category = .configuration ∧ x.prepare = .error e := by
  rcases x.prepare_cases with ⟨hx, -⟩ | ⟨-, hrefused⟩
  · exact absurd hx h
  · exact hrefused

variable {α : Type}

theorem run_begins {proxy : Option Proxy} (h : x.prepare = .ok proxy) (factory : Factory)
    (op : Connection → Run α) : ∃ target via rest,
      (x.run factory.connector op).effects = .connecting target via :: rest := by
  obtain ⟨target, via, rest, hannounced, -⟩ := factory.announced .initial x.target proxy
  rw [run_of_prepared h, withReconnect]
  obtain ⟨more, hmore⟩ := Run.bind_effects (factory.connector .initial x.target proxy)
    fun connection => Reconnect.orElse
      (Reconnect.attempt (fun _ c => op c) .initial connection) do
        Reconnect.warning x.target
        let connection ← factory.connector .reconnect x.target proxy
        Reconnect.attempt (fun _ c => op c) .reconnect connection
  rw [hannounced] at hmore
  exact ⟨target, via, rest ++ more, hmore.symm⟩

theorem fetch_of_refused (h : x.prepare = .error e) (connector : Connector) :
    x.fetch connector = ⟨[.counted e.category, .logged ⟨.warn, .client, x.failureNote e⟩],
      some (.error e)⟩ := by
  rw [Exchange.fetch, run_of_refused h]
  rfl

theorem stream_of_refused (h : x.prepare = .error e) (connector : Connector)
    (expected : UInt16) : x.stream connector expected = ⟨[], some (.error e)⟩ :=
  run_of_refused h connector _

def streamEffects (x : Exchange) (factory : Factory) (expected : UInt16) (capacity : Capacity)
    (ms : List Move) : List Effect :=
  (View.run ⟨x.feed factory.connector expected capacity, []⟩ ms).feed.effects

theorem feed_notes (x : Exchange) (connector : Connector) (expected : UInt16)
    (capacity : Capacity) : (x.feed connector expected capacity).NotesOnly := by
  intro notice hnotice
  obtain rfl := Option.some.inj hnotice
  exact ⟨[_], rfl⟩

theorem countP_of_refused {p : Effect → Bool} (hlogged : ∀ r, p (.logged r) = false)
    (hcounted : ∀ c, p (.counted c) = false) (h : x.prepare = .error e) (factory : Factory)
    (expected : UInt16) (capacity : Capacity) (ms : List Move) :
    (x.streamEffects factory expected capacity ms).countP p = 0 := by
  have hstream := stream_of_refused h factory.connector expected
  have hdue : (x.feed factory.connector expected capacity).due p = 0 := by
    simp [Feed.due, feed, hstream, conclusion, Feed.failureActs, Act.brings, hlogged, hcounted]
  have hlater := (View.later_run hlogged
    ⟨x.feed factory.connector expected capacity, []⟩ ms).due_le (x.feed_notes _ _ _)
  rw [hdue] at hlater
  rw [Feed.due] at hlater
  rw [streamEffects]
  omega

theorem streamEffects_of_refused (h : x.prepare = .error e) (factory : Factory)
    (expected : UInt16) (capacity : Capacity) (ms : List Move) :
    Effect.contacts (x.streamEffects factory expected capacity ms) = [] ∧
      Effect.writtenBytes (x.streamEffects factory expected capacity ms) = [] := by
  constructor
  · rw [← List.length_eq_zero_iff, Effect.length_contacts]
    exact countP_of_refused (fun _ => rfl) (fun _ => rfl) h factory expected capacity ms
  · apply Effect.writtenBytes_of_countP
    exact countP_of_refused (fun _ => rfl) (fun _ => rfl) h factory expected capacity ms

theorem contacts_of_starts (h : x.Acceptable) (factory : Factory) (expected : UInt16)
    (capacity : Capacity) {ms : List Move} (hms : Move.Starts ms) :
    Effect.contacts (x.streamEffects factory expected capacity ms) ≠ [] := by
  obtain ⟨proxy, hp⟩ := h.prepared
  obtain ⟨target, via, rest, hrun⟩ := run_begins hp factory
    fun c => x.fullRequest.stream expected c.peer
  have hbegins : (x.feed factory.connector expected capacity).BeginsWith
      (.connecting target via) := by
    refine ⟨?_, rfl, rfl⟩
    simp [feed, Exchange.stream, hrun, act]
  rw [Effect.contacts_ne_nil_iff]
  exact ⟨_, View.effect_of_starts hbegins hms, rfl⟩

def ConnectsForeign (x : Exchange) (factory : Factory) : Prop :=
  ∀ a proxy, x.prepare = .ok proxy →
    (factory.connector a x.target proxy).FailsOnly Failure.IsForeign

/-- The promises about what is asked for: nothing is connected to unless all of it is fit to be
sent, and then nothing of it can be found unfit any more. -/
structure Screened (x : Exchange) (factory : Factory) (expected : UInt16) (capacity : Capacity) :
    Prop where
  fetch_connects : Effect.contacts (x.fetch factory.connector).effects ≠ [] ↔ x.Acceptable
  fetch_refused : ¬ x.Acceptable → ∃ e : Failure, e.category = .configuration ∧
    x.fetch factory.connector =
      ⟨[.counted e.category, .logged ⟨.warn, .client, x.failureNote e⟩], some (.error e)⟩
  stream_connects : ∀ ms, Move.Starts ms →
    (Effect.contacts (x.streamEffects factory expected capacity ms) ≠ [] ↔ x.Acceptable)
  stream_refused : ¬ x.Acceptable → ∃ e : Failure, e.category = .configuration ∧
    (∀ ms, Effect.contacts (x.streamEffects factory expected capacity ms) = [] ∧
      Effect.writtenBytes (x.streamEffects factory expected capacity ms) = []) ∧
    View.Shows ⟨x.feed factory.connector expected capacity, []⟩ [.failure e.message]
  connect_request : x.Acceptable → ∀ proxy : Proxy,
    ∃ text, proxy.connectRequest x.target = .ok text
  request_bytes : x.Acceptable → ∃ bytes, x.fullRequest.encode = .ok bytes
  fetch_foreign : x.Acceptable → x.ConnectsForeign factory →
    (x.fetch factory.connector).FailsOnly Failure.IsForeign
  stream_foreign : x.Acceptable → x.ConnectsForeign factory →
    (x.stream factory.connector expected).FailsOnly Failure.IsForeign

theorem fetch_connects (x : Exchange) (factory : Factory) :
    Effect.contacts (x.fetch factory.connector).effects ≠ [] ↔ x.Acceptable := by
  rcases x.prepare_cases with ⟨hx, proxy, hp⟩ | ⟨hx, e, -, hp⟩
  · refine iff_of_true ?_ hx
    obtain ⟨target, via, rest, hrun⟩ := run_begins hp factory
      (x.fullRequest.fetch ContentCoding.maxBody)
    obtain ⟨notes, -, -, heffects⟩ := x.fetch_effects factory.connector
    rw [heffects, hrun]
    exact List.cons_ne_nil _ _
  · refine iff_of_false ?_ hx
    rw [fetch_of_refused hp]
    exact fun h => h rfl

theorem run_foreign (hx : x.Acceptable) {factory : Factory} {op : Connection → Run α}
    (hfactory : x.ConnectsForeign factory)
    (hop : ∀ c, (op c).FailsOnly Failure.IsForeign) :
    (x.run factory.connector op).FailsOnly Failure.IsForeign := by
  obtain ⟨proxy, hp⟩ := hx.prepared
  rw [run_of_prepared hp]
  exact withReconnect_foreign (fun a => hfactory a proxy hp) fun _ c => hop c

theorem screened (x : Exchange) (factory : Factory) (expected : UInt16) (capacity : Capacity) :
    x.Screened factory expected capacity where
  fetch_connects := x.fetch_connects factory
  fetch_refused hx := by
    obtain ⟨e, hcategory, hp⟩ := prepare_of_not_acceptable hx
    exact ⟨e, hcategory, fetch_of_refused hp factory.connector⟩
  stream_connects ms hms := by
    refine ⟨fun h => ?_, fun hx => contacts_of_starts hx factory expected capacity hms⟩
    by_cases hx : x.Acceptable
    · exact hx
    · obtain ⟨e, -, hp⟩ := prepare_of_not_acceptable hx
      exact absurd (streamEffects_of_refused hp factory expected capacity ms).1 h
  stream_refused hx := by
    obtain ⟨e, hcategory, hp⟩ := prepare_of_not_acceptable hx
    refine ⟨e, hcategory, streamEffects_of_refused hp factory expected capacity, ?_⟩
    have hstream := stream_of_refused hp factory.connector expected
    have houtcome : (x.stream factory.connector expected).outcome = some (.error e) := by
      rw [hstream]
    have hunderway := underway_feed houtcome capacity
    rw [hstream] at hunderway
    exact View.shows_of_underway hunderway
  connect_request hx := Proxy.connectRequest_of_valid hx.target
  request_bytes hx := Request.encode_of_validate hx.request
  fetch_foreign hx hfactory := by
    intro e he
    rw [fetch_outcome] at he
    exact run_foreign hx hfactory (Request.fetch_foreign hx.request _) e he
  stream_foreign hx hfactory :=
    run_foreign hx hfactory fun c => Request.stream_foreign hx.request expected c.peer

def spacedExchange : Exchange := { sampleExchange with target := ⟨"a test", 443⟩ }

theorem screened_sample :
    (sampleExchange.Acceptable ∧ sampleExchange.ConnectsForeign (Factory.ofLinks sampleLinks) ∧
      sampleExchange.ConnectsForeign Factory.secure ∧ ¬ spacedExchange.Acceptable) ∧
    Effect.contacts (sampleExchange.streamEffects (Factory.ofLinks sampleLinks) 200 0
      [.receive, .produce]) ≠ [] ∧
    (sampleExchange.fetch (Factory.ofLinks sampleLinks).connector).FailsOnly Failure.IsForeign ∧
    (sampleExchange.stream Factory.secure.connector 200).FailsOnly Failure.IsForeign ∧
    ∃ e : Failure, e.category = .configuration ∧
      View.Shows ⟨spacedExchange.feed (Factory.ofLinks sampleLinks).connector 200 0, []⟩
        [.failure e.message] := by
  have hx : sampleExchange.Acceptable := ⟨nofun, by decide +kernel, by decide +kernel⟩
  have hlinks : sampleExchange.ConnectsForeign (Factory.ofLinks sampleLinks) := by
    intro a proxy _
    apply Link.connect_foreign _ hx.target
    cases a <;> nofun
  have hsecure : sampleExchange.ConnectsForeign Factory.secure :=
    fun _ proxy _ => Dial.secure_foreign hx.target proxy
  have hspaced : ¬ spacedExchange.Acceptable := fun h => absurd h.target (by decide +kernel)
  have hsample := sampleExchange.screened (Factory.ofLinks sampleLinks) 200 0
  have hrefused := spacedExchange.screened (Factory.ofLinks sampleLinks) 200 0
  obtain ⟨e, hcategory, -, hshows⟩ := hrefused.stream_refused hspaced
  refine ⟨⟨hx, hlinks, hsecure, hspaced⟩, ?_, hsample.fetch_foreign hx hlinks, ?_,
    e, hcategory, hshows⟩
  · exact (hsample.stream_connects [.receive, .produce] trivial).mpr hx
  · exact (sampleExchange.screened Factory.secure 200 0).stream_foreign hx hsecure

end Exchange

end HttpRelay
