import HttpRelay.Proofs.Exchange.Factories

namespace HttpRelay

def Failure.IsForeign (e : Failure) : Prop := e.category ≠ .configuration

theorem Failure.IsReception.isForeign {e : Failure} (h : e.IsReception) : e.IsForeign := by
  rcases h with rfl | h
  · nofun
  · cases e <;> first | exact h.elim | nofun

theorem Failure.IsLate.isForeign {e : Failure} (h : e.IsLate) : e.IsForeign :=
  IsReception.isForeign (.inr h)

theorem Outgoing.send_foreign (o : Outgoing) (bytes : Bytes) {failure : IoFault → Failure}
    (h : ∀ fault, (failure fault).IsForeign) :
    (o.send bytes failure).FailsOnly Failure.IsForeign := by
  intro e he
  obtain ⟨fault, rfl⟩ := send_error he
  exact h fault

namespace Proxy

variable {proxy : Proxy} {target : Endpoint}

theorem connectRequest_of_valid (h : target.validate = .ok ()) (proxy : Proxy) :
    ∃ text, proxy.connectRequest target = .ok text := by
  rw [connectRequest, h]
  exact ⟨_, rfl⟩

theorem handshake_isForeign (proxy : Proxy) (reason : String) :
    (proxy.handshake reason).IsForeign := nofun

theorem answerFailure_isForeign (proxy : Proxy) (e : Failure) :
    (proxy.answerFailure e).IsForeign := by
  unfold answerFailure
  split <;> exact handshake_isForeign proxy _

theorem judge_foreign {head : Head} {buffer : Bytes} {e : Failure}
    (h : proxy.judge target head buffer = .error e) : e.IsForeign := by
  unfold judge at h
  split at h
  · obtain rfl := Except.error.inj h
    nofun
  · split at h
    · cases h
    · obtain rfl := Except.error.inj h
      nofun

theorem negotiate_foreign (h : target.validate = .ok ()) (proxy : Proxy) (peer : Peer) :
    (proxy.negotiate target peer).FailsOnly Failure.IsForeign := by
  obtain ⟨text, htext⟩ := connectRequest_of_valid h proxy
  apply Run.FailsOnly.bind
  · rw [htext]
    exact .pure text
  intro request _
  apply Run.FailsOnly.bind
  · exact Outgoing.send_foreign _ _ fun fault => handshake_isForeign proxy fault.text
  intro outgoing _
  apply Run.FailsOnly.bind
  · exact .mapFailure proxy.answerFailure_isForeign
  rintro ⟨head, buffer, incoming⟩ _
  apply Run.FailsOnly.bind
  · exact .ofExcept fun e => judge_foreign
  intro head _
  exact (Run.FailsOnly.act _).bind fun _ _ => .pure _

end Proxy

namespace Request

variable {request : Request}

theorem encode_of_validate (h : request.validate = .ok ()) :
    ∃ bytes, request.encode = .ok bytes := by
  rw [encode, h]
  exact ⟨_, rfl⟩

theorem exchangeHeads_foreign (h : request.validate = .ok ()) (peer : Peer) :
    (request.exchangeHeads peer).FailsOnly Failure.IsForeign := by
  obtain ⟨bytes, hbytes⟩ := encode_of_validate h
  apply Run.FailsOnly.bind
  · rw [hbytes]
    exact .pure bytes
  intro bytes _
  apply Run.FailsOnly.bind
  · exact Outgoing.send_foreign _ _ fun _ => nofun
  · intro _ _
    exact (HeadSearch.searches _ _ _ _).reception.imp fun _ => Failure.IsReception.isForeign

theorem stream_foreign (h : request.validate = .ok ()) (expected : UInt16) (peer : Peer) :
    (request.stream expected peer).FailsOnly Failure.IsForeign := by
  rw [stream_eq_relay]
  refine (exchangeHeads_foreign h peer).bind fun x _ => ?_
  exact (request.relay_late x expected).imp fun _ => Failure.IsLate.isForeign

theorem fetch_foreign (h : request.validate = .ok ()) (limit : UInt64) (c : Connection) :
    (request.fetch limit c).FailsOnly Failure.IsForeign := by
  rw [fetch_eq_gather]
  refine (exchangeHeads_foreign h c.peer).bind fun x _ => ?_
  exact (request.gather_late x limit c).imp fun _ => Failure.IsLate.isForeign

end Request

theorem withReconnect_foreign {α : Type} {target : Endpoint} {connect : Attempt → Run Connection}
    {op : Attempt → Connection → Run α}
    (hconnect : ∀ a, (connect a).FailsOnly Failure.IsForeign)
    (hop : ∀ a c, (op a c).FailsOnly Failure.IsForeign) :
    (withReconnect target connect op).FailsOnly Failure.IsForeign := by
  have hattempt : ∀ a c, (Reconnect.attempt op a c).FailsOnly Failure.IsForeign :=
    fun a c => (Run.FailsOnly.act _).bind fun _ _ => hop a c
  apply Run.FailsOnly.bind (hconnect .initial)
  intro c _ e he
  unfold Reconnect.orElse at he
  split at he
  · rename_i e' hfirst
    split at he
    · have hagain : (Reconnect.warning target >>= fun _ => connect .reconnect >>=
          Reconnect.attempt op .reconnect).FailsOnly Failure.IsForeign :=
        (Run.FailsOnly.act _).bind fun _ _ => (hconnect .reconnect).bind fun c _ =>
          hattempt .reconnect c
      exact hagain e he
    · exact hattempt .initial c e he
  · exact hattempt .initial c e he

theorem Link.connect_foreign {link : Link} {target : Endpoint}
    (hlink : ∀ failure, link = .refused failure → failure.IsForeign)
    (h : target.validate = .ok ()) (proxy : Option Proxy) :
    (link.connect target proxy).FailsOnly Failure.IsForeign := by
  refine Run.FailsOnly.bind (Run.FailsOnly.act _) ?_
  intro _ _
  cases link with
  | refused failure => exact .fail (hlink failure rfl)
  | reached peer =>
    cases proxy with
    | none => exact .pure _
    | some proxy => exact (proxy.negotiate_foreign h peer).bind fun _ _ => .pure _

namespace Dial

theorem connectAny_foreign (e : Endpoint) (last : IoFault) (addresses : List Address) :
    (connectAny e last addresses).FailsOnly Failure.IsForeign := by
  induction addresses generalizing last with
  | nil =>
    apply Run.FailsOnly.fail
    intro h
    cases h
  | cons a rest ih =>
    rw [connectAny]
    cases refusal? a with
    | none => exact .stuck
    | some fault => exact (Run.FailsOnly.act _).bind fun _ _ => ih fault

theorem connect_foreign (e : Endpoint) : (connect e).FailsOnly Failure.IsForeign := by
  apply Run.FailsOnly.bind
  · unfold resolve
    split
    · exact .pure _
    · split
      · exact .fail nofun
      · nofun
  · exact fun addresses _ => connectAny_foreign e noAddress addresses

theorem establish_foreign (host : String) (incoming : Incoming) :
    (Tls.establish host incoming : Run Connection).FailsOnly Failure.IsForeign := by
  unfold Tls.establish
  split
  · intro e he
    obtain ⟨fault, -, hfault⟩ := Option.map_eq_some_iff.mp he
    obtain rfl := Except.error.inj hfault
    nofun
  · exact .fail nofun

theorem secure_foreign {target : Endpoint} (h : target.validate = .ok ())
    (proxy : Option Proxy) : (secure target proxy).FailsOnly Failure.IsForeign := by
  refine Run.FailsOnly.bind (Run.FailsOnly.act _) ?_
  intro _ _
  cases proxy with
  | none =>
    apply Run.FailsOnly.bind (connect_foreign target)
    exact fun peer _ => establish_foreign target.host peer.incoming
  | some proxy =>
    refine Run.FailsOnly.bind (Run.FailsOnly.act _) ?_
    intro _ _
    apply Run.FailsOnly.bind (connect_foreign proxy.endpoint)
    intro peer _
    apply Run.FailsOnly.bind (proxy.negotiate_foreign h peer)
    exact fun r _ => establish_foreign target.host r.2.incoming

end Dial

end HttpRelay
