import HttpRelay.Exchange.Tunnel
import HttpRelay.Proofs.Exchange.Intake

namespace HttpRelay

def Effect.IsInner : Effect → Prop
  | .connecting .. | .attempting .. | .counted _ => False
  | _ => True

theorem Effect.IsWire.isInner {e : Effect} (h : e.IsWire) : e.IsInner := by
  cases e <;> trivial

theorem Effect.IsIntake.isInner {e : Effect} (h : e.IsIntake) : e.IsInner := by
  cases e <;> trivial

structure Unanswered (request : Request) (peer : Peer) (effects : List Effect) : Prop where
  sent : ∃ bytes, request.encode = .ok bytes ∧ Effect.writtenBytes effects = bytes ∧
    .flushed ∈ effects
  silent : peer.incoming.ClosesAtOnce
  withheld : Effect.fragments effects = []

namespace Request

variable {request : Request} {expected : UInt16} {peer : Peer}

theorem unanswered_of_exchangeHeads
    (h : (request.exchangeHeads peer).outcome = some (.error .unexpectedClose)) :
    Unanswered request peer (request.exchangeHeads peer).effects := by
  obtain ⟨bytes, p, hb, hs, hc⟩ := exchangeHeads_unexpectedClose_iff.mp h
  obtain ⟨hwritten, hflushed⟩ := Outgoing.send_of_ok hs
  refine ⟨⟨bytes, hb, ?_, ?_⟩, hc, Effect.fragments_wire (exchangeHeads_wire request peer)⟩
  · have hquiet : Effect.writtenBytes (nextHead [] peer.incoming).run.effects = [] :=
      Effect.writtenBytes_quiet (HeadSearch.searches _ _ _ _).quiet
    rw [exchangeHeads_of_sent hb hs, Run.after, Effect.writtenBytes_append, hwritten, hquiet,
      List.append_nil]
  · rw [exchangeHeads_of_sent hb hs]
    exact List.mem_append_left _ hflushed

theorem stream_inner (request : Request) (expected : UInt16) (peer : Peer) :
    (request.stream expected peer).Only Effect.IsInner := by
  rw [stream_eq_relay]
  refine ((exchangeHeads_wire request peer).imp fun _ => Effect.IsWire.isInner).bind fun x => ?_
  exact (request.relay_intake x expected).imp fun _ => Effect.IsIntake.isInner

theorem fetch_wire (request : Request) (limit : UInt64) (c : Connection) :
    (request.fetch limit c).Only Effect.IsWire := by
  rw [fetch_eq_gather]
  refine (exchangeHeads_wire request c.peer).bind fun x => ?_
  exact (request.gather_quiet x limit c).imp fun _ => Effect.IsQuiet.isWire

theorem exchangeHeads_of_unexpectedClose {α : Type} {f : Head × Bytes × Incoming → Run α}
    (hf : ∀ x, (f x).FailsOnly Failure.IsLate)
    (h : (request.exchangeHeads peer >>= f).outcome = some (.error .unexpectedClose)) :
    (request.exchangeHeads peer).outcome = some (.error .unexpectedClose) := by
  rcases Run.bind_error h with he | ⟨x, -, hx⟩
  · exact he
  · exact absurd rfl (hf x _ hx).ne_unexpectedClose

theorem stream_unanswered
    (h : (request.stream expected peer).outcome = some (.error .unexpectedClose)) :
    Unanswered request peer (request.stream expected peer).effects := by
  rw [stream_eq_relay] at h ⊢
  have he := exchangeHeads_of_unexpectedClose (request.relay_late · expected) h
  rw [Run.bind_of_error he]
  exact unanswered_of_exchangeHeads he

theorem fetch_unanswered {limit : UInt64} {c : Connection}
    (h : (request.fetch limit c).outcome = some (.error .unexpectedClose)) :
    Unanswered request c.peer (request.fetch limit c).effects := by
  rw [fetch_eq_gather] at h ⊢
  have he := exchangeHeads_of_unexpectedClose (request.gather_late · limit c) h
  rw [Run.bind_of_error he]
  exact unanswered_of_exchangeHeads he

end Request

end HttpRelay
