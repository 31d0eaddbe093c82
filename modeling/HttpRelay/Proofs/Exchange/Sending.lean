import HttpRelay.Proofs.Exchange.Intake

namespace HttpRelay

namespace Request

variable {α : Type} {request : Request} {o : Outgoing}

inductive Sends (request : Request) (o : Outgoing) : Run α → Prop
  | refused {reason : String} (h : request.encode = .error (.invalidRequest reason)) :
    Sends request o ⟨[], some (.error (.invalidRequest reason))⟩
  | broken {bytes : Bytes} {fault : IoFault} (hb : request.encode = .ok bytes)
    (ho : ¬ o.Takes bytes.length) :
    Sends request o ⟨o.wrote bytes, some (.error (.write fault))⟩
  | sent {bytes : Bytes} {answer : Run α} (hb : request.encode = .ok bytes)
    (ho : o.Takes bytes.length) (hi : answer.Only Effect.IsIntake)
    (hf : answer.FailsOnly Failure.IsReception) :
    Sends request o (answer.after (o.wrote bytes ++ [.flushed]))

theorem sends_of_exchangeHeads (request : Request) (peer : Peer)
    {f : Head × Bytes × Incoming → Run α} (hi : ∀ x, (f x).Only Effect.IsIntake)
    (hf : ∀ x, (f x).FailsOnly Failure.IsLate) :
    request.Sends peer.outgoing (request.exchangeHeads peer >>= f) := by
  cases hb : request.encode with
  | error e =>
    obtain ⟨reason, rfl⟩ := encode_error hb
    have hrefused : request.exchangeHeads peer = ⟨[], some (.error (.invalidRequest reason))⟩ := by
      rw [exchangeHeads, Run.ofExcept_bind, hb]
      rfl
    rw [Run.bind_of_error (congrArg Run.outcome hrefused), hrefused]
    exact .refused hb
  | ok bytes =>
    by_cases ho : peer.outgoing.Takes bytes.length
    · have hsearch := HeadSearch.searches false [] peer.incoming.ending peer.incoming.arrivals
      have hsend := Outgoing.send_of_takes ho .write
      rw [exchangeHeads_of_sent hb (congrArg Run.outcome hsend), hsend, Run.after_bind]
      apply Sends.sent hb ho
      · exact Run.Only.bind (fun e he => (hsearch.quiet e he).isIntake) hi
      · exact hsearch.reception.bind fun x _ => (hf x).imp fun _ => .inr
    · obtain ⟨fault, hsend⟩ := Outgoing.send_of_not_takes ho .write
      have hbroken : request.exchangeHeads peer =
          ⟨peer.outgoing.wrote bytes, some (.error (.write fault))⟩ := by
        rw [exchangeHeads, Run.ofExcept_bind, hb]
        dsimp only
        rw [Run.bind_of_error (congrArg Run.outcome hsend), hsend]
      rw [Run.bind_of_error (congrArg Run.outcome hbroken), hbroken]
      exact .broken hb ho

theorem stream_sends (request : Request) (expected : UInt16) (peer : Peer) :
    request.Sends peer.outgoing (request.stream expected peer) := by
  rw [stream_eq_relay]
  exact request.sends_of_exchangeHeads peer (request.relay_intake · expected)
    (request.relay_late · expected)

theorem fetch_sends (request : Request) (limit : UInt64) (c : Connection) :
    request.Sends c.peer.outgoing (request.fetch limit c) := by
  rw [fetch_eq_gather]
  exact request.sends_of_exchangeHeads c.peer
    (fun x => (request.gather_quiet x limit c).imp fun _ => Effect.IsQuiet.isIntake)
    (request.gather_late · limit c)

def OutInFull (request : Request) (es : List Effect) : Prop :=
  ∃ (parts : List Bytes) (answer : List Effect), request.encode = .ok parts.flatten ∧
    es = parts.map .wrote ++ .flushed :: answer ∧ ∀ e ∈ answer, e.IsIntake

structure WritesInFull (request : Request) (o : Outgoing) (r : Run α) : Prop where
  refuses : ∀ e, request.encode = .error e → r = ⟨[], some (.error e)⟩
  refuses_iff : (∃ reason, r.outcome = some (.error (.invalidRequest reason))) ↔
    ∃ e, request.encode = .error e
  keepsOrder : ∀ bytes, request.encode = .ok bytes → ∀ es, es <+: r.effects →
    Effect.writtenBytes es <+: bytes
  getsOut : ∀ bytes, request.encode = .ok bytes →
    Effect.writtenBytes r.effects = bytes.take (o.through bytes.length)
  breaks_iff : (∃ fault, r.outcome = some (.error (.write fault))) ↔
    ∃ bytes, request.encode = .ok bytes ∧ ¬ o.Takes bytes.length
  stops : ∀ fault, r.outcome = some (.error (.write fault)) →
    ∀ e ∈ r.effects, ∃ part, e = .wrote part
  completes : (∀ reason, r.outcome ≠ some (.error (.invalidRequest reason))) →
    (∀ fault, r.outcome ≠ some (.error (.write fault))) → request.OutInFull r.effects

namespace Sends

variable {r : Run α} (h : request.Sends o r)

include h

theorem refuses {e : Failure} (he : request.encode = .error e) : r = ⟨[], some (.error e)⟩ := by
  cases h with
  | refused hr =>
    rw [he] at hr
    rw [Except.error.inj hr]
  | broken hb | sent hb =>
    rw [he] at hb
    cases hb

theorem refuses_iff : (∃ reason, r.outcome = some (.error (.invalidRequest reason))) ↔
    ∃ e, request.encode = .error e := by
  cases h with
  | refused hr => exact iff_of_true ⟨_, rfl⟩ ⟨_, hr⟩
  | broken hb => simp [hb]
  | sent hb ho hi hf =>
    apply iff_of_false
    · rintro ⟨reason, hr⟩
      rcases hf _ hr with he | hlate
      · cases he
      · exact hlate
    · rintro ⟨e, he⟩
      cases hb.symm.trans he

theorem getsOut {bytes : Bytes} (hb : request.encode = .ok bytes) :
    Effect.writtenBytes r.effects = bytes.take (o.through bytes.length) := by
  cases h with
  | refused hr =>
    rw [hb] at hr
    cases hr
  | broken hb' ho =>
    obtain rfl := Except.ok.inj (hb.symm.trans hb')
    exact o.writtenBytes_wrote bytes
  | sent hb' ho hi =>
    obtain rfl := Except.ok.inj (hb.symm.trans hb')
    rw [Run.after, Effect.writtenBytes_append, Effect.writtenBytes_intake hi, List.append_nil,
      Effect.writtenBytes_append, o.writtenBytes_wrote]
    exact List.append_nil _

theorem breaks_iff : (∃ fault, r.outcome = some (.error (.write fault))) ↔
    ∃ bytes, request.encode = .ok bytes ∧ ¬ o.Takes bytes.length := by
  cases h with
  | refused hr => simp [hr]
  | broken hb ho => exact iff_of_true ⟨_, rfl⟩ ⟨_, hb, ho⟩
  | sent hb ho hi hf =>
    apply iff_of_false
    · rintro ⟨fault, hw⟩
      rcases hf _ hw with he | hlate
      · cases he
      · exact hlate
    · rintro ⟨bytes, hb', hn⟩
      obtain rfl := Except.ok.inj (hb.symm.trans hb')
      exact hn ho

theorem stops {fault : IoFault} (hw : r.outcome = some (.error (.write fault))) :
    ∀ e ∈ r.effects, ∃ part, e = .wrote part := by
  cases h with
  | refused => cases hw
  | broken =>
    intro e he
    obtain ⟨part, -, rfl⟩ := List.mem_map.mp he
    exact ⟨part, rfl⟩
  | sent hb ho hi hf =>
    rcases hf _ hw with he | hlate
    · cases he
    · exact hlate.elim

theorem completes (hr : ∀ reason, r.outcome ≠ some (.error (.invalidRequest reason)))
    (hw : ∀ fault, r.outcome ≠ some (.error (.write fault))) : request.OutInFull r.effects := by
  cases h with
  | refused => exact absurd rfl (hr _)
  | broken => exact absurd rfl (hw _)
  | @sent bytes answer hb ho hi hf =>
    refine ⟨(o.writeAll bytes).parts, answer.effects, ?_, ?_, hi⟩
    · rw [hb, o.flatten_writeAll, ho.through, List.take_length]
    · rw [Run.after, List.append_assoc]
      rfl

theorem writesInFull : request.WritesInFull o r where
  refuses _ he := h.refuses he
  refuses_iff := h.refuses_iff
  keepsOrder bytes hb es hes := by
    have hout := Effect.writtenBytes_prefix hes
    rw [h.getsOut hb] at hout
    exact hout.trans (List.take_prefix _ _)
  getsOut _ hb := h.getsOut hb
  breaks_iff := h.breaks_iff
  stops _ hw := h.stops hw
  completes := h.completes

end Sends

/-- Streams and fetches alike write the request in full and in order, or say that they did not. -/
theorem exchange_writesInFull (request : Request) (expected : UInt16) (limit : UInt64)
    (c : Connection) :
    request.WritesInFull c.peer.outgoing (request.stream expected c.peer) ∧
      request.WritesInFull c.peer.outgoing (request.fetch limit c) :=
  ⟨(request.stream_sends expected c.peer).writesInFull, (request.fetch_sends limit c).writesInFull⟩

end Request

end HttpRelay
