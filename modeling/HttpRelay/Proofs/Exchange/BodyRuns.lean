import HttpRelay.Proofs.Exchange.BodyLoops
import HttpRelay.Proofs.Exchange.Fragments
import HttpRelay.Proofs.Exchange.Openings

namespace HttpRelay

variable {request : Request} {expected : UInt16} {peer : Peer} {head : Head} {buffer : Bytes}
  {incoming : Incoming} {framing : Framing}

namespace Head

def framingRecord (head : Head) (framing : Framing) : Log.Record :=
  ⟨.trace, .body, s!"Body framing for status {head.status}: {framing.choiceText}"⟩

theorem framing_of_ok {method : String} (h : Framing.ofHead head method = .ok framing) :
    head.framing method = ⟨[.logged (head.framingRecord framing)], some (.ok framing)⟩ := by
  rw [Head.framing, Run.ofExcept_bind, h]
  rfl

theorem framing_of_error {method : String} {e : Failure}
    (h : Framing.ofHead head method = .error e) :
    head.framing method = ⟨[], some (.error e)⟩ := by
  rw [Head.framing, Run.ofExcept_bind, h]
  rfl

end Head

namespace Request

def answerRecord (request : Request) (head : Head) : Log.Record :=
  ⟨.debug, .engine,
    s!"{request.method} {request.target} -> {head.status} {head.reason}"⟩

theorem stream_of_otherStatus
    (h : (request.exchangeHeads peer).outcome = some (.ok (head, buffer, incoming)))
    (hs : head.status ≠ expected) :
    request.stream expected peer =
      ⟨(request.exchangeHeads peer).effects ++ [.logged (request.answerRecord head)],
        some (.error (.unexpectedStatus head.status head.reason))⟩ := by
  rw [Request.stream, Run.bind_of_ok h]
  simp only [Run.log, Run.act_bind, if_pos hs]
  rfl

theorem stream_of_badFraming {e : Failure}
    (h : (request.exchangeHeads peer).outcome = some (.ok (head, buffer, incoming)))
    (hs : head.status = expected) (hf : Framing.ofHead head request.method = .error e) :
    request.stream expected peer =
      ⟨(request.exchangeHeads peer).effects ++ [.logged (request.answerRecord head)],
        some (.error e)⟩ := by
  have hne : ¬ head.status ≠ expected := fun hn => hn hs
  rw [Request.stream, Run.bind_of_ok h]
  simp only [Run.log, Run.act_bind, if_neg hne, Head.framing_of_error hf]
  rfl

theorem stream_of_framing
    (h : (request.exchangeHeads peer).outcome = some (.ok (head, buffer, incoming)))
    (hs : head.status = expected) (hf : Framing.ofHead head request.method = .ok framing) :
    request.stream expected peer =
      ⟨(request.exchangeHeads peer).effects ++
          ([request.answerRecord head, head.framingRecord framing].map .logged ++
            (Receipt.of framing buffer incoming).relayed.effects),
        (Receipt.of framing buffer incoming).outcome.map (·.map fun _ => head)⟩ := by
  have hne : ¬ head.status ≠ expected := fun hn => hn hs
  rw [Request.stream, Run.bind_of_ok h]
  simp only [Run.log, Run.act_bind, if_neg hne, Head.framing_of_ok hf]
  rw [Run.bind_of_ok rfl, Stream.relay_eq_relayed, Run.bind_pure]
  rfl

theorem fragments_stream
    (h : (request.exchangeHeads peer).outcome = some (.ok (head, buffer, incoming)))
    (hs : head.status = expected) (hf : Framing.ofHead head request.method = .ok framing) :
    Effect.fragments (request.stream expected peer).effects =
      Effect.fragments (Receipt.of framing buffer incoming).relayed.effects := by
  have hheads := Effect.fragments_wire (exchangeHeads_wire request peer)
  have hnotes : Effect.fragments
      ([request.answerRecord head, head.framingRecord framing].map .logged) = [] := rfl
  rw [stream_of_framing h hs hf, Effect.fragments_append, Effect.fragments_append, hheads, hnotes,
    List.nil_append, List.nil_append]

theorem writtenBytes_stream
    (h : (request.exchangeHeads peer).outcome = some (.ok (head, buffer, incoming)))
    (hs : head.status = expected) (hf : Framing.ofHead head request.method = .ok framing) :
    Effect.writtenBytes (request.stream expected peer).effects =
      Effect.writtenBytes (request.exchangeHeads peer).effects := by
  rw [stream_of_framing h hs hf, Effect.writtenBytes_append, Effect.writtenBytes_append,
    Effect.writtenBytes_quiet (Effect.quiet_logged _), Stream.writtenBytes_relayed,
    List.append_nil, List.append_nil]

end Request

namespace Fetch

def asks : Signal → List Effect
  | .asked => [.asked]
  | .event _ => []

theorem collect_within {limit : UInt64} {size : Nat} {outcome : Option (Except Failure Unit)}
    {kept : List Bytes} {signals : List Signal}
    (h : size + (signals.flatMap Signal.data).length ≤ limit.toNat) :
    collect limit outcome kept size signals =
      ⟨signals.flatMap asks,
        outcome.map (·.map fun _ => kept.reverse.flatten ++ signals.flatMap Signal.data)⟩ := by
  induction signals generalizing size kept with
  | nil => simp [collect]
  | cons s signals ih =>
    rw [List.flatMap_cons, List.length_append] at h
    cases s with
    | asked =>
      rw [collect, ih (by omega)]
      rfl
    | event e =>
      cases e with
      | data segment =>
        have hle : ¬ limit.toNat < size + segment.length := by
          simp only [Signal.data, BodyEvent.payload] at h
          omega
        rw [collect, if_neg hle, ih (by simp only [Signal.data, BodyEvent.payload] at h; omega)]
        simp [asks, Signal.data, BodyEvent.payload]
      | _ =>
        rw [collect, ih (by omega)]
        · rfl
        · simp

theorem gathered_within {limit : UInt64} {receipt : Receipt}
    (h : receipt.payload.length ≤ limit.toNat) :
    receipt.gathered limit = ⟨receipt.signals.flatMap asks,
      receipt.outcome.map (·.map fun _ => receipt.payload)⟩ := by
  rw [Receipt.gathered, collect_within (by rwa [Nat.zero_add])]
  rfl

theorem asks_quiet (signals : List Signal) :
    ∀ e ∈ signals.flatMap asks, e.IsQuiet := by
  intro e he
  obtain ⟨s, -, hs⟩ := List.mem_flatMap.mp he
  cases s with
  | asked =>
    rw [List.mem_singleton.mp hs]
    trivial
  | event v => exact absurd hs List.not_mem_nil

end Fetch

namespace Request

theorem fetch_of_badFraming {e : Failure} {limit : UInt64} {c : Connection}
    (h : (request.exchangeHeads c.peer).outcome = some (.ok (head, buffer, incoming)))
    (hf : Framing.ofHead head request.method = .error e) : request.fetch limit c =
      ⟨(request.exchangeHeads c.peer).effects, some (.error e)⟩ := by
  rw [Request.fetch, Run.bind_of_ok h]
  simp only [Head.framing_of_error hf]
  rw [Run.bind_of_error rfl, Run.after, List.append_nil]

def snapshot (c : Connection) (head : Head) (text : String) : Snapshot :=
  ⟨head.status, (c.tunnelHead.toList ++ [head]).map HeaderBlocks.group, text⟩

theorem fetch_of_framing {limit : UInt64} {c : Connection}
    (h : (request.exchangeHeads c.peer).outcome = some (.ok (head, buffer, incoming)))
    (hf : Framing.ofHead head request.method = .ok framing)
    (hl : (Receipt.of framing buffer incoming).payload.length ≤ limit.toNat) :
    request.fetch limit c =
      ⟨(request.exchangeHeads c.peer).effects ++ .logged (head.framingRecord framing) ::
          (Receipt.of framing buffer incoming).signals.flatMap Fetch.asks,
        (Receipt.of framing buffer incoming).outcome.map fun o => o.bind fun _ =>
          (ContentCoding.decode limit (Receipt.of framing buffer incoming).payload
            head.contentEncoding).map (snapshot c head)⟩ := by
  rw [Request.fetch, Run.bind_of_ok h]
  simp only [Head.framing_of_ok hf]
  rw [Run.bind_of_ok rfl]
  dsimp only
  rw [Fetch.gather_eq_gathered, Fetch.gathered_within hl]
  generalize Receipt.of framing buffer incoming = receipt
  cases ho : receipt.outcome with
  | none =>
    rw [Run.bind_of_none rfl]
    rfl
  | some o =>
    cases o with
    | error e =>
      rw [Run.bind_of_error rfl]
      rfl
    | ok u =>
      rw [Run.bind_of_ok rfl]
      dsimp only
      generalize ContentCoding.decode limit receipt.payload head.contentEncoding = decoded
      rw [Run.bind_pure]
      simp only [Run.after, Run.ofExcept, List.append_nil]
      rfl

theorem writtenBytes_fetch {limit : UInt64} {c : Connection}
    (h : (request.exchangeHeads c.peer).outcome = some (.ok (head, buffer, incoming)))
    (hf : Framing.ofHead head request.method = .ok framing)
    (hl : (Receipt.of framing buffer incoming).payload.length ≤ limit.toNat) :
    Effect.writtenBytes (request.fetch limit c).effects =
      Effect.writtenBytes (request.exchangeHeads c.peer).effects := by
  have hnote := Effect.writtenBytes_quiet (Effect.quiet_logged [head.framingRecord framing])
  have hasks := Effect.writtenBytes_quiet
    (Fetch.asks_quiet (Receipt.of framing buffer incoming).signals)
  rw [fetch_of_framing h hf hl, ← List.singleton_append, Effect.writtenBytes_append,
    Effect.writtenBytes_append, hasks, List.append_nil]
  exact (congrArg _ hnote).trans (List.append_nil _)

end Request

end HttpRelay
