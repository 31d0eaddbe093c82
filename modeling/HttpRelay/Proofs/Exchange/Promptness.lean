import Mathlib.Control.Monad.Basic
import HttpRelay.Proofs.Exchange.BodyRests
import HttpRelay.Proofs.Exchange.BodyRuns
import HttpRelay.Proofs.Http.Contents
import HttpRelay.Proofs.Text.Unfinished

namespace HttpRelay

def Incoming.received (incoming : Incoming) (buffer : Bytes) (asks : Nat) : Bytes :=
  buffer ++ (incoming.arrivals.take asks).flatMap Arrival.bytes

namespace Request

variable {request : Request} {expected : UInt16} {peer : Peer}

structure Body (request : Request) (expected : UInt16) (peer : Peer) where
  head : Head
  buffer : Bytes
  incoming : Incoming
  framing : Framing
  answered : (request.exchangeHeads peer).outcome = some (.ok (head, buffer, incoming))
  accepted : head.status = expected
  framed : Framing.ofHead head request.method = .ok framing

namespace Body

variable (x : request.Body expected peer)

def received (since : List Effect) : Bytes := x.incoming.received x.buffer (since.count .asked)

def payload (since : List Effect) : Bytes := x.framing.contents (x.received since)

def receipt : Receipt := Receipt.of x.framing x.buffer x.incoming

def notes : List Effect :=
  [request.answerRecord x.head, x.head.framingRecord x.framing].map .logged

theorem effects_stream : (request.stream expected peer).effects =
    (request.exchangeHeads peer).effects ++ (x.notes ++ x.receipt.relayed.effects) :=
  congrArg Run.effects (stream_of_framing x.answered x.accepted x.framed)

theorem outcome_stream : (request.stream expected peer).outcome =
    x.receipt.outcome.map (·.map fun _ => x.head) :=
  congrArg Run.outcome (stream_of_framing x.answered x.accepted x.framed)

theorem text_behind_heads (es : List Effect) :
    Effect.text ((request.exchangeHeads peer).effects ++ es) = Effect.text es := by
  have hheads := Effect.fragments_wire (exchangeHeads_wire request peer)
  rw [Effect.text, Effect.fragments_append, hheads, List.nil_append]
  rfl

theorem text_notes (es : List Effect) : Effect.text (x.notes ++ es) = Effect.text es := rfl

theorem asked_not_mem_notes : Effect.asked ∉ x.notes := by
  simp [notes]

theorem payload_notes (es : List Effect) : x.payload (x.notes ++ es) = x.payload es := by
  have hnotes : x.notes.count .asked = 0 := List.count_eq_zero.mpr x.asked_not_mem_notes
  rw [payload, payload, received, received, List.count_append, hnotes, Nat.zero_add]

theorem signals_at_rest {before after : List Signal} (h : x.receipt.signals = before ++ after)
    (ha : Receipt.AtRest after) : before.flatMap Signal.data =
      x.framing.contents (x.incoming.received x.buffer (before.count .asked)) := by
  have hf := Framing.fresh_of_ofHead x.framed
  rw [← Framing.payload_drain hf]
  exact (Receipt.signals_collect _ _ _ _).at_rest hf.sound h ha

theorem payload_relayed :
    x.receipt.payload = x.payload (x.notes ++ x.receipt.relayed.effects) := by
  have hcount := Stream.count_effects none x.receipt.outcome x.receipt.signals
  rw [payload_notes, payload, received, Receipt.relayed, hcount]
  exact x.signals_at_rest (List.append_nil _).symm (.inl rfl)

theorem since_eq {since : List Effect}
    (h : (request.stream expected peer).effects = (request.exchangeHeads peer).effects ++ since) :
    since = x.notes ++ x.receipt.relayed.effects := by
  rw [x.effects_stream] at h
  exact (List.append_cancel_left h).symm

theorem settled_asking {since after : List Effect}
    (h : (request.stream expected peer).effects =
      (request.exchangeHeads peer).effects ++ (since ++ .asked :: after)) :
    Utf8.Settled (x.payload since)
      (Effect.text ((request.exchangeHeads peer).effects ++ since)) := by
  obtain ⟨t, rfl, hrelay⟩ := Stream.split_asked x.asked_not_mem_notes (x.since_eq h).symm
  obtain ⟨ss, ts, hsignals, hcount, htext⟩ := Stream.effects_asked hrelay
  have hdata := x.signals_at_rest hsignals (.inr ⟨ts, rfl⟩)
  rw [text_behind_heads, text_notes, payload_notes, Utf8.settled_iff, htext, hdata, payload,
    received, hcount]

theorem text_stream : Effect.text (request.stream expected peer).effects =
    Effect.text x.receipt.relayed.effects := by
  rw [x.effects_stream, text_behind_heads, text_notes]

theorem settled_failing {since : List Effect} {e : Failure}
    (h : (request.stream expected peer).effects = (request.exchangeHeads peer).effects ++ since)
    (ho : (request.stream expected peer).outcome = some (.error e)) :
    Utf8.Settled (x.payload since) (Effect.text (request.stream expected peer).effects) := by
  have hleft : ∀ held, Stream.leftover x.receipt.outcome held = [] := by
    rw [x.outcome_stream] at ho
    intro held
    cases hr : x.receipt.outcome with
    | none => rfl
    | some o =>
      cases o with
      | error => rfl
      | ok => simp [hr, Except.map] at ho
  rw [x.since_eq h, ← x.payload_relayed, Utf8.settled_iff, x.text_stream, Receipt.relayed,
    Stream.toList_text_effects, hleft, List.append_nil]
  rfl

theorem text_complete {since : List Effect} {head : Head}
    (h : (request.stream expected peer).effects = (request.exchangeHeads peer).effects ++ since)
    (ho : (request.stream expected peer).outcome = some (.ok head)) :
    Effect.text (request.stream expected peer).effects = Utf8.lossy (x.payload since) := by
  have hr : x.receipt.outcome = some (.ok ()) := by
    rw [x.outcome_stream] at ho
    cases hr : x.receipt.outcome with
    | none => simp [hr] at ho
    | some o =>
      cases o with
      | error => simp [hr, Except.map] at ho
      | ok => rfl
  rw [x.since_eq h, ← x.payload_relayed, x.text_stream, Stream.text_relayed hr]

/-- What a stream shows is all that is certain about its body: when it asks for more bytes and
when it fails. What it has shown by then is the beginning of any whole body that begins alike. -/
structure Prompt : Prop where
  asking : ∀ since after, (request.stream expected peer).effects =
      (request.exchangeHeads peer).effects ++ (since ++ .asked :: after) →
    Utf8.Settled (x.payload since) (Effect.text ((request.exchangeHeads peer).effects ++ since))
  failing : ∀ since e, (request.stream expected peer).effects =
      (request.exchangeHeads peer).effects ++ since →
    (request.stream expected peer).outcome = some (.error e) →
      Utf8.Settled (x.payload since) (Effect.text (request.stream expected peer).effects)
  complete : ∀ since head, (request.stream expected peer).effects =
      (request.exchangeHeads peer).effects ++ since →
    (request.stream expected peer).outcome = some (.ok head) →
      Effect.text (request.stream expected peer).effects = Utf8.lossy (x.payload since)
  beginning : ∀ since e, (request.stream expected peer).effects =
      (request.exchangeHeads peer).effects ++ since →
    (request.stream expected peer).outcome = some (.error e) →
      ∀ (peer' : Peer) (y : request.Body expected peer') (since' : List Effect) (head' : Head),
        (request.stream expected peer').effects =
          (request.exchangeHeads peer').effects ++ since' →
        (request.stream expected peer').outcome = some (.ok head') → y.framing = x.framing →
        ∀ common, x.framing.contents common = x.payload since → common <+: y.received since' →
          (Effect.text (request.stream expected peer).effects).toList <+:
            (Effect.text (request.stream expected peer').effects).toList

theorem prompt : x.Prompt where
  asking _ _ := x.settled_asking
  failing _ _ := x.settled_failing
  complete _ _ := x.text_complete
  beginning := by
    intro since e h ho peer' y since' head' h' ho' hframing common hcommon hbegin
    obtain ⟨more, hmore⟩ := hbegin
    have hpayload : x.payload since <+: y.payload since' := by
      rw [← hcommon, payload, ← hmore, hframing]
      exact Framing.contents_append _ _ _
    obtain ⟨later, hlater⟩ := hpayload
    rw [y.text_complete h' ho', ← hlater]
    exact (x.settled_failing h ho).isPrefix later

end Body

theorem stream_prompt (request : Request) (expected : UInt16) (peer : Peer) :
    (∀ x : request.Body expected peer, x.Prompt) ∧
      (¬ Nonempty (request.Body expected peer) →
        Effect.fragments (request.stream expected peer).effects = []) := by
  have hheads := Effect.fragments_wire (exchangeHeads_wire request peer)
  refine ⟨fun x => x.prompt, fun hbody => ?_⟩
  cases ho : (request.exchangeHeads peer).outcome with
  | none =>
    rw [Request.stream, Run.bind_of_none ho]
    exact hheads
  | some o =>
    cases o with
    | error e =>
      rw [Request.stream, Run.bind_of_error ho]
      exact hheads
    | ok r =>
      obtain ⟨head, buffer, incoming⟩ := r
      by_cases hs : head.status = expected
      · cases hf : Framing.ofHead head request.method with
        | ok framing => exact absurd ⟨head, buffer, incoming, framing, ho, hs, hf⟩ hbody
        | error e =>
          rw [stream_of_badFraming ho hs hf, Effect.fragments_append, hheads]
          rfl
      · rw [stream_of_otherStatus ho hs, Effect.fragments_append, hheads]
        rfl

def brokenOff : Peer where
  incoming :=
    { arrivals := Arrival.pieces
        ["HTTP/1.1 200 OK\r\nTransfer-Encoding: chunked\r\n\r\n7\r\nab".toUTF8.toList ++ [0xc3],
          [0xa9, 0xe2]]
      ending := .closed }
  outgoing := ⟨[.takes 3, .takes 7], .takes 5, []⟩

def brokenOffBody : (Request.get "/").Body 200 brokenOff where
  head := ⟨1, 200, "OK", [("Transfer-Encoding", "chunked")]⟩
  buffer := [0x37, 0x0d, 0x0a, 0x61, 0x62, 0xc3]
  incoming := ⟨Arrival.pieces [[0xa9, 0xe2]], .closed⟩
  framing := .chunked .size
  answered := by decide +kernel
  accepted := rfl
  framed := by decide +kernel

theorem stream_prompt_brokenOff : brokenOffBody.Prompt ∧
    Effect.fragments ((Request.get "/").stream 200 brokenOff).effects = ["ab", "é"] ∧
    ((Request.get "/").stream 200 brokenOff).outcome =
      some (.error (.chunkDecode "connection closed in the middle of a chunked body")) :=
  ⟨(stream_prompt _ _ _).1 brokenOffBody, by decide +kernel, by decide +kernel⟩

end Request

end HttpRelay
