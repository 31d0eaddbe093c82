import HttpRelay.Exchange.NextHead
import HttpRelay.Http.Framing
import HttpRelay.Http.Request

namespace HttpRelay

def Outgoing.send (o : Outgoing) (bytes : Bytes) (failure : IoFault → Failure) : Run Outgoing :=
  let w := o.writeAll bytes
  let written := w.parts.map Effect.wrote
  match w.fault, w.outgoing.flush with
  | some fault, _ => ⟨written, some (.error (failure fault))⟩
  | none, (some fault, _) => ⟨written, some (.error (failure fault))⟩
  | none, (none, flushed) => ⟨written ++ [.flushed], some (.ok flushed)⟩

def Request.exchangeHeads (request : Request) (peer : Peer) : Run (Head × Bytes × Incoming) := do
  let bytes ← Run.ofExcept request.encode
  let _ ← peer.outgoing.send bytes .write
  (nextHead [] peer.incoming).run

def Head.framing (head : Head) (method : String) : Run Framing := do
  let framing ← Run.ofExcept (Framing.ofHead head method)
  Run.log .trace .body s!"Body framing for status {head.status}: {framing.choiceText}"
  pure framing

end HttpRelay
