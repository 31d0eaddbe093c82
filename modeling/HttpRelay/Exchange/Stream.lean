import HttpRelay.Exchange.Opening

namespace HttpRelay.Stream

def fragment : Option String → List Effect
  | some text => [.fragment text]
  | none => []

def note (message : String) : Effect := .logged ⟨.trace, .engine, message⟩

structure Turn where
  effects : List Effect
  settled : Option (Except Failure Unit)
  held : Bytes
  framing : Framing
  buffer : Bytes

def Turn.after (es : List Effect) (t : Turn) : Turn := { t with effects := es ++ t.effects }

/-- Handles one event after the other. The bytes of an incomplete character are held back until
its end comes, or the end of the body. -/
def turn (held : Bytes) (framing : Framing) (buffer : Bytes) : Turn :=
  match _h : framing.decode buffer with
  | ⟨.error failure, framing, buffer⟩ => ⟨[], some (.error failure), held, framing, buffer⟩
  | ⟨.ok none, framing, buffer⟩ => ⟨[], none, held, framing, buffer⟩
  | ⟨.ok (some (.chunkStart size)), framing, buffer⟩ =>
    (turn held framing buffer).after [note s!"Chunk of {size} bytes"]
  | ⟨.ok (some (.data segment)), framing, buffer⟩ =>
    let (text, held) := Utf8.push held segment
    (turn held framing buffer).after (fragment text)
  | ⟨.ok (some .chunkEnd), framing, buffer⟩ =>
    (turn held framing buffer).after [note "Chunk complete"]
  | ⟨.ok (some .done), framing, buffer⟩ =>
    let (text, held) := Utf8.finish held
    ⟨fragment text, some (.ok ()), held, framing, buffer⟩
termination_by framing.weight buffer
decreasing_by
  all_goals exact Framing.weight_lt_of_event _h (by simp)

def ended (held : Bytes) (framing : Framing) : Run Unit := do
  Run.ofExcept framing.finish
  ⟨fragment (Utf8.finish held).1, some (.ok ())⟩

def relay (held : Bytes) (framing : Framing) (buffer : Bytes) (ending : Ending) :
    List Arrival → Run Unit
  | [] =>
    let t := turn held framing buffer
    match t.settled, ending with
    | some outcome, _ => ⟨t.effects, some outcome⟩
    | none, .closed => (ended t.held t.framing).after (t.effects ++ [.asked])
    | none, .silent => Run.stuck.after (t.effects ++ [.asked])
  | a :: rest =>
    let t := turn held framing buffer
    match t.settled, a with
    | some outcome, _ => ⟨t.effects, some outcome⟩
    | none, .data bytes _ =>
      (relay t.held t.framing (t.buffer ++ bytes) ending rest).after (t.effects ++ [.asked])
    | none, .fault f =>
      (if f.isClose then ended t.held t.framing else Run.fail (.read f)).after
        (t.effects ++ [.asked])

end HttpRelay.Stream

namespace HttpRelay

def Request.stream (request : Request) (expected : UInt16) (peer : Peer) : Run Head := do
  let (head, buffer, incoming) ← request.exchangeHeads peer
  Run.log .debug .engine s!"{request.method} {request.target} -> {head.status} {head.reason}"
  if head.status ≠ expected then
    Run.fail (.unexpectedStatus head.status head.reason)
  else do
    let framing ← head.framing request.method
    Stream.relay [] framing buffer incoming.ending incoming.arrivals
    pure head

end HttpRelay
