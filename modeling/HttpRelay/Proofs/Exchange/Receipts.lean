import HttpRelay.Exchange.Fetch
import HttpRelay.Exchange.Stream
import HttpRelay.Proofs.Text.Carry

/-!
What receiving a body comes to, for streams and fetches alike: its events, and the moments at
which more bytes are asked for, in order.
-/

namespace HttpRelay

inductive Signal where
  | event (e : BodyEvent)
  | asked
deriving DecidableEq, Repr

structure Receipt where
  signals : List Signal
  outcome : Option (Except Failure Unit)

namespace Receipt

def after (ss : List Signal) (r : Receipt) : Receipt := ⟨ss ++ r.signals, r.outcome⟩

def drainedSignals (d : Framing.Drained) : List Signal :=
  d.events.map .event ++ if d.stop = .hungry then [.asked] else []

def collect (framing : Framing) (buffer : Bytes) (ending : Ending) : List Arrival → Receipt
  | [] =>
    let d := framing.drain buffer
    match d.stop with
    | .complete => ⟨drainedSignals d, some (.ok ())⟩
    | .broken failure => ⟨drainedSignals d, some (.error failure)⟩
    | .hungry => ⟨drainedSignals d, ending.outcome d.framing.finish⟩
  | a :: rest =>
    let d := framing.drain buffer
    match d.stop, a with
    | .complete, _ => ⟨drainedSignals d, some (.ok ())⟩
    | .broken failure, _ => ⟨drainedSignals d, some (.error failure)⟩
    | .hungry, .data bytes _ =>
      (collect d.framing (d.buffer ++ bytes) ending rest).after (drainedSignals d)
    | .hungry, .fault f =>
      ⟨drainedSignals d, some (if f.isClose then d.framing.finish else .error (.read f))⟩

end Receipt

def Receipt.of (framing : Framing) (buffer : Bytes) (incoming : Incoming) : Receipt :=
  collect framing buffer incoming.ending incoming.arrivals

namespace Stream

def react (s : Utf8.Carry) : Signal → List Effect × Utf8.Carry
  | .asked => ([.asked], s)
  | .event (.chunkStart size) => ([note s!"Chunk of {size} bytes"], s)
  | .event (.data segment) =>
    (fragment (Utf8.nonempty (String.ofList (Utf8.run s segment).1)), (Utf8.run s segment).2)
  | .event .chunkEnd => ([note "Chunk complete"], s)
  | .event .done => ([], s)

def effects (s : Utf8.Carry) (outcome : Option (Except Failure Unit)) : List Signal → List Effect
  | [] =>
    match outcome with
    | some (.ok ()) => fragment (Utf8.nonempty (String.ofList (Utf8.flush s)))
    | _ => []
  | signal :: rest => (react s signal).1 ++ effects (react s signal).2 outcome rest

end Stream

def Receipt.relayed (receipt : Receipt) : Run Unit :=
  ⟨Stream.effects none receipt.outcome receipt.signals, receipt.outcome⟩

/-- Collects the data of a body; `kept` holds its segments in reverse, `size` bytes in all. -/
def Fetch.collect (limit : UInt64) (outcome : Option (Except Failure Unit)) (kept : List Bytes)
    (size : Nat) : List Signal → Run Bytes
  | [] => ⟨[], outcome.map (·.map fun _ => kept.reverse.flatten)⟩
  | .asked :: rest => (collect limit outcome kept size rest).after [.asked]
  | .event (.data segment) :: rest =>
    if limit.toNat < size + segment.length then Run.fail (tooLarge limit)
    else collect limit outcome (segment :: kept) (size + segment.length) rest
  | .event _ :: rest => collect limit outcome kept size rest

def Receipt.gathered (limit : UInt64) (receipt : Receipt) : Run Bytes :=
  Fetch.collect limit receipt.outcome [] 0 receipt.signals

end HttpRelay
