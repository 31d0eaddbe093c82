import HttpRelay.Exchange.Opening
import HttpRelay.Http.ContentCoding
import HttpRelay.Http.Snapshot

namespace HttpRelay

structure Connection where
  peer : Peer
  tunnelHead : Option Head
deriving DecidableEq, Repr

namespace Fetch

def tooLarge (limit : UInt64) : Failure := .malformedResponse s!"body exceeds {limit} bytes"

/-- What has come of a body: its segments, the last one first, and how many bytes they are. -/
structure Collected where
  segments : List Bytes
  size : Nat

namespace Collected

def empty : Collected := ⟨[], 0⟩

def add (c : Collected) (segment : Bytes) : Collected :=
  ⟨segment :: c.segments, c.size + segment.length⟩

def bytes (c : Collected) : Bytes := c.segments.reverse.flatten

end Collected

structure Turn where
  settled : Option (Except Failure Unit)
  body : Collected
  framing : Framing
  buffer : Bytes

def turn (limit : UInt64) (body : Collected) (framing : Framing) (buffer : Bytes) : Turn :=
  match _h : framing.decode buffer with
  | ⟨.error failure, framing, buffer⟩ => ⟨some (.error failure), body, framing, buffer⟩
  | ⟨.ok none, framing, buffer⟩ => ⟨none, body, framing, buffer⟩
  | ⟨.ok (some (.data segment)), framing, buffer⟩ =>
    if limit.toNat < body.size + segment.length then
      ⟨some (.error (tooLarge limit)), body, framing, buffer⟩
    else turn limit (body.add segment) framing buffer
  | ⟨.ok (some .done), framing, buffer⟩ => ⟨some (.ok ()), body, framing, buffer⟩
  | ⟨.ok (some (.chunkStart _)), framing, buffer⟩ => turn limit body framing buffer
  | ⟨.ok (some .chunkEnd), framing, buffer⟩ => turn limit body framing buffer
termination_by framing.weight buffer
decreasing_by
  all_goals exact Framing.weight_lt_of_event _h (by simp)

def ended (body : Collected) (framing : Framing) : Except Failure Bytes :=
  framing.finish.map fun _ => body.bytes

def gather (limit : UInt64) (body : Collected) (framing : Framing) (buffer : Bytes)
    (ending : Ending) : List Arrival → Run Bytes
  | [] =>
    let t := turn limit body framing buffer
    match t.settled with
    | some outcome => ⟨[], some (outcome.map fun _ => t.body.bytes)⟩
    | none => ⟨[.asked], ending.outcome (ended t.body t.framing)⟩
  | a :: rest =>
    let t := turn limit body framing buffer
    match t.settled, a with
    | some outcome, _ => ⟨[], some (outcome.map fun _ => t.body.bytes)⟩
    | none, .data bytes _ =>
      (gather limit t.body t.framing (t.buffer ++ bytes) ending rest).after [.asked]
    | none, .fault f =>
      ⟨[.asked], some (if f.isClose then ended t.body t.framing else .error (.read f))⟩

end Fetch

def Request.fetch (request : Request) (limit : UInt64) (connection : Connection) :
    Run Snapshot := do
  let (head, buffer, incoming) ← request.exchangeHeads connection.peer
  let framing ← head.framing request.method
  let body ← Fetch.gather limit .empty framing buffer incoming.ending incoming.arrivals
  let text ← Run.ofExcept (ContentCoding.decode limit body head.contentEncoding)
  pure ⟨head.status, (connection.tunnelHead.toList ++ [head]).map HeaderBlocks.group, text⟩

end HttpRelay
