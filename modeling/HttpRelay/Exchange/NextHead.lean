import HttpRelay.Exchange.Run
import HttpRelay.Http.HeadReader
import HttpRelay.Wire.Peer

/-!
Finding the next final head on a connection. Interim heads in front of it are skipped, and the
bytes behind it stay in the buffer.
-/

namespace HttpRelay

def maxHead : Nat := 65536

/-- What a buffer alone says: the interim heads in it, the outcome where it decides one, and the
bytes that are left. -/
structure HeadSearch.Look where
  interim : List UInt16
  settled : Option (Except Failure Head)
  buffer : Bytes

structure HeadSearch where
  effects : List Effect
  outcome : Option (Except Failure Head)
  buffer : Bytes
  incoming : Incoming

namespace HeadSearch

def badHead (fault : HeadReader.Fault) : Failure :=
  .malformedResponse s!"invalid response head: {fault.message}"

def headTooLong : Failure := .malformedResponse s!"response head exceeds {maxHead} bytes"

/-- A close is harmless to retry only when nothing at all has arrived. -/
def closedEarly (received : Bool) : Failure :=
  if received then .malformedResponse "connection closed in the middle of the response head"
  else .unexpectedClose

def look (buffer : Bytes) : Look :=
  match _h : HeadReader.scan buffer with
  | .more _ => ⟨[], if maxHead < buffer.length then some (.error headTooLong) else none, buffer⟩
  | .bad fault => ⟨[], some (.error (badHead fault)), buffer⟩
  | .done head rest =>
    if head.isInterim then
      let l := look rest
      { l with interim := head.status :: l.interim }
    else ⟨[], some (.ok head), rest⟩
termination_by buffer.length
decreasing_by
  exact Wire.scan_rest_length (by assumption)

def skipped (status : UInt16) : Effect :=
  .logged ⟨.trace, .head, s!"Skipping interim response {status}"⟩

def Look.effects (l : Look) : List Effect := l.interim.map skipped

def after (es : List Effect) (s : HeadSearch) : HeadSearch :=
  { s with effects := es ++ s.effects }

def search (received : Bool) (buffer : Bytes) (ending : Ending) : List Arrival → HeadSearch
  | [] =>
    let l := look buffer
    match l.settled with
    | some outcome => ⟨l.effects, some outcome, l.buffer, ⟨[], ending⟩⟩
    | none =>
      ⟨l.effects ++ [.asked], ending.outcome (.error (closedEarly received)), l.buffer,
        ⟨[], ending⟩⟩
  | a :: rest =>
    let l := look buffer
    match l.settled, a with
    | some outcome, _ => ⟨l.effects, some outcome, l.buffer, ⟨a :: rest, ending⟩⟩
    | none, .data bytes _ =>
      (search true (l.buffer ++ bytes) ending rest).after (l.effects ++ [.asked])
    | none, .fault f =>
      ⟨l.effects ++ [.asked],
        some (.error (if f.isClose then closedEarly received else .read f)), l.buffer,
        ⟨rest, ending⟩⟩

end HeadSearch

def nextHead (buffer : Bytes) (incoming : Incoming) : HeadSearch :=
  HeadSearch.search (!buffer.isEmpty) buffer incoming.ending incoming.arrivals

def HeadSearch.run (s : HeadSearch) : Run (Head × Bytes × Incoming) :=
  ⟨s.effects, s.outcome.map (·.map fun head => (head, s.buffer, s.incoming))⟩

end HttpRelay
