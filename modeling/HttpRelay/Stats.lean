import HttpRelay.Exchange.Run

/-!
Statistics: how often exchanges have failed, by category, and how often one was repeated. The
counters start again from zero behind their largest value.
-/

namespace HttpRelay

structure Stats where
  count : Category → UInt64
  reconnects : UInt64

namespace Stats

def empty : Stats := ⟨fun _ => 0, 0⟩

def increment (s : Stats) (c : Category) : Stats :=
  { s with count := fun d => if d = c then s.count d + 1 else s.count d }

def reconnected (s : Stats) : Stats := { s with reconnects := s.reconnects + 1 }

def total (s : Stats) : UInt64 := (Category.all.map s.count).foldr (· + ·) 0

def summary (s : Stats) : List (Category × UInt64) :=
  (Category.all.map fun c => (c, s.count c)).filter (0 < ·.2)

def note (s : Stats) : Effect → Stats
  | .counted c => s.increment c
  | .attempting .reconnect _ => s.reconnected
  | _ => s

def noteAll (s : Stats) (es : List Effect) : Stats := es.foldl note s

end Stats

end HttpRelay
