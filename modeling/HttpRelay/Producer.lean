import HttpRelay.Pool
import HttpRelay.Relay.Feed

/-!
Blocking producers: they fill a relay channel without ever waiting for room, and may fail or
break down.
-/

namespace HttpRelay

open Relay

inductive Producer.Action where
  | offer (text : String)
  | ask
  | close
  | awaitClose
deriving DecidableEq, Repr

inductive Producer.Ending where
  | success
  | failure (message : String)
  | panic
deriving DecidableEq, Repr

structure Producer where
  actions : List Producer.Action
  ending : Producer.Ending
deriving DecidableEq, Repr

namespace Producer

def Action.act : Action → Act
  | offer text => .offer text
  | ask => .ask
  | close => .close
  | awaitClose => .awaitClose

def message? (p : Producer) : Option String :=
  match p.ending with
  | .success => none
  | .failure message => some message
  | .panic => some Pool.panicked.message

def failureActs (message : String) : List Act :=
  Feed.failureActs .worker s!"Blocking producer failed: {message}" message

/-- A producer's stream; a consumer that goes away does not stop the producer. -/
def feed (p : Producer) (capacity : Capacity) : Feed :=
  { channel := .new capacity
    work := p.actions.map Action.act
    conclusion := (p.message?.map failureActs).getD [] ++ [.finish]
    cancellation := none
    effects := []
    replies := [] }

end Producer

end HttpRelay
