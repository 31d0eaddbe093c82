import HttpRelay.Exchange.Basic
import HttpRelay.Relay.Feed

/-!
Streams as feeds: what an exchange hands on goes into a relay channel, and a failure becomes the
last item. A consumer that closes the channel cancels the exchange.
-/

namespace HttpRelay

open Relay

namespace Exchange

def act : Effect → Act
  | .fragment text => .send (.fragment text)
  | e => .effect e

def conclusion (x : Exchange) (outcome : Except Failure Head) : List Act :=
  let name := x.target.authority
  let word := (Outcome.of outcome).name
  match outcome with
  | .ok _ => [.effect (.logged ⟨.debug, .client, s!"Stream from {name} complete ({word})"⟩)]
  | .error e =>
    Feed.failureActs e.category
      s!"Stream from {name} failed ({e.category.label}, {word}): {e.message}" e.message

def cancelled (x : Exchange) : Effect :=
  .logged ⟨.debug, .client,
    s!"Relay for {x.target.authority} closed by consumer, exchange cancelled"⟩

def feed (x : Exchange) (connector : Connector) (expected : UInt16) (capacity : Capacity) : Feed :=
  let r := x.stream connector expected
  { channel := .new capacity
    work := r.effects.map act ++ (if r.outcome.isNone then [.hang] else [])
    conclusion := (r.outcome.map x.conclusion).getD [] ++ [.finish]
    cancellation := some [x.cancelled]
    effects := []
    replies := [] }

end Exchange

end HttpRelay
