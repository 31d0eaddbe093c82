import HttpRelay.Exchange.Fetch
import HttpRelay.Exchange.Tunnel

/-!
Connections for an exchange, and the rule that an exchange may be repeated once, on a new
connection, when the peer closed before it answered.
-/

namespace HttpRelay

inductive Link where
  | refused (failure : Failure)
  | reached (peer : Peer)
deriving DecidableEq, Repr

def Link.connect (link : Link) (target : Endpoint) (proxy : Option Proxy) : Run Connection := do
  Run.act (.connecting target (proxy.map Proxy.endpoint))
  match link, proxy with
  | .refused failure, _ => Run.fail failure
  | .reached peer, none => pure ⟨peer, none⟩
  | .reached peer, some proxy => do
    let (head, peer) ← proxy.negotiate target peer
    pure ⟨peer, some head⟩

namespace Reconnect

variable {α : Type}

def attempt (op : Attempt → Connection → Run α) (a : Attempt) (c : Connection) : Run α := do
  Run.act (.attempting a c.tunnelHead.isSome)
  op a c

def orElse (first again : Run α) : Run α :=
  match first.outcome with
  | some (.error e) => if e.isRetryable then again.after first.effects else first
  | _ => first

def warning (target : Endpoint) : Run Unit :=
  Run.log .warn .connector
    s!"{target.authority} closed the connection before responding, reconnecting once"

end Reconnect

/-- Runs an operation on a new connection, and once more on another one if the first was closed
before the peer answered. A connection that cannot be made is not tried again. -/
def withReconnect {α : Type} (target : Endpoint) (connect : Attempt → Run Connection)
    (op : Attempt → Connection → Run α) : Run α := do
  let connection ← connect .initial
  Reconnect.orElse (Reconnect.attempt op .initial connection) do
    Reconnect.warning target
    let connection ← connect .reconnect
    Reconnect.attempt op .reconnect connection

end HttpRelay
