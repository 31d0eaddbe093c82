import HttpRelay.Exchange.Reconnect
import HttpRelay.Exchange.Stream

/-!
Exchanges as callers ask for them. Everything that can be refused without a connection is
checked before the first one is made.
-/

namespace HttpRelay

abbrev Connector := Attempt → Endpoint → Option Proxy → Run Connection

structure Exchange where
  target : Endpoint
  proxyUrl : Option String
  request : Request
deriving DecidableEq, Repr

namespace Exchange

def proxy (x : Exchange) : Except Failure (Option Proxy) :=
  match x.proxyUrl with
  | none => .ok none
  | some url => (Proxy.parse url).map some

def fullRequest (x : Exchange) : Request := x.request.withDefaultHost x.target

def prepare (x : Exchange) : Except Failure (Option Proxy) := do
  let proxy ← x.proxy
  x.target.validate
  x.fullRequest.validate
  pure proxy

def run {α : Type} (x : Exchange) (connector : Connector) (op : Connection → Run α) : Run α := do
  let proxy ← Run.ofExcept x.prepare
  withReconnect x.target (fun attempt => connector attempt x.target proxy) fun _ c => op c

def failureNote (x : Exchange) (e : Failure) : String :=
  s!"Fetch from {x.target.authority} failed ({e.category.label}): {e.message}"

def fetch (x : Exchange) (connector : Connector) : Run Snapshot :=
  (x.run connector (x.fullRequest.fetch ContentCoding.maxBody)).onFailure fun e =>
    [.counted e.category, .logged ⟨.warn, .client, x.failureNote e⟩]

def stream (x : Exchange) (connector : Connector) (expected : UInt16) : Run Head :=
  x.run connector fun c => x.fullRequest.stream expected c.peer

end Exchange

end HttpRelay
