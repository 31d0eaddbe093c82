import HttpRelay.Exchange.Tunnel
import HttpRelay.Exchange.Fetch
import HttpRelay.Tls

/-!
Reaching hosts without a name service and without a network: which hosts can be told to be out
of reach. A dial that would need either one has no outcome.
-/

namespace HttpRelay.Dial

def isMalformedName (cs : List Char) : Bool := [] ∈ Tls.labels cs

def resolve (host : String) : Run (List Address) :=
  match Address.parse? host with
  | some a => pure [a]
  | none =>
    if isMalformedName host.toList then
      Run.fail (.resolution host "proto error: Malformed label: ")
    else Run.stuck

def isShared : Address → Bool
  | .v4 octets => octets == [255, 255, 255, 255] || (octets.head?.map (· / 16) == some 14)
  | .v6 groups => groups.head?.map (· / 256) == some 0xff

def unreachable : IoFault := ⟨.networkUnreachable, "Network is unreachable (os error 101)"⟩

def refusal? (a : Address) : Option IoFault := if isShared a then some unreachable else none

/-- Tries addresses in turn; `last` is the fault of the one before. -/
def connectAny (e : Endpoint) (last : IoFault) : List Address → Run Peer
  | [] => Run.fail (.connect e.authority last)
  | a :: rest =>
    match refusal? a with
    | none => Run.stuck
    | some fault => do
      let place : Endpoint := ⟨a.text, e.port⟩
      Run.log .debug .tunnel s!"Connect to {place.authority} failed: {fault.text}"
      connectAny e fault rest

def noAddress : IoFault := ⟨.other, "no address to connect to"⟩

def connect (e : Endpoint) : Run Peer := do
  let addresses ← resolve e.host
  connectAny e noAddress addresses

def secure (target : Endpoint) (proxy : Option Proxy) : Run Connection := do
  Run.act (.connecting target (proxy.map Proxy.endpoint))
  match proxy with
  | none => do
    let peer ← connect target
    Tls.establish target.host peer.incoming
  | some proxy => do
    Run.log .debug .connector
      s!"Connecting to proxy {proxy.endpoint.authority} for {target.authority}"
    let peer ← connect proxy.endpoint
    let (_, peer) ← proxy.negotiate target peer
    Tls.establish target.host peer.incoming

end HttpRelay.Dial
