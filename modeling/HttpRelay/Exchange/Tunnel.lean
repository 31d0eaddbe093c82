import HttpRelay.Exchange.NextHead
import HttpRelay.Exchange.Opening
import HttpRelay.Net.Proxy

namespace HttpRelay.Proxy

def connectRequest (proxy : Proxy) (target : Endpoint) : Except Failure String := do
  target.validate
  let authority := target.authority
  let credentials := match proxy.basicAuth with
    | some value => s!"Proxy-Authorization: {value}\r\n"
    | none => ""
  pure s!"CONNECT {authority} HTTP/1.1\r\nHost: {authority}\r\n{credentials}\r\n"

def handshake (proxy : Proxy) (reason : String) : Failure :=
  .proxyHandshake proxy.endpoint.authority reason

def answerFailure (proxy : Proxy) : Failure → Failure
  | .unexpectedClose => proxy.handshake "proxy closed the connection"
  | e => proxy.handshake e.message

def judge (proxy : Proxy) (target : Endpoint) (head : Head) (buffer : Bytes) :
    Except Failure Head :=
  if head.status ≠ 200 then
    .error (.proxyTunnel target.authority head.status head.reason)
  else if buffer.isEmpty then .ok head
  else .error (proxy.handshake s!"{buffer.length} unexpected bytes after the CONNECT response")

def negotiate (proxy : Proxy) (target : Endpoint) (peer : Peer) : Run (Head × Peer) := do
  let request ← Run.ofExcept (proxy.connectRequest target)
  let outgoing ← peer.outgoing.send (Utf8.encode request) fun f => proxy.handshake f.text
  let (head, buffer, incoming) ← (nextHead [] peer.incoming).run.mapFailure proxy.answerFailure
  let head ← Run.ofExcept (proxy.judge target head buffer)
  Run.log .info .tunnel
    s!"Tunnel to {target.authority} established through {proxy.endpoint.authority}"
  pure (head, ⟨incoming, outgoing⟩)

end HttpRelay.Proxy
