namespace HttpRelay

inductive IoKind where
  | connectionReset
  | connectionAborted
  | connectionRefused
  | brokenPipe
  | unexpectedEof
  | timedOut
  | interrupted
  | wouldBlock
  | invalidData
  | writeZero
  | networkUnreachable
  | other
deriving DecidableEq, Repr

structure IoFault where
  kind : IoKind
  text : String
deriving DecidableEq, Repr

inductive Failure where
  | invalidProxy (url reason : String)
  | invalidRequest (reason : String)
  | resolution (host reason : String)
  | connect (target : String) (fault : IoFault)
  | connectTimeout (target : String) (seconds : UInt64)
  | proxyHandshake (proxy reason : String)
  | proxyTunnel (target : String) (status : UInt16) (reason : String)
  | invalidServerName (host : String)
  | tlsConfig (reason : String)
  | tlsHandshake (host : String) (fault : IoFault)
  | write (fault : IoFault)
  | unexpectedClose
  | unexpectedStatus (status : UInt16) (reason : String)
  | read (fault : IoFault)
  | malformedResponse (reason : String)
  | chunkDecode (reason : String)
  | decompression (encoding reason : String)
  | worker (reason : String)
deriving DecidableEq, Repr

inductive Category where
  | resolution
  | connect
  | proxyTunnel
  | tlsHandshake
  | write
  | unexpectedClose
  | unexpectedStatus
  | read
  | chunkDecode
  | decompression
  | configuration
  | worker
deriving DecidableEq, Repr

inductive Outcome where
  | ok
  | closed
  | hasError
  | unexpectedStatus
deriving DecidableEq, Repr

namespace Category

def all : List Category :=
  [.resolution, .connect, .proxyTunnel, .tlsHandshake, .write, .unexpectedClose,
    .unexpectedStatus, .read, .chunkDecode, .decompression, .configuration, .worker]

def label : Category → String
  | resolution => "DNS resolution error"
  | connect => "Connect error"
  | proxyTunnel => "Proxy tunnel error"
  | tlsHandshake => "TLS handshake error"
  | write => "Request write error"
  | unexpectedClose => "Unexpected close"
  | unexpectedStatus => "Unexpected status code"
  | read => "Response read error"
  | chunkDecode => "Chunk decode error"
  | decompression => "Body decompression error"
  | configuration => "Configuration error"
  | worker => "Worker error"

end Category

namespace Outcome

def name : Outcome → String
  | ok => "Ok"
  | closed => "Closed"
  | hasError => "HasError"
  | unexpectedStatus => "UnexpectedStatusCode"

end Outcome

namespace Failure

def message : Failure → String
  | invalidProxy url reason => s!"invalid proxy url '{url}': {reason}"
  | invalidRequest reason => s!"invalid request: {reason}"
  | resolution host reason => s!"failed to resolve {host}: {reason}"
  | connect target fault => s!"failed to connect to {target}: {fault.text}"
  | connectTimeout target seconds => s!"connect to {target} timed out after {seconds}s"
  | proxyHandshake proxy reason => s!"proxy handshake with {proxy} failed: {reason}"
  | proxyTunnel target status reason => s!"proxy refused tunnel to {target}: {status}({reason})"
  | invalidServerName host => s!"invalid TLS server name '{host}'"
  | tlsConfig reason => s!"TLS configuration error: unexpected error: {reason}"
  | tlsHandshake host fault => s!"TLS handshake with {host} failed: {fault.text}"
  | write fault => s!"failed to write request: {fault.text}"
  | unexpectedClose => "connection closed before a response was received"
  | unexpectedStatus status reason => s!"return unexpected http status code: {status}({reason})"
  | read fault => s!"failed to read response: {fault.text}"
  | malformedResponse reason => s!"malformed response: {reason}"
  | chunkDecode reason => s!"chunk decode error: {reason}"
  | decompression encoding reason => s!"failed to decompress {encoding} body: {reason}"
  | worker reason => s!"worker error: {reason}"

def fault? : Failure → Option IoFault
  | connect _ fault | tlsHandshake _ fault | write fault | read fault => some fault
  | _ => none

def category : Failure → Category
  | invalidProxy .. | invalidRequest _ => .configuration
  | resolution .. => .resolution
  | connect .. | connectTimeout .. => .connect
  | proxyHandshake .. | proxyTunnel .. => .proxyTunnel
  | invalidServerName _ | tlsConfig _ | tlsHandshake .. => .tlsHandshake
  | write _ => .write
  | unexpectedClose => .unexpectedClose
  | unexpectedStatus .. => .unexpectedStatus
  | read _ | malformedResponse _ => .read
  | chunkDecode _ => .chunkDecode
  | decompression .. => .decompression
  | worker _ => .worker

def outcome : Failure → Outcome
  | unexpectedClose => .closed
  | unexpectedStatus .. => .unexpectedStatus
  | _ => .hasError

def isRetryable : Failure → Bool
  | unexpectedClose => true
  | _ => false

end Failure

def Outcome.of {α : Type} : Except Failure α → Outcome
  | .ok _ => .ok
  | .error e => e.outcome

inductive SettingFault where
  | invalidValue (field reason : String)
  | invalidUrl (text : String)
  | invalidHeader (text : String)
deriving DecidableEq, Repr

def SettingFault.message : SettingFault → String
  | invalidValue field reason => s!"invalid value for {field}: {reason}"
  | invalidUrl text => s!"invalid target url: {text}"
  | invalidHeader text => s!"invalid header '{text}', expected 'Name: value'"

inductive StartupFault where
  | logger
  | connector (failure : Failure)
  | setting (fault : SettingFault)
deriving DecidableEq, Repr

def loggerInUse : String :=
  "attempted to set a logger after the logging system was already initialized"

def StartupFault.message : StartupFault → String
  | logger => s!"Logger initialization error: {loggerInUse}"
  | connector failure => s!"Connector initialization error: {failure.message}"
  | setting fault => s!"Configuration error: {fault.message}"

end HttpRelay
