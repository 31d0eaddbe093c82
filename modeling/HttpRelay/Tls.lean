import HttpRelay.Exchange.Run
import HttpRelay.Net.Address
import HttpRelay.Wire.Peer

/-!
Secure sessions: which names a server can be known by, what is accepted from it, and how a
handshake fails with a peer that never answers.
-/

namespace HttpRelay.Tls

inductive Mode where
  | insecure
  | webPki
deriving DecidableEq, Repr

def isLabelChar (c : Char) : Bool := c.isAlphanum || c == '-' || c == '_'

def isLabel (cs : List Char) : Bool :=
  !cs.isEmpty && cs.length ≤ 63 && cs.all isLabelChar && cs.head? != some '-' &&
    cs.getLast? != some '-'

def labels (cs : List Char) : List (List Char) :=
  let pieces := Text.splitAll '.' cs
  if 1 < pieces.length && pieces.getLast? == some [] then pieces.dropLast else pieces

/-- A domain name. Its last label is no number, so that no address passes for a name. -/
def isDomainName (cs : List Char) : Bool :=
  cs.length ≤ 253 && (labels cs).all isLabel &&
    !((labels cs).getLast?.getD []).all Char.isDigit

def isServerName (host : String) : Bool :=
  isDomainName host.toList || (Address.parse? host).isSome

def signatureSchemes : List String :=
  ["ECDSA_NISTP256_SHA256", "ECDSA_NISTP384_SHA384", "ED25519", "RSA_PKCS1_SHA256",
    "RSA_PKCS1_SHA384", "RSA_PKCS1_SHA512", "RSA_PSS_SHA256", "RSA_PSS_SHA384",
    "RSA_PSS_SHA512"]

def brokenOff : IoFault := ⟨.unexpectedEof, "tls handshake eof"⟩

def handshakeFault (ending : Ending) : List Arrival → Option IoFault
  | [] => ending.outcome brokenOff
  | .data .. :: rest => handshakeFault ending rest
  | .fault f :: _ => some (if f.isClose then brokenOff else f)

def establish {α : Type} (host : String) (incoming : Incoming) : Run α :=
  if isServerName host then
    ⟨[], (handshakeFault incoming.ending incoming.arrivals).map (.error <| .tlsHandshake host ·)⟩
  else Run.fail (.invalidServerName host)

end HttpRelay.Tls
