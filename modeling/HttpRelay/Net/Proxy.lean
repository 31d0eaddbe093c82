import HttpRelay.Net.Endpoint
import HttpRelay.Text.Base64
import HttpRelay.Url.Parser

namespace HttpRelay

structure Credentials where
  user : String
  password : String
deriving DecidableEq, Repr

structure Proxy where
  scheme : String
  host : String
  port : UInt16
  credentials : Option Credentials
deriving DecidableEq, Repr

namespace Proxy

def stars : List Char := ['*', '*', '*']

/-- The URL without its password. Where no URL can be read, everything in front of the last at
sign is hidden. -/
def redact (raw : String) : String :=
  match Url.parse (Text.trim raw) with
  | .ok url => if url.password?.isSome then (url.withPassword stars).text else Text.trim raw
  | .error _ =>
    match Text.splitLast '@' raw.toList with
    | some (_, back) => String.ofList (stars ++ '@' :: back)
    | none => raw

def decodePart (cs : List Char) : Except String String :=
  match Utf8.strict (Percent.decode (Utf8.encode (String.ofList cs))) with
  | .ok text => .ok text
  | .error fault => .error s!"credentials are not valid UTF-8: {fault.message}"

def credentialsOf (url : Url) : Except String (Option Credentials) :=
  match url.user, url.password? with
  | [], none => .ok none
  | [], some _ | _, none => .error "credentials need both a username and a password"
  | user, some password => do
    let user ← decodePart user
    let password ← decodePart password
    pure (some ⟨user, password⟩)

def stripBrackets (cs : List Char) : List Char :=
  let cs := cs.dropWhile (· = '[')
  (cs.reverse.dropWhile (· = ']')).reverse

def ofUrl (url : Url) : Except String Proxy := do
  let scheme := String.ofList url.scheme
  if scheme ≠ "http" ∧ scheme ≠ "https" then throw s!"unsupported scheme '{scheme}'"
  let host ← (url.host?.map .ok).getD (.error "missing host")
  let port ← (url.port?.map .ok).getD (.error "missing port")
  let credentials ← credentialsOf url
  pure ⟨scheme, String.ofList (stripBrackets host), port.toUInt16, credentials⟩

def parse (raw : String) : Except Failure Proxy :=
  let proxy : Except String Proxy :=
    match Url.parse (Text.trim raw) with
    | .error e => .error e.message
    | .ok url => ofUrl url
  proxy.mapError (.invalidProxy (redact raw) ·)

def endpoint (p : Proxy) : Endpoint := ⟨p.host, p.port⟩

def basicAuth (p : Proxy) : Option String :=
  p.credentials.map fun c =>
    String.ofList ("Basic ".toList ++ Base64.encode (Utf8.encode (c.user ++ ":" ++ c.password)))

def optionText : Option String → String
  | some s => s!"Some({Text.quoted s})"
  | none => "None"

def describe (p : Proxy) : String :=
  "ProxyConfig \x7b scheme: " ++ Text.quoted p.scheme ++ ", host: " ++ Text.quoted p.host ++
    ", port: " ++ toString p.port ++
    ", username: " ++ optionText (p.credentials.map (·.user)) ++
    ", password: " ++ optionText (p.credentials.map fun _ => "***") ++ " \x7d"

end Proxy

end HttpRelay
