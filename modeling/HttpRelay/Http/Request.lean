import HttpRelay.Http.Fields
import HttpRelay.Net.Endpoint
import HttpRelay.Text.Utf8

namespace HttpRelay

structure Request where
  method : String
  target : String
  headers : Fields
  body : Bytes
deriving DecidableEq, Repr

namespace Request

def new (method target : String) : Request :=
  ⟨method, if target.isEmpty then "/" else target, [], []⟩

def get (target : String) : Request := new "GET" target

def post (target : String) (body : Bytes) : Request := { new "POST" target with body := body }

def addHeader (r : Request) (name value : String) : Request :=
  { r with headers := r.headers ++ [(name, value)] }

def withBody (r : Request) (body : Bytes) : Request := { r with body := body }

def header? (r : Request) (name : String) : Option String := r.headers.first? name

def hostValue (e : Endpoint) : String :=
  if e.port = 443 then String.ofList (e.authorityChars.dropLast.dropLast.dropLast.dropLast)
  else e.authority

/-- Names the endpoint as host, in front of the other headers, unless a host is named already. -/
def withDefaultHost (r : Request) (e : Endpoint) : Request :=
  if r.headers.has "Host" then r else { r with headers := ("Host", hostValue e) :: r.headers }

def isWord (s : String) : Bool := s.toList.all Text.isVisible

def isName (s : String) : Bool := !s.isEmpty && isWord s && !s.toList.contains ':'

def isValue (s : String) : Bool := s.toList.all fun c => c ≠ '\r' && c ≠ '\n' && c ≠ '\x00'

def refused (what raw : String) : Failure :=
  .invalidRequest s!"{what} {Text.quoted raw} contains a forbidden character"

def validateFields : Fields → Except Failure Unit
  | [] => .ok ()
  | (name, value) :: rest =>
    if !isName name then .error (refused "header name" name)
    else if !isValue value then .error (refused s!"value of header {name}" value)
    else validateFields rest

def validate (r : Request) : Except Failure Unit :=
  if r.method.isEmpty || !isWord r.method then .error (refused "method" r.method)
  else if !isWord r.target then .error (refused "target" r.target)
  else validateFields r.headers

def announced (r : Request) : Fields :=
  if r.body.isEmpty || r.headers.has "Content-Length" || r.headers.has "Transfer-Encoding" then
    r.headers
  else r.headers ++ [("Content-Length", toString r.body.length)]

def lineEnd : List Char := ['\r', '\n']

def fieldChars (f : String × String) : List Char :=
  f.1.toList ++ ':' :: ' ' :: f.2.toList ++ lineEnd

def headChars (r : Request) : List Char :=
  r.method.toList ++ ' ' :: r.target.toList ++ " HTTP/1.1".toList ++ lineEnd ++
    (r.announced.flatMap fieldChars) ++ lineEnd

def encode (r : Request) : Except Failure Bytes := do
  r.validate
  pure (r.headChars.flatMap String.utf8EncodeChar ++ r.body)

end Request

end HttpRelay
