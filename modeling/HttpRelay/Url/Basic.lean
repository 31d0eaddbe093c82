import HttpRelay.Text.Numeral
import HttpRelay.Net.Address

namespace HttpRelay

/-- User, password, host and port; the host is empty where the scheme allows it. -/
structure Url.Authority where
  user : List Char
  password : Option (List Char)
  host : List Char
  port : Option Nat
deriving DecidableEq, Repr

structure Url where
  scheme : List Char
  authority : Option Url.Authority
  path : List Char
  query : Option (List Char)
  fragment : Option (List Char)
deriving DecidableEq, Repr

namespace Url

def defaultPort (scheme : List Char) : Option Nat :=
  match String.ofList scheme with
  | "http" | "ws" => some 80
  | "https" | "wss" => some 443
  | "ftp" => some 21
  | _ => none

def isFile (scheme : List Char) : Bool := scheme = "file".toList

def isSpecial (scheme : List Char) : Bool := (defaultPort scheme).isSome || isFile scheme

namespace Authority

def userText (a : Authority) : List Char :=
  match a.password with
  | some password => a.user ++ ':' :: password ++ ['@']
  | none => if a.user.isEmpty then [] else a.user ++ ['@']

def chars (a : Authority) : List Char :=
  userText a ++ a.host ++
    match a.port with
    | some port => ':' :: Address.decimalText port
    | none => []

end Authority

def hierarchy (u : Url) : List Char :=
  match u.authority with
  | some a => '/' :: '/' :: a.chars ++ u.path
  | none =>
    match u.path with
    | '/' :: '/' :: rest => '/' :: '.' :: '/' :: '/' :: rest
    | path => path

def suffixText (mark : Char) : Option (List Char) → List Char
  | some cs => mark :: cs
  | none => []

def chars (u : Url) : List Char :=
  u.scheme ++ ':' :: u.hierarchy ++ suffixText '?' u.query ++ suffixText '#' u.fragment

def text (u : Url) : String := String.ofList u.chars

def host? (u : Url) : Option (List Char) :=
  u.authority.bind fun a => if a.host.isEmpty then none else some a.host

def port? (u : Url) : Option Nat :=
  ((u.authority.bind (·.port))).orElse fun _ => defaultPort u.scheme

def user (u : Url) : List Char := (u.authority.map (·.user)).getD []

def password? (u : Url) : Option (List Char) := u.authority.bind (·.password)

def withPassword (u : Url) (password : List Char) : Url :=
  { u with authority := u.authority.map fun a => { a with password := some password } }

def requestTarget (u : Url) : List Char := u.path ++ suffixText '?' u.query

end Url

end HttpRelay
