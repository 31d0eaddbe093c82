import HttpRelay.Text.Percent
import HttpRelay.Net.Address
import HttpRelay.Idna.Domain

namespace HttpRelay.Url

inductive ParseError where
  | relative
  | emptyHost
  | badPort
  | badAddress4
  | badAddress6
  | badDomain
  | badHostCharacter
deriving DecidableEq, Repr

def ParseError.message : ParseError → String
  | .relative => "relative URL without a base"
  | .emptyHost => "empty host"
  | .badPort => "invalid port number"
  | .badAddress4 => "invalid IPv4 address"
  | .badAddress6 => "invalid IPv6 address"
  | .badDomain => "invalid international domain name"
  | .badHostCharacter => "invalid domain character"

def refusedInDomain (c : Char) : Bool :=
  c.val ≤ 0x20 || c.val == 0x7f || "%#/:<>?@[\\]^|".toList.contains c

def refusedInHost (c : Char) : Bool :=
  "\x00\t\n\r #/:<>?@[\\]^|".toList.contains c

/-- A number as part of an address: decimal, octal behind `0`, hexadecimal behind `0x`. -/
def number? (cs : List Char) : Option Nat :=
  let digits (base : Nat) (ds : List Char) : Option Nat :=
    ds.foldl (fun n c => n.bind fun v =>
      ((Address.hexValue? c).filter (· < base)).map (base * v + ·)) (some 0)
  match cs with
  | [] => none
  | '0' :: 'x' :: ds | '0' :: 'X' :: ds => digits 16 ds
  | '0' :: d :: ds => digits 8 (d :: ds)
  | ds => digits 10 ds

/-- The last label decides whether a domain name is read as an address. -/
def endsInNumber (cs : List Char) : Bool :=
  let labels := Text.splitAll '.' cs
  let last := match labels.reverse with
    | [] :: label :: _ => label
    | label :: _ => label
    | [] => []
  (!last.isEmpty && last.all fun c => '0' ≤ c && c ≤ '9') || (number? last).isSome

def address4 (cs : List Char) : Except ParseError (List Nat) := do
  let labels := Text.splitAll '.' cs
  let labels := if labels.getLastD [] = [] then labels.dropLast else labels
  if 4 < labels.length then throw .badAddress4
  match labels.mapM number? with
  | none => throw .badAddress4
  | some numbers =>
    let front := numbers.dropLast
    let last := numbers.getLastD 0
    let free := 4 - front.length
    if front.any (255 < ·) || Nat.pow 256 free ≤ last then throw .badAddress4
    else pure (front ++ ((List.range free).map fun k => last / Nat.pow 256 (free - 1 - k) % 256))

def bracketed (cs : List Char) : Except ParseError (List Char) :=
  match cs.getLast? with
  | some ']' =>
    match Address.sixGroups? cs.dropLast with
    | some groups => .ok ('[' :: Address.groupsText groups ++ [']'])
    | none => .error .badAddress6
  | _ => .error .badAddress6

def specialHost (cs : List Char) : Except ParseError (List Char) :=
  match cs with
  | '[' :: rest => bracketed rest
  | _ =>
    match Utf8.strict (Percent.decode (Utf8.encode (String.ofList cs))) with
    | .error _ => .error .badDomain
    | .ok text =>
      match Idna.toAscii text.toList with
      | none => .error .badDomain
      | some name =>
        if name.any refusedInDomain then .error .badDomain
        else if name.isEmpty then .error .emptyHost
        else if endsInNumber name then
          (address4 name).map fun octets => (Address.v4 octets).chars
        else .ok name

def plainHost (cs : List Char) : Except ParseError (List Char) :=
  match cs with
  | '[' :: rest => bracketed rest
  | _ =>
    if cs.any refusedInHost then .error .badHostCharacter
    else .ok (Percent.encode (fun c => c.val < 0x20 || c.val == 0x7f) cs)

end HttpRelay.Url
