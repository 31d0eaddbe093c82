import HttpRelay.Failure
import HttpRelay.Text.Blank
import HttpRelay.Text.Numeral
import HttpRelay.Text.Quoted

namespace HttpRelay

structure Endpoint where
  host : String
  port : UInt16
deriving DecidableEq, Repr

namespace Endpoint

inductive HostFault where
  | missing
  | forbidden
deriving DecidableEq, Repr

def HostFault.message : HostFault → String
  | missing => "missing host"
  | forbidden => "contains a control or whitespace character"

def hostFault? (host : List Char) : Option HostFault :=
  if host.isEmpty then some .missing
  else if host.all Text.isVisible then none
  else some .forbidden

def validate (e : Endpoint) : Except Failure Unit :=
  match hostFault? e.host.toList with
  | some fault =>
    .error (.invalidRequest s!"target host {Text.quoted e.host} {fault.message}")
  | none => .ok ()

def authorityChars (e : Endpoint) : List Char :=
  let host := e.host.toList
  (if ':' ∈ host then '[' :: host ++ [']'] else host) ++ ':' :: Nat.toDigits 10 e.port.toNat

def authority (e : Endpoint) : String := String.ofList e.authorityChars

def unbracket : List Char → List Char
  | '[' :: rest => if rest.getLast? = some ']' then rest.dropLast else '[' :: rest
  | cs => cs

def parse (s : String) : Except SettingFault Endpoint :=
  let invalid (reason : String) := SettingFault.invalidValue "endpoint" s!"'{s}': {reason}"
  match Text.splitLast ':' s.toList with
  | none => .error (invalid "missing port")
  | some (front, back) =>
    let host := unbracket front
    match hostFault? host with
    | some fault => .error (invalid fault.message)
    | none =>
      match Text.unsigned? UInt16.size back with
      | none => .error (invalid "invalid port")
      | some port => .ok ⟨String.ofList host, port.toUInt16⟩

end Endpoint

end HttpRelay
