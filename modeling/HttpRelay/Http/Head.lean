import HttpRelay.Failure
import HttpRelay.Http.Fields
import HttpRelay.Text.Numeral

namespace HttpRelay

structure Head where
  version : Nat
  status : UInt16
  reason : String
  headers : Fields
deriving DecidableEq, Repr

namespace Head

def new (status : UInt16) (reason : String) (headers : Fields) : Head :=
  ⟨1, status, reason, headers⟩

def header? (h : Head) (name : String) : Option String := h.headers.first? name

def transferCodings (h : Head) : List (List Char) :=
  (h.headers.values "Transfer-Encoding").flatMap fun v => Text.splitAll ',' v.toList

def isChunked (h : Head) : Bool :=
  match h.transferCodings.getLast? with
  | some coding => Text.lowerChars (Text.trimChars coding) == "chunked".toList
  | none => false

def lengthFrom (found : Option Nat) : List String → Except Failure (Option Nat)
  | [] => .ok found
  | v :: rest =>
    match Text.unsigned? UInt64.size (Text.trimChars v.toList) with
    | none => .error (.malformedResponse s!"invalid Content-Length '{v}'")
    | some n =>
      match found with
      | some m =>
        if m = n then lengthFrom (some n) rest
        else .error (.malformedResponse "conflicting Content-Length headers")
      | none => lengthFrom (some n) rest

def contentLength (h : Head) : Except Failure (Option Nat) :=
  lengthFrom none (h.headers.values "Content-Length")

def contentEncoding (h : Head) : Option String := h.header? "Content-Encoding"

def isInterim (h : Head) : Bool := 100 ≤ h.status && h.status < 200 && h.status != 101

end Head

end HttpRelay
