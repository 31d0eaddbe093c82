namespace HttpRelay.Text

def digitValue? (c : Char) : Option Nat :=
  if '0' ≤ c ∧ c ≤ '9' then some (c.toNat - '0'.toNat) else none

def digitsFrom (value : Nat) : List Char → Option Nat
  | [] => some value
  | c :: rest => (digitValue? c).bind fun d => digitsFrom (10 * value + d) rest

def dropPlus : List Char → List Char
  | '+' :: rest => rest
  | cs => cs

/-- Reads a number below `bound`: an optional plus sign and at least one digit. -/
def unsigned? (bound : Nat) (cs : List Char) : Option Nat :=
  match dropPlus cs with
  | [] => none
  | digits => (digitsFrom 0 digits).filter (· < bound)

end HttpRelay.Text
