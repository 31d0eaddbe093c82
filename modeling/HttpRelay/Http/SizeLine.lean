import HttpRelay.Wire.Scan

namespace HttpRelay.SizeLine

open Wire (Verdict Scan)

inductive Stage where
  | size (digits value : Nat)
  | blank (value : Nat)
  | extension (value : Nat)
  | lineReturn (value : Nat)
deriving DecidableEq, Repr

def maxDigits : Nat := 16

abbrev Step := Verdict Stage Nat Unit

def digit? (b : UInt8) : Option Nat :=
  if 0x30 ≤ b ∧ b ≤ 0x39 then some (b.toNat - 0x30)
  else if 0x61 ≤ b ∧ b ≤ 0x66 then some (b.toNat - 0x61 + 10)
  else if 0x41 ≤ b ∧ b ≤ 0x46 then some (b.toNat - 0x41 + 10)
  else none

def isBlank (b : UInt8) : Bool := b == 0x20 || b == 0x09

def tailStep (value : Nat) (b : UInt8) : Step :=
  if b = 0x0d then .next (.lineReturn value)
  else if b = 0x3b then .next (.extension value)
  else if isBlank b then .next (.blank value)
  else .refuse ()

def step : Stage → UInt8 → Step
  | .size digits value, b =>
    match digit? b with
    | some d =>
      if digits < maxDigits then .next (.size (digits + 1) (16 * value + d)) else .refuse ()
    | none => tailStep value b
  | .blank value, b => tailStep value b
  | .extension value, b => .next (if b = 0x0d then .lineReturn value else .extension value)
  | .lineReturn value, b => if b = 0x0a then .accept value else .refuse ()

def scan (buffer : Bytes) : Scan Stage Nat Unit := Wire.scan step (.size 0 0) buffer

end HttpRelay.SizeLine
