import HttpRelay.Text.Blank
import HttpRelay.Idna.Mapping
import HttpRelay.Idna.Composition
import HttpRelay.Idna.DirectionTable
import HttpRelay.Idna.Punycode

/-!
The ASCII form of an international domain name. Characters are mapped and composed, each label
is checked, and a label with characters outside ASCII is written in Punycode behind `xn--`.
-/

namespace HttpRelay.Idna

open Text (CodeRanges)

def mapped : List Char → Option (List Char)
  | [] => some []
  | c :: rest => do
    let tail ← mapped rest
    match fate c with
    | .keep => some (c :: tail)
    | .replace cs => some (cs ++ tail)
    | .drop => some tail
    | .refuse => none

def keeps (c : Char) : Bool :=
  match fate c with
  | .keep => true
  | _ => false

def isAscii (cs : List Char) : Bool := cs.all (·.toNat < 0x80)

def encodedMark : List Char := "xn--".toList

inductive Direction where
  | left
  | right
  | arabicDigit
  | europeanDigit
  | neutral
  | mark
deriving DecidableEq, Repr

def rightRanges : CodeRanges := .ofText rightToLeftText
def arabicDigitRanges : CodeRanges := .ofText arabicDigitText
def europeanDigitRanges : CodeRanges := .ofText europeanDigitText
def neutralRanges : CodeRanges := .ofText neutralText
def nonspacingRanges : CodeRanges := .ofText nonspacingText

def direction (c : Char) : Direction :=
  let n := c.toNat
  if rightRanges.contains n then .right
  else if arabicDigitRanges.contains n then .arabicDigit
  else if europeanDigitRanges.contains n then .europeanDigit
  else if nonspacingRanges.contains n then .mark
  else if neutralRanges.contains n then .neutral
  else .left

def turnsDirection (c : Char) : Bool :=
  match direction c with
  | .right | .arabicDigit => true
  | _ => false

def directionOk (label : List Char) : Bool :=
  let ds := label.map direction
  match ds with
  | [] => true
  | d :: _ =>
    let last := (ds.reverse.dropWhile (· = .mark)).headD .mark
    if d = .right then
      ds.all (· ≠ .left) && (last = .right || last = .arabicDigit || last = .europeanDigit) &&
        !(ds.contains .arabicDigit && ds.contains .europeanDigit)
    else if d = .left then
      ds.all (fun x => x ≠ .right && x ≠ .arabicDigit) && (last = .left || last = .europeanDigit)
    else false

def isJoiner (c : Char) : Bool := c.toNat = 0x200c || c.toNat = 0x200d

/-- A joiner may only stand behind a character that suppresses a vowel. -/
def joinersOk : List Char → Bool
  | [] => true
  | [c] => !isJoiner c
  | a :: b :: rest => (!isJoiner b || combiningClass a.toNat = 9) && joinersOk (b :: rest)

def startOk : List Char → Bool
  | [] => true
  | c :: _ => !isMark c && !isJoiner c

def labelOk (label : List Char) : Bool :=
  label.all keeps && startOk label && joinersOk label

/-- The readable form of a label: an encoded one must decode to a label that is not plain ASCII
and that mapping and composition leave alone. -/
def readable (label : List Char) : Option (List Char) :=
  if encodedMark.isPrefixOf label then do
    let cs ← Punycode.decode (label.drop 4)
    if !isAscii cs && composed cs = cs && labelOk cs then some cs else none
  else if isAscii label then some label
  else if labelOk label then some label
  else none

def written (label : List Char) : List Char :=
  if isAscii label then label else encodedMark ++ Punycode.encode label

def joinLabels : List (List Char) → List Char
  | [] => []
  | [label] => label
  | label :: rest => label ++ '.' :: joinLabels rest

def toAscii (cs : List Char) : Option (List Char) := do
  let cs ← mapped cs
  let labels ← (Text.splitAll '.' (composed cs)).mapM readable
  if labels.any (·.any turnsDirection) && !labels.all directionOk then none
  else some (joinLabels (labels.map written))

end HttpRelay.Idna
