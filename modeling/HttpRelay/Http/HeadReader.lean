import HttpRelay.Http.Head
import HttpRelay.Wire.Scan

/-!
The syntax of response heads, as a scanner over bytes. Empty lines before the status line are
skipped, a line feed alone ends a line, and the reason may be missing.
-/

namespace HttpRelay.HeadReader

open Wire (Verdict Scan)

inductive Fault where
  | newLine
  | version
  | status
  | headerName
  | headerValue
  | tooManyHeaders
deriving DecidableEq, Repr

def Fault.message : Fault → String
  | newLine => "invalid new line"
  | version => "invalid HTTP version"
  | status => "invalid response status"
  | headerName => "invalid header name"
  | headerValue => "invalid header value"
  | tooManyHeaders => "too many headers"

def maxHeaders : Nat := 100

def isNameByte (b : UInt8) : Bool :=
  (0x30 ≤ b && b ≤ 0x39) || (0x41 ≤ b && b ≤ 0x5a) || (0x61 ≤ b && b ≤ 0x7a) ||
    b == 0x21 || (0x23 ≤ b && b ≤ 0x27) || b == 0x2a || b == 0x2b || b == 0x2d || b == 0x2e ||
    b == 0x5e || b == 0x5f || b == 0x60 || b == 0x7c || b == 0x7e

def isTextByte (b : UInt8) : Bool := b == 0x09 || (0x20 ≤ b && b != 0x7f)

def isBlankByte (b : UInt8) : Bool := b == 0x20 || b == 0x09

def isDigitByte (b : UInt8) : Bool := 0x30 ≤ b && b ≤ 0x39

structure Draft where
  version : Nat
  status : Nat
  reason : String
  fields : Fields

/-- Where in the head the scanner stands. Names, values and reasons are held in reverse. -/
inductive Stage where
  | leading
  | leadingReturn
  | version (expected : Bytes)
  | versionDigit
  | versionBlank (d : Draft)
  | code (d : Draft) (digits : Nat)
  | codeEnd (d : Draft)
  | codeReturn (d : Draft)
  | reason (d : Draft) (held : Bytes)
  | reasonReturn (d : Draft) (held : Bytes)
  | line (d : Draft)
  | lastReturn (d : Draft)
  | name (d : Draft) (held : Bytes)
  | valueStart (d : Draft) (name : String)
  | valueReturn (d : Draft) (name : String) (held : Bytes)
  | value (d : Draft) (name : String) (held : Bytes)

abbrev Step := Verdict Stage Head Fault

def asciiText (reversed : Bytes) : String :=
  String.ofList (reversed.reverse.map fun b => Char.ofNat b.toNat)

/-- A reason with bytes past ASCII counts as missing. -/
def reasonText (reversed : Bytes) : String :=
  if reversed.all (· < 0x80) then asciiText reversed else ""

def valueText (reversed : Bytes) : String :=
  Text.trim (Utf8.lossy (reversed.dropWhile isBlankByte).reverse)

def Draft.head (d : Draft) : Head := ⟨d.version, d.status.toUInt16, d.reason, d.fields.reverse⟩

def addField (d : Draft) (name : String) (reversed : Bytes) : Step :=
  if d.fields.length < maxHeaders then
    .next (.line { d with fields := (name, valueText reversed) :: d.fields })
  else .refuse .tooManyHeaders

def versionStep (expected : Bytes) (b : UInt8) : Step :=
  match expected with
  | [] => .refuse .version
  | [e] => if b = e then .next .versionDigit else .refuse .version
  | e :: rest => if b = e then .next (.version rest) else .refuse .version

def versionName : Bytes := [0x48, 0x54, 0x54, 0x50, 0x2f, 0x31, 0x2e]

def leadingStep (b : UInt8) : Step :=
  if b = 0x0d then .next .leadingReturn
  else if b = 0x0a then .next .leading
  else versionStep versionName b

def digitStep (b : UInt8) : Step :=
  if b = 0x30 then .next (.versionBlank ⟨0, 0, "", []⟩)
  else if b = 0x31 then .next (.versionBlank ⟨1, 0, "", []⟩)
  else .refuse .version

def codeStep (d : Draft) (digits : Nat) (b : UInt8) : Step :=
  if isDigitByte b then
    let d := { d with status := 10 * d.status + (b.toNat - 0x30) }
    .next (if digits = 2 then .codeEnd d else .code d (digits + 1))
  else .refuse .status

def codeEndStep (d : Draft) (b : UInt8) : Step :=
  if b = 0x20 then .next (.reason d [])
  else if b = 0x0d then .next (.codeReturn d)
  else if b = 0x0a then .next (.line d)
  else .refuse .status

def reasonStep (d : Draft) (held : Bytes) (b : UInt8) : Step :=
  if b = 0x0d then .next (.reasonReturn d held)
  else if b = 0x0a then .next (.line { d with reason := reasonText held })
  else if isTextByte b then .next (.reason d (b :: held))
  else .refuse .status

def lineStep (d : Draft) (b : UInt8) : Step :=
  if b = 0x0d then .next (.lastReturn d)
  else if b = 0x0a then .accept d.head
  else if isNameByte b then .next (.name d [b])
  else .refuse .headerName

def nameStep (d : Draft) (held : Bytes) (b : UInt8) : Step :=
  if b = 0x3a then .next (.valueStart d (asciiText held))
  else if isNameByte b then .next (.name d (b :: held))
  else .refuse .headerName

def valueStep (d : Draft) (name : String) (held : Bytes) (b : UInt8) : Step :=
  if b = 0x0d then .next (.valueReturn d name held)
  else if b = 0x0a then addField d name held
  else if isTextByte b then .next (.value d name (b :: held))
  else .refuse .headerValue

def valueStartStep (d : Draft) (name : String) (b : UInt8) : Step :=
  if isBlankByte b then .next (.valueStart d name) else valueStep d name [] b

def afterReturn (b : UInt8) (next : Step) (fault : Fault) : Step :=
  if b = 0x0a then next else .refuse fault

def step : Stage → UInt8 → Step
  | .leading, b => leadingStep b
  | .leadingReturn, b => afterReturn b (.next .leading) .newLine
  | .version expected, b => versionStep expected b
  | .versionDigit, b => digitStep b
  | .versionBlank d, b => if b = 0x20 then .next (.code d 0) else .refuse .version
  | .code d digits, b => codeStep d digits b
  | .codeEnd d, b => codeEndStep d b
  | .codeReturn d, b => afterReturn b (.next (.line d)) .status
  | .reason d held, b => reasonStep d held b
  | .reasonReturn d held, b =>
    afterReturn b (.next (.line { d with reason := reasonText held })) .status
  | .line d, b => lineStep d b
  | .lastReturn d, b => afterReturn b (.accept d.head) .newLine
  | .name d held, b => nameStep d held b
  | .valueStart d name, b => valueStartStep d name b
  | .valueReturn d name held, b => afterReturn b (addField d name held) .headerValue
  | .value d name held, b => valueStep d name held b

def scan (buffer : Bytes) : Scan Stage Head Fault := Wire.scan step .leading buffer

end HttpRelay.HeadReader
