import HttpRelay.Flate.Checksum
import HttpRelay.Flate.Inflate

/-!
Decompressing with a limit on the output: bare deflate data, and deflate data in the zlib and
gzip wrappings.
-/

namespace HttpRelay.Flate

inductive Fault where
  | badHeader
  | fieldTooLong
  | truncated
  | badChecksum
  | incomplete
  | corrupt
  | tooLarge (limit : Nat)
deriving DecidableEq, Repr

def Fault.message : Fault → String
  | badHeader => "invalid gzip header"
  | fieldTooLong => "gzip header field too long"
  | truncated => "unexpected end of file"
  | badChecksum => "corrupt gzip stream does not have a matching checksum"
  | incomplete => "incomplete deflate stream"
  | corrupt => "corrupt deflate stream"
  | tooLarge limit => s!"decompressed body exceeds {limit} bytes"

/-- Output is handed out in windows of this size, so that a fault takes back what had come out
since the last full window. -/
def window : Nat := 32768

/-- The end of the window that holds the first byte past a limit. -/
def bound (limit : Nat) : Nat := (limit / window + 1) * window

def Stopped.fault (limit : Nat) (s : Stopped) : Fault :=
  match s.halt with
  | .corrupt => .corrupt
  | .full => .tooLarge limit
  | .incomplete => if limit < s.size then .tooLarge limit else .incomplete

def inflateUpTo (limit : Nat) (bs : Bytes) : Except Fault (ByteArray × Bytes) :=
  (inflate (bound limit) bs).mapError (·.fault limit)

def within (limit : Nat) (output : ByteArray) : Except Fault ByteArray :=
  if limit < output.size then .error (.tooLarge limit) else .ok output

/-- Input is taken in pieces of this size. -/
def piece : Nat := 32768

def taken (bs : Bytes) : List Bytes :=
  (List.range (bs.length / piece)).map fun n => bs.take ((n + 1) * piece)

def blamesLimit : Except Fault ByteArray → Bool
  | .error (.tooLarge _) => true
  | _ => false

/-- What has come out of full pieces is handed out before the next one is taken, so that a fault
in a later piece comes too late where the limit has been passed by then. -/
def inPieces (decoder : Nat → Bytes → Except Fault ByteArray) (limit : Nat) (bs : Bytes) :
    Except Fault ByteArray :=
  match decoder limit bs with
  | .ok output => .ok output
  | .error fault =>
    if (taken bs).any fun part => blamesLimit (decoder limit part) then .error (.tooLarge limit)
    else .error fault

def bare (limit : Nat) (bs : Bytes) : Except Fault ByteArray := do
  let (output, _) ← inflateUpTo limit bs
  within limit output

def raw : Nat → Bytes → Except Fault ByteArray := inPieces bare

namespace Zlib

def isHeader (method flags : UInt8) : Bool :=
  (256 * method.toNat + flags.toNat) % 31 == 0 && flags &&& 32 == 0 && method &&& 15 == 8 &&
    method >>> 4 ≤ 7

def unwrap (limit : Nat) (bs : Bytes) : Except Fault ByteArray :=
  match bs with
  | method :: flags :: rest =>
    if isHeader method flags then do
      let (output, trailer) ← inflateUpTo limit rest
      if trailer.length < 4 then
        if limit < output.size then throw (.tooLarge limit) else throw .incomplete
      else if bigEndian (trailer.take 4) ≠ Adler.ofByteArray output then throw .corrupt
      else within limit output
    else .error .corrupt
  | _ => .error .incomplete

def decode : Nat → Bytes → Except Fault ByteArray := inPieces unwrap

end Zlib

namespace Gzip

def maxField : Nat := 65535

def skipText (size : Nat) : Bytes → Except Fault Bytes
  | [] => .error .truncated
  | b :: rest =>
    if b = 0 then .ok rest
    else if size = maxField then .error .fieldTooLong
    else skipText (size + 1) rest

def skipExtra : Bytes → Except Fault Bytes
  | a :: b :: rest =>
    let n := a.toNat + 256 * b.toNat
    if rest.length < n then .error .truncated else .ok (rest.drop n)
  | _ => .error .truncated

def optional (flags mask : UInt8) (skip : Bytes → Except Fault Bytes) (bs : Bytes) :
    Except Fault Bytes :=
  if flags &&& mask = 0 then .ok bs else skip bs

def checkHeader (whole : Bytes) (bs : Bytes) : Except Fault Bytes :=
  match bs with
  | a :: b :: rest =>
    let sum := (Crc.ofBytes (whole.take (whole.length - bs.length))).toNat % 65536
    if littleEndian [a, b] = sum then .ok rest else .error .badChecksum
  | _ => .error .truncated

def skipHeader (bs : Bytes) : Except Fault Bytes :=
  match bs with
  | id₁ :: id₂ :: method :: flags :: _ :: _ :: _ :: _ :: _ :: _ :: rest =>
    if id₁ ≠ 0x1f ∨ id₂ ≠ 0x8b ∨ method ≠ 8 ∨ flags &&& 0xe0 ≠ 0 then .error .badHeader
    else do
      let rest ← optional flags 4 skipExtra rest
      let rest ← optional flags 8 (skipText 0) rest
      let rest ← optional flags 16 (skipText 0) rest
      optional flags 2 (checkHeader bs) rest
  | _ => .error .truncated

def checkTrailer (output : ByteArray) (trailer : Bytes) : Except Fault Unit :=
  if trailer.length < 8 then .error .truncated
  else if littleEndian (trailer.take 4) = (Crc.ofByteArray output).toNat ∧
      littleEndian ((trailer.drop 4).take 4) = output.size % UInt32.size then .ok ()
  else .error .badChecksum

/-- One member: a header, deflate data and a trailer. What follows it does not matter, and
neither does the trailer when the output is too large. -/
def unwrap (limit : Nat) (bs : Bytes) : Except Fault ByteArray := do
  let rest ← skipHeader bs
  let (output, trailer) ← inflateUpTo limit rest
  let output ← within limit output
  checkTrailer output trailer
  pure output

def decode : Nat → Bytes → Except Fault ByteArray := inPieces unwrap

end Gzip

end HttpRelay.Flate
