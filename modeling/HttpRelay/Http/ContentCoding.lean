import HttpRelay.Failure
import HttpRelay.Flate.Bounded
import HttpRelay.Text.Blank

namespace HttpRelay.ContentCoding

def maxBody : UInt64 := 16777216

/-- Asks for one byte more than the limit. The largest limit has no such number, and asks for
nothing. -/
def readBounded (decoder : Nat → Bytes → Except Flate.Fault ByteArray) (limit : UInt64)
    (body : Bytes) : Except Flate.Fault ByteArray :=
  if limit + 1 = 0 then .ok .empty else decoder limit.toNat body

def inflateEither (limit : UInt64) (body : Bytes) : Except Flate.Fault ByteArray :=
  match readBounded Flate.Zlib.decode limit body with
  | .ok output => .ok output
  | .error (.tooLarge n) => .error (.tooLarge n)
  | .error _ => readBounded Flate.raw limit body

def normalize (coding : Option String) : String := Text.lower (Text.trim (coding.getD ""))

def decode (limit : UInt64) (body : Bytes) (coding : Option String) : Except Failure String :=
  let name := normalize coding
  let text (r : Except Flate.Fault ByteArray) : Except Failure String :=
    match r with
    | .ok output => .ok (Utf8.lossy output.toList)
    | .error fault => .error (.decompression name fault.message)
  if name = "" ∨ name = "identity" then .ok (Utf8.lossy body)
  else if name = "gzip" ∨ name = "x-gzip" then text (readBounded Flate.Gzip.decode limit body)
  else if name = "deflate" then text (inflateEither limit body)
  else .error (.decompression name "unsupported content encoding")

end HttpRelay.ContentCoding
