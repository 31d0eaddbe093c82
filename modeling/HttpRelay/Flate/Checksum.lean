import HttpRelay.Text.Utf8

namespace HttpRelay.Flate

namespace Crc

def shift (c : UInt32) : UInt32 :=
  if c &&& 1 = 1 then (c >>> 1) ^^^ 0xedb88320 else c >>> 1

def entry (n : Nat) : UInt32 := Nat.repeat shift 8 n.toUInt32

def table : Array UInt32 := (Array.range 256).map entry

def step (c : UInt32) (b : UInt8) : UInt32 :=
  (c >>> 8) ^^^ table.getD ((c ^^^ b.toUInt32) &&& 0xff).toNat 0

def finish (c : UInt32) : UInt32 := c ^^^ 0xffffffff

def ofByteArray (bs : ByteArray) : UInt32 := finish (bs.foldl step 0xffffffff)

def ofBytes (bs : Bytes) : UInt32 := finish (bs.foldl step 0xffffffff)

end Crc

namespace Adler

def base : Nat := 65521

def step (s : Nat × Nat) (b : UInt8) : Nat × Nat :=
  let low := (s.1 + b.toNat) % base
  (low, (s.2 + low) % base)

def ofByteArray (bs : ByteArray) : Nat :=
  let (low, high) := bs.foldl step (1, 0)
  65536 * high + low

end Adler

def littleEndian (bs : Bytes) : Nat := bs.foldr (fun b v => b.toNat + 256 * v) 0

def bigEndian (bs : Bytes) : Nat := littleEndian bs.reverse

end HttpRelay.Flate
