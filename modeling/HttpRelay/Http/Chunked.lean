import HttpRelay.Failure
import HttpRelay.Http.SizeLine
import HttpRelay.Text.Quoted

namespace HttpRelay

inductive BodyEvent where
  | chunkStart (size : Nat)
  | data (bytes : Bytes)
  | chunkEnd
  | done
deriving DecidableEq, Repr

namespace Chunked

def maxLine : Nat := 4096

inductive State where
  | size
  | data (remaining : Nat)
  | endPending
  | dataEnd
  | trailers
  | done
deriving DecidableEq, Repr

inductive Fault where
  | sizeTooLong
  | badSize (seen : String)
  | missingLineEnd (seen : String)
  | trailerTooLong
deriving DecidableEq, Repr

def Fault.message : Fault → String
  | sizeTooLong => s!"chunk size line exceeds {maxLine} bytes"
  | badSize seen => s!"invalid chunk size line {Text.quoted seen}"
  | missingLineEnd seen => s!"missing CRLF after chunk data, found {Text.quoted seen}"
  | trailerTooLong => "trailer line too long"

def preview (buffer : Bytes) : String := Utf8.lossy (buffer.take 16)

structure Reply where
  found : Except Fault (Option BodyEvent)
  state : State
  buffer : Bytes

def splitLine : Bytes → Option (Bytes × Bytes)
  | 0x0d :: 0x0a :: rest => some ([], rest)
  | b :: rest => (splitLine rest).map fun (line, tail) => (b :: line, tail)
  | [] => none

theorem splitLine_length {bs line rest : Bytes} (h : splitLine bs = some (line, rest)) :
    bs.length = line.length + 2 + rest.length := by
  fun_induction splitLine bs generalizing line with
  | case1 tail =>
    simp only [Option.some.injEq, Prod.mk.injEq] at h
    obtain ⟨rfl, rfl⟩ := h
    simp
    omega
  | case2 b tail _ ih =>
    simp only [Option.map_eq_some_iff, Prod.mk.injEq, Prod.exists] at h
    obtain ⟨l, t, hl, rfl, rfl⟩ := h
    have := ih hl
    simp only [List.length_cons]
    omega
  | case3 => simp at h

def skipTrailers (buffer : Bytes) : Reply :=
  match _h : splitLine buffer with
  | none =>
    ⟨if maxLine < buffer.length then .error .trailerTooLong else .ok none, .trailers, buffer⟩
  | some ([], rest) => ⟨.ok (some .done), .done, rest⟩
  | some (_ :: _, rest) => skipTrailers rest
termination_by buffer.length
decreasing_by
  have := splitLine_length (by assumption)
  omega

def readSize (buffer : Bytes) : Reply :=
  match SizeLine.scan buffer with
  | .done 0 rest => skipTrailers rest
  | .done size rest => ⟨.ok (some (.chunkStart size)), .data size, rest⟩
  | .more _ =>
    ⟨if maxLine < buffer.length then .error .sizeTooLong else .ok none, .size, buffer⟩
  | .bad _ => ⟨.error (.badSize (preview buffer)), .size, buffer⟩

def readData (remaining : Nat) (buffer : Bytes) : Reply :=
  if buffer.isEmpty then ⟨.ok none, .data remaining, []⟩
  else
    let segment := buffer.take remaining
    ⟨.ok (some (.data segment)),
      if segment.length = remaining then .endPending else .data (remaining - segment.length),
      buffer.drop remaining⟩

def readDataEnd (buffer : Bytes) : Reply :=
  match buffer with
  | 0x0d :: 0x0a :: rest => readSize rest
  | _ :: _ :: _ => ⟨.error (.missingLineEnd (preview buffer)), .dataEnd, buffer⟩
  | _ => ⟨.ok none, .dataEnd, buffer⟩

/-- The next event of a chunked body. The end of a chunk is reported as soon as its last byte
has been handed out. -/
def decode (s : State) (buffer : Bytes) : Reply :=
  match s with
  | .size => readSize buffer
  | .data remaining => readData remaining buffer
  | .endPending => ⟨.ok (some .chunkEnd), .dataEnd, buffer⟩
  | .dataEnd => readDataEnd buffer
  | .trailers => skipTrailers buffer
  | .done => ⟨.ok none, .done, buffer⟩

end Chunked

end HttpRelay
