import HttpRelay.Http.ContentCoding

namespace HttpRelay.ContentCoding

inductive Kind where
  | plain
  | gzip
  | deflate
  | unknown
deriving DecidableEq

def kind (name : String) : Kind :=
  if name = "" ∨ name = "identity" then .plain
  else if name = "gzip" ∨ name = "x-gzip" then .gzip
  else if name = "deflate" then .deflate
  else .unknown

variable {limit : UInt64} {body : Bytes} {coding : Option String} {name text : String}
  {failure : Failure}

def answer (name : String) (r : Except Flate.Fault ByteArray) : Except Failure String :=
  match r with
  | .ok output => .ok (Utf8.lossy output.toList)
  | .error fault => .error (.decompression name fault.message)

theorem answer_eq_ok_iff {r : Except Flate.Fault ByteArray} :
    answer name r = .ok text ↔ ∃ output, r = .ok output ∧ text = Utf8.lossy output.toList := by
  cases r with
  | error fault => exact iff_of_false nofun (by rintro ⟨_, ⟨⟩, _⟩)
  | ok output =>
    constructor
    · intro h
      exact ⟨output, rfl, (Except.ok.inj h).symm⟩
    · rintro ⟨_, ⟨⟩, rfl⟩
      rfl

theorem answer_error {r : Except Flate.Fault ByteArray}
    (h : answer name r = .error failure) : ∃ reason, failure = .decompression name reason := by
  cases r with
  | error fault => exact ⟨_, (Except.error.inj h).symm⟩
  | ok output => cases h

def decodeAs (limit : UInt64) (body : Bytes) (name : String) : Kind → Except Failure String
  | .plain => .ok (Utf8.lossy body)
  | .gzip => answer name (readBounded Flate.Gzip.decode limit body)
  | .deflate => answer name (inflateEither limit body)
  | .unknown => .error (.decompression name "unsupported content encoding")

theorem decode_eq (limit : UInt64) (body : Bytes) (coding : Option String) :
    decode limit body coding =
      decodeAs limit body (normalize coding) (kind (normalize coding)) := by
  unfold decode kind
  dsimp only
  by_cases hplain : normalize coding = "" ∨ normalize coding = "identity"
  · rw [if_pos hplain, if_pos hplain]
    rfl
  by_cases hgzip : normalize coding = "gzip" ∨ normalize coding = "x-gzip"
  · rw [if_neg hplain, if_neg hplain, if_pos hgzip, if_pos hgzip]
    rfl
  rw [if_neg hplain, if_neg hplain, if_neg hgzip, if_neg hgzip]
  by_cases hdeflate : normalize coding = "deflate"
  · rw [if_pos hdeflate, if_pos hdeflate]
    rfl
  · rw [if_neg hdeflate, if_neg hdeflate]
    rfl

theorem decodeAs_error {k : Kind}
    (h : decodeAs limit body name k = .error failure) :
    ∃ reason, failure = .decompression name reason := by
  cases k with
  | plain => cases h
  | gzip => exact answer_error h
  | deflate => exact answer_error h
  | unknown => exact ⟨_, (Except.error.inj h).symm⟩

theorem decode_error (h : decode limit body coding = .error failure) :
    ∃ reason, failure = .decompression (normalize coding) reason := by
  rw [decode_eq] at h
  exact decodeAs_error h

end HttpRelay.ContentCoding
