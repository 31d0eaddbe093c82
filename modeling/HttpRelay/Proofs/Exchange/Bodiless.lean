import HttpRelay.Proofs.Exchange.Agreement
import HttpRelay.Proofs.Exchange.Delivery

namespace HttpRelay

namespace Flate

theorem inflate_nil (bound : Nat) : inflate bound [] = .error ⟨.incomplete, 0⟩ := by
  have hblocks : Inflate.blocks bound .empty (.ofBytes []) = .error ⟨.incomplete, 0⟩ := by
    rw [Inflate.blocks]
    rfl
  rw [inflate, hblocks]
  rfl

theorem bare_nil (limit : Nat) : bare limit [] = .error .incomplete := by
  have hfault : Stopped.fault limit ⟨.incomplete, 0⟩ = .incomplete := by
    rw [Stopped.fault]
    exact if_neg (Nat.not_lt_zero limit)
  rw [bare, inflateUpTo, inflate_nil, Except.mapError, hfault]
  rfl

theorem inPieces_nil {decoder : Nat → Bytes → Except Fault ByteArray} {limit : Nat} {fault : Fault}
    (h : decoder limit [] = .error fault) : inPieces decoder limit [] = .error fault := by
  rw [inPieces, h]
  rfl

end Flate

namespace ContentCoding

def emptyReason (name : String) : String :=
  if name = "gzip" ∨ name = "x-gzip" then Flate.Fault.truncated.message
  else if name = "deflate" then Flate.Fault.incomplete.message
  else "unsupported content encoding"

theorem readBounded_nil {decoder : Nat → Bytes → Except Flate.Fault ByteArray} {limit : UInt64}
    {fault : Flate.Fault} (hlimit : limit + 1 ≠ 0) (h : decoder limit.toNat [] = .error fault) :
    readBounded (Flate.inPieces decoder) limit [] = .error fault := by
  rw [readBounded, if_neg hlimit]
  exact Flate.inPieces_nil h

theorem inflateEither_nil {limit : UInt64} (hlimit : limit + 1 ≠ 0) :
    inflateEither limit [] = .error .incomplete := by
  have hzlib : readBounded Flate.Zlib.decode limit [] = .error .incomplete :=
    readBounded_nil hlimit rfl
  rw [inflateEither, hzlib]
  exact readBounded_nil hlimit (Flate.bare_nil _)

theorem decode_nil {head : Head} (h : ¬ head.IsPlain) {limit : UInt64} (hlimit : limit + 1 ≠ 0) :
    decode limit [] head.contentEncoding = .error (.decompression (normalize head.contentEncoding)
      (emptyReason (normalize head.contentEncoding))) := by
  have hcoded : ¬ (normalize head.contentEncoding = "" ∨
      normalize head.contentEncoding = "identity") := h
  rw [decode, emptyReason]
  dsimp only
  rw [if_neg hcoded]
  split
  · have hgzip : readBounded Flate.Gzip.decode limit [] = .error .truncated :=
      readBounded_nil hlimit rfl
    rw [hgzip]
  · split
    · rw [inflateEither_nil hlimit]
    · rfl

end ContentCoding

theorem Receipt.of_empty (buffer : Bytes) (incoming : Incoming) :
    (Receipt.of (.empty false) buffer incoming).outcome = some (.ok ()) ∧
      (Receipt.of (.empty false) buffer incoming).payload = [] := by
  have hrun : (Framing.empty false).Running buffer ([] : List Bytes).flatten [] :=
    Framing.running_empty buffer []
  exact collect_running incoming.arrivals incoming.ending hrun

namespace Request

variable {request : Request} {c : Connection} {head : Head} {buffer : Bytes} {incoming : Incoming}

structure AnswersBodiless (request : Request) (c : Connection) (head : Head) : Prop where
  streamed : Delivers (request.stream head.status c.peer) head []
  fetched : head.IsPlain → ∀ limit,
    (request.fetch limit c).outcome = some (.ok (snapshot c head ""))
  refused : ¬ head.IsPlain → ∀ limit, limit + 1 ≠ 0 → (request.fetch limit c).outcome =
    some (.error (.decompression (ContentCoding.normalize head.contentEncoding)
      (ContentCoding.emptyReason (ContentCoding.normalize head.contentEncoding))))

theorem fetch_bodiless
    (h : (request.exchangeHeads c.peer).outcome = some (.ok (head, buffer, incoming)))
    (hb : head.IsBodiless request.method) (limit : UInt64) : (request.fetch limit c).outcome =
      some ((ContentCoding.decode limit [] head.contentEncoding).map (snapshot c head)) := by
  obtain ⟨ho, hp⟩ := Receipt.of_empty buffer incoming
  have hfits : (Receipt.of (.empty false) buffer incoming).payload.length ≤ limit.toNat := by
    rw [hp]
    exact Nat.zero_le limit.toNat
  rw [fetch_of_framing h (Head.ofHead_of_bodiless hb) hfits, ho, hp]
  -- the decoder is not to be run here
  generalize ContentCoding.decode limit [] head.contentEncoding = decoded
  rfl

/-- A response without a body is streamed as such whatever its headers say, and fetched as such
where they name no coding; with a coding, fetching it fails. -/
theorem answersBodiless
    (h : (request.exchangeHeads c.peer).outcome = some (.ok (head, buffer, incoming)))
    (hb : head.IsBodiless request.method) : AnswersBodiless request c head := by
  constructor
  · obtain ⟨ho, hp⟩ := Receipt.of_empty buffer incoming
    exact stream_of_receipt h rfl (Head.ofHead_of_bodiless hb) ho hp
  · intro hplain limit
    rw [fetch_bodiless h hb, ContentCoding.decode_plain hplain]
    rfl
  · intro hcoded limit hlimit
    rw [fetch_bodiless h hb, ContentCoding.decode_nil hcoded hlimit]
    rfl

end Request

namespace Sample

def asking : Request := Request.new "HEAD" "/"

def zipped : HeadText :=
  { final with
    fields := [field (Utf8.encode "Content-Encoding") (Utf8.encode "gzip") (by decide +kernel)] }

end Sample

namespace Request

theorem answersBodiless_sample :
    ((Sample.asking.exchangeHeads (Sample.sender [Sample.zipped.bytes])).outcome =
        some (.ok (Sample.zipped.head, [], ⟨[], .silent⟩)) ∧
      Sample.zipped.head.IsBodiless Sample.asking.method) ∧
    AnswersBodiless Sample.asking ⟨Sample.sender [Sample.zipped.bytes], none⟩
      Sample.zipped.head := by
  have h : (Sample.asking.exchangeHeads (Sample.sender [Sample.zipped.bytes])).outcome =
      some (.ok (Sample.zipped.head, [], ⟨[], .silent⟩)) := by decide +kernel
  have hb : Sample.zipped.head.IsBodiless Sample.asking.method := .inl (by decide +kernel)
  exact ⟨⟨h, hb⟩, answersBodiless (c := ⟨_, none⟩) h hb⟩

theorem fetch_refuses_bodiless :
    (Sample.asking.exchangeHeads (Sample.sender [Sample.zipped.bytes])).outcome =
        some (.ok (Sample.zipped.head, [], ⟨[], .silent⟩)) ∧
    Framing.ofHead Sample.zipped.head Sample.asking.method = .ok (.empty false) ∧
    (Sample.asking.fetch ContentCoding.maxBody
      ⟨Sample.sender [Sample.zipped.bytes], none⟩).outcome =
        some (.error (.decompression "gzip" "unexpected end of file")) := by
  refine ⟨?_, ?_, ?_⟩ <;> decide +kernel

end Request

end HttpRelay
