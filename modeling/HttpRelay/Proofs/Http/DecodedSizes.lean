import Mathlib.Control.Monad.Basic
import HttpRelay.Proofs.Flate.Limits
import HttpRelay.Proofs.Http.Codings

namespace HttpRelay

theorem length_toList_loop (output : ByteArray) (i : Nat) (read : Bytes) :
    (ByteArray.toList.loop output i read).length = output.size - i + read.length := by
  rw [ByteArray.toList.loop]
  split
  · rw [length_toList_loop output (i + 1), List.length_cons]
    omega
  · rw [List.length_reverse]
    omega
termination_by output.size - i

@[simp] theorem length_toList (output : ByteArray) : output.toList.length = output.size :=
  length_toList_loop output 0 []

namespace ContentCoding

open Flate (Gives Breaks Exceeds)

variable {limit : UInt64} {body : Bytes} {coding : Option String} {name text : String}

/-- The bytes that a body stands for. Deflate data counts as bare where its zlib reading breaks
off within the limit. -/
def Decodes (limit : Nat) (body : Bytes) : Kind → Bytes → Prop
  | .plain, bytes => bytes = body
  | .gzip, bytes => ∃ output, Gives (Flate.Gzip.decode · body) output ∧ bytes = output.toList
  | .deflate, bytes => ∃ output, (Gives (Flate.Zlib.decode · body) output ∨
      Breaks (Flate.Zlib.decode · body) limit ∧ Gives (Flate.raw · body) output) ∧
        bytes = output.toList
  | .unknown, _ => False

def Overruns (limit : Nat) (body : Bytes) : Kind → Prop
  | .gzip => Exceeds (Flate.Gzip.decode · body) limit
  | .deflate => Exceeds (Flate.Zlib.decode · body) limit ∨
      Breaks (Flate.Zlib.decode · body) limit ∧ Exceeds (Flate.raw · body) limit
  | _ => False

theorem answer_within {r : Except Flate.Fault ByteArray} {P : ByteArray → Prop}
    (h : ∀ output, r = .ok output ↔ P output ∧ output.size ≤ limit.toNat) :
    answer name r = .ok text ↔ ∃ bytes, (∃ output, P output ∧ bytes = output.toList) ∧
      bytes.length ≤ limit.toNat ∧ text = Utf8.lossy bytes := by
  rw [answer_eq_ok_iff]
  constructor
  · rintro ⟨output, houtput, rfl⟩
    obtain ⟨houtput, hsize⟩ := (h output).mp houtput
    exact ⟨output.toList, ⟨output, houtput, rfl⟩, by rwa [length_toList], rfl⟩
  · rintro ⟨_, ⟨output, houtput, rfl⟩, hsize, rfl⟩
    rw [length_toList] at hsize
    exact ⟨output, (h output).mpr ⟨houtput, hsize⟩, rfl⟩

section Limit

variable (hlimit : limit + 1 ≠ 0)

include hlimit

theorem readBounded_eq (decoder : Nat → Bytes → Except Flate.Fault ByteArray) (body : Bytes) :
    readBounded decoder limit body = decoder limit.toNat body := if_neg hlimit

theorem inflateEither_exceeds (h : Exceeds (Flate.Zlib.decode · body) limit.toNat) :
    inflateEither limit body = .error (.tooLarge limit.toNat) := by
  rw [inflateEither, readBounded_eq hlimit, h.decoder_eq]

theorem inflateEither_breaks (h : Breaks (Flate.Zlib.decode · body) limit.toNat) :
    inflateEither limit body = Flate.raw limit.toNat body := by
  obtain ⟨fault, hfault, hblameless⟩ := h.decoder_eq
  rw [inflateEither, readBounded_eq hlimit, readBounded_eq hlimit, hfault]
  cases fault with
  | tooLarge n => exact absurd rfl (hblameless n)
  | _ => rfl

theorem inflateEither_eq_ok_iff {output : ByteArray} : inflateEither limit body = .ok output ↔
    (Gives (Flate.Zlib.decode · body) output ∨
      Breaks (Flate.Zlib.decode · body) limit.toNat ∧ Gives (Flate.raw · body) output) ∧
        output.size ≤ limit.toNat := by
  obtain ⟨_, _, hzlib⟩ := Flate.Zlib.capped_decode body
  obtain ⟨_, _, hraw⟩ := Flate.capped_raw body
  rw [or_and_right, and_assoc, ← hzlib.eq_ok_iff, ← hraw.eq_ok_iff, hzlib.breaks_iff,
    inflateEither, readBounded_eq hlimit, readBounded_eq hlimit]
  cases Flate.Zlib.decode limit.toNat body with
  | ok o => simp
  | error fault => cases fault <;> simp

theorem decodeAs_eq_ok_iff {k : Kind} : decodeAs limit body name k = .ok text ↔
    ∃ bytes, Decodes limit.toNat body k bytes ∧ (k = .plain ∨ bytes.length ≤ limit.toNat) ∧
      text = Utf8.lossy bytes := by
  cases k with
  | plain =>
    constructor
    · intro h
      exact ⟨body, rfl, .inl rfl, (Except.ok.inj h).symm⟩
    · rintro ⟨_, rfl, -, rfl⟩
      rfl
  | gzip =>
    obtain ⟨_, _, hgzip⟩ := Flate.Gzip.capped_decode body
    rw [decodeAs, readBounded_eq hlimit]
    simp only [reduceCtorEq, false_or]
    exact answer_within fun output => hgzip.eq_ok_iff
  | deflate =>
    simp only [reduceCtorEq, false_or]
    exact answer_within fun output => inflateEither_eq_ok_iff hlimit
  | unknown => exact iff_of_false nofun (by rintro ⟨_, ⟨⟩, _⟩)

theorem decodeAs_overruns {k : Kind} (h : Overruns limit.toNat body k) :
    decodeAs limit body name k =
      .error (.decompression name (Flate.Fault.tooLarge limit.toNat).message) := by
  match k, h with
  | .gzip, hgzip =>
    rw [decodeAs, readBounded_eq hlimit, Exceeds.decoder_eq hgzip, answer]
  | .deflate, .inl hzlib => rw [decodeAs, inflateEither_exceeds hlimit hzlib, answer]
  | .deflate, .inr ⟨hzlib, hraw⟩ =>
    rw [decodeAs, inflateEither_breaks hlimit hzlib, Exceeds.decoder_eq hraw, answer]

end Limit

theorem Decodes.overruns {most : Nat} {k : Kind} {bytes : Bytes} (h : Decodes most body k bytes)
    (hk : k ≠ .plain) (hsize : most < bytes.length) : Overruns most body k := by
  obtain ⟨_, _, hgzip⟩ := Flate.Gzip.capped_decode body
  obtain ⟨_, _, hzlib⟩ := Flate.Zlib.capped_decode body
  obtain ⟨_, _, hraw⟩ := Flate.capped_raw body
  match k, h with
  | .plain, _ => exact absurd rfl hk
  | .gzip, ⟨output, hgives, hbytes⟩ =>
    rw [hbytes, length_toList] at hsize
    exact (hgzip.exceeds_iff hgives).mpr hsize
  | .deflate, ⟨output, .inl hgives, hbytes⟩ =>
    rw [hbytes, length_toList] at hsize
    exact .inl ((hzlib.exceeds_iff hgives).mpr hsize)
  | .deflate, ⟨output, .inr ⟨hbreaks, hgives⟩, hbytes⟩ =>
    rw [hbytes, length_toList] at hsize
    exact .inr ⟨hbreaks, (hraw.exceeds_iff hgives).mpr hsize⟩

/-- What decoding a body under a limit answers. -/
structure Answers (limit : UInt64) (body : Bytes) (coding : Option String) : Prop where
  reads : ∀ text, decode limit body coding = .ok text ↔
    ∃ bytes, Decodes limit.toNat body (kind (normalize coding)) bytes ∧
      (kind (normalize coding) = .plain ∨ bytes.length ≤ limit.toNat) ∧ text = Utf8.lossy bytes
  overruns : Overruns limit.toNat body (kind (normalize coding)) → decode limit body coding =
    .error (.decompression (normalize coding) (Flate.Fault.tooLarge limit.toNat).message)
  outgrown : ∀ bytes, Decodes limit.toNat body (kind (normalize coding)) bytes →
    kind (normalize coding) ≠ .plain → limit.toNat < bytes.length →
      Overruns limit.toNat body (kind (normalize coding))
  refuses : ∀ failure, decode limit body coding = .error failure →
    ∃ reason, failure = .decompression (normalize coding) reason

theorem decode_answers (hlimit : limit + 1 ≠ 0) (body : Bytes) (coding : Option String) :
    Answers limit body coding where
  reads text := by rw [decode_eq, decodeAs_eq_ok_iff hlimit]
  overruns := by
    rw [decode_eq]
    exact decodeAs_overruns hlimit
  outgrown _ := Decodes.overruns
  refuses _ := decode_error

def stored : Bytes :=
  [0x78, 0x01, 0x01, 0x05, 0x00, 0xfa, 0xff] ++ "hello".toUTF8.toList ++ [0x06, 0x2c, 0x02, 0x15]

theorem decode_answers_maxBody : maxBody + 1 ≠ 0 ∧ Answers maxBody stored (some "deflate") ∧
    decode maxBody stored (some "deflate") = .ok "hello" ∧
    decode 4 stored (some "deflate") =
      .error (.decompression "deflate" "decompressed body exceeds 4 bytes") :=
  ⟨by decide, decode_answers (by decide) _ _, by decide +kernel, by decide +kernel⟩

theorem decode_unread (hlimit : limit + 1 = 0)
    (hkind : kind (normalize coding) = .gzip ∨ kind (normalize coding) = .deflate) :
    decode limit body coding = .ok "" := by
  have hread (decoder : Nat → Bytes → Except Flate.Fault ByteArray) :
      readBounded decoder limit body = .ok .empty := if_pos hlimit
  have hempty : answer (normalize coding) (.ok .empty) = .ok "" :=
    answer_eq_ok_iff.mpr ⟨.empty, rfl, by decide +kernel⟩
  rw [decode_eq]
  rcases hkind with h | h
  · rw [h, decodeAs, hread]
    exact hempty
  · rw [h, decodeAs, inflateEither, hread]
    exact hempty

theorem plain_unmeasured :
    (decode maxBody (List.replicate (maxBody.toNat + 1) 0x61) none).isOk = true ∧
      maxBody.toNat < (List.replicate (maxBody.toNat + 1) (0x61 : UInt8)).length := by
  have hkind : kind (normalize none) = .plain := by decide +kernel
  constructor
  · rw [decode_eq, hkind]
    rfl
  · rw [List.length_replicate]
    exact Nat.lt_succ_self maxBody.toNat

end ContentCoding

end HttpRelay
