import Mathlib.Data.List.Forall2
import HttpRelay.Proofs.Flate.Trailing
import HttpRelay.Proofs.Http.DecodedSizes

namespace HttpRelay.ContentCoding

variable {limit : UInt64} {body member : Bytes} {members : List Bytes} {coding : Option String}
  {text : String} {texts : List String}

theorem readBounded_append {output : ByteArray}
    (h : readBounded Flate.Gzip.decode limit body = .ok output) (more : Bytes) :
    readBounded Flate.Gzip.decode limit (body ++ more) = .ok output := by
  unfold readBounded at h ⊢
  split at h
  · rename_i hlimit
    rw [if_pos hlimit, h]
  · rename_i hlimit
    have hunwrap := Flate.inPieces_eq_ok_iff.mp h
    rw [if_neg hlimit]
    exact Flate.inPieces_eq_ok_iff.mpr (Flate.Gzip.unwrap_append hunwrap more)

theorem decode_append (hgzip : kind (normalize coding) = .gzip)
    (h : decode limit body coding = .ok text) (more : Bytes) :
    decode limit (body ++ more) coding = .ok text := by
  rw [decode_eq, hgzip, decodeAs] at h ⊢
  obtain ⟨output, houtput, rfl⟩ := answer_eq_ok_iff.mp h
  rw [readBounded_append houtput more]
  rfl

theorem join_eq_head_iff : String.join (text :: texts) = text ↔ ∀ t ∈ texts, t = "" := by
  rw [← String.toList_inj, String.toList_join, List.flatMap_cons, List.append_right_eq_self,
    List.flatMap_eq_nil_iff]
  simp only [String.toList_eq_nil_iff]

/-- Members that each decode alone decode together as the first of them, which is all of their
text only where the others have none. -/
theorem decode_members (hgzip : kind (normalize coding) = .gzip)
    (halone : List.Forall₂ (fun member text => decode limit member coding = .ok text)
      (member :: members) (text :: texts)) :
    decode limit (member :: members).flatten coding = .ok text ∧
      (decode limit (member :: members).flatten coding = .ok (String.join (text :: texts)) ↔
        ∀ t ∈ texts, t = "") := by
  have hfirst : decode limit (member :: members).flatten coding = .ok text :=
    decode_append hgzip (List.forall₂_cons.mp halone).1 members.flatten
  refine ⟨hfirst, ?_⟩
  rw [hfirst, Except.ok.injEq, eq_comm, join_eq_head_iff]

def sample : Bytes :=
  [0x1f, 0x8b, 0x08, 0x00, 0x00, 0x00, 0x00, 0x00, 0x02, 0x03, 0x4b, 0x04, 0x00, 0x43, 0xbe,
    0xb7, 0xe8, 0x01, 0x00, 0x00, 0x00]

theorem decode_sample : decode maxBody sample (some "gzip") = .ok "a" := by
  decide +kernel

theorem decode_members_twice : decode maxBody [sample, sample].flatten (some "gzip") = .ok "a" :=
  (decode_members (by decide +kernel) (.cons decode_sample (.cons decode_sample .nil))).1

theorem members_dropped : decode maxBody sample (some "gzip") = .ok "a" ∧
    decode maxBody (sample ++ sample) (some "gzip") ≠ .ok "aa" := by
  refine ⟨decode_sample, ?_⟩
  rw [decode_append (by decide +kernel) decode_sample sample]
  decide

end HttpRelay.ContentCoding
