import HttpRelay.Proofs.Http.BodyFeeds
import HttpRelay.Proofs.Loops

namespace HttpRelay

open Loop (Pass Bounded LeftWithin)

namespace Chunked

variable {s t : State} {b c : Bytes} {r : Reply}

def pass : State × Bytes → Pass (State × Bytes) Reply
  | (.size, buffer) =>
    match SizeLine.scan buffer with
    | .done 0 rest => .again (.trailers, rest)
    | .done size rest => .leave ⟨.ok (some (.chunkStart size)), .data size, rest⟩
    | .more _ =>
      .leave ⟨if maxLine < buffer.length then .error .sizeTooLong else .ok none, .size, buffer⟩
    | .bad _ => .leave ⟨.error (.badSize (preview buffer)), .size, buffer⟩
  | (.data remaining, buffer) => .leave (readData remaining buffer)
  | (.endPending, buffer) => .leave ⟨.ok (some .chunkEnd), .dataEnd, buffer⟩
  | (.dataEnd, buffer) =>
    match buffer with
    | 0x0d :: 0x0a :: rest => .again (.size, rest)
    | _ :: _ :: _ => .leave ⟨.error (.missingLineEnd (preview buffer)), .dataEnd, buffer⟩
    | _ => .leave ⟨.ok none, .dataEnd, buffer⟩
  | (.trailers, buffer) =>
    match splitLine buffer with
    | none => .leave
      ⟨if maxLine < buffer.length then .error .trailerTooLong else .ok none, .trailers, buffer⟩
    | some ([], rest) => .leave ⟨.ok (some .done), .done, rest⟩
    | some (_ :: _, rest) => .again (.trailers, rest)
  | (.done, buffer) => .leave ⟨.ok none, .done, buffer⟩

theorem pass_again (h : pass (s, b) = .again (t, c)) :
    c.length < b.length ∧ decode t c = decode s b := by
  cases s with
  | size =>
    simp only [pass] at h
    split at h <;> cases h
    rename_i hscan
    exact ⟨Wire.scan_rest_length hscan, (readSize_of_zero hscan).symm⟩
  | dataEnd =>
    simp only [pass] at h
    split at h <;> cases h
    exact ⟨by simp only [List.length_cons]; omega, rfl⟩
  | trailers =>
    simp only [pass] at h
    split at h <;> cases h
    rename_i line hline
    have hlength := splitLine_length hline
    exact ⟨by omega, (skipTrailers_of_cons hline).symm⟩
  | data remaining => cases h
  | endPending => cases h
  | done => cases h

theorem pass_leave (h : pass (s, b) = .leave r) : r = decode s b := by
  cases s with
  | size =>
    simp only [pass] at h
    split at h <;> cases h
    · rename_i hne hscan
      exact (readSize_of_pos hscan hne).symm
    · rename_i hscan
      exact (readSize_of_more hscan).symm
    · rename_i hscan
      simp only [decode, readSize, hscan]
  | dataEnd =>
    simp only [pass] at h
    split at h <;> cases h
    · simp only [decode, readDataEnd]
    · simp only [decode, readDataEnd]
  | trailers =>
    simp only [pass] at h
    split at h <;> cases h
    · rename_i hline
      exact (skipTrailers_of_none hline).symm
    · rename_i hline
      exact (skipTrailers_of_nil hline).symm
  | data remaining =>
    cases h
    rfl
  | endPending =>
    cases h
    rfl
  | done =>
    cases h
    rfl

theorem bounded_pass : Bounded pass (fun x => x.2.length) fun x => decode x.1 x.2 where
  again h := pass_again h
  leave h := pass_leave h

theorem decode_leftWithin (s : State) (b : Bytes) :
    LeftWithin pass (b.length + 1) (s, b) (decode s b) := bounded_pass.leftWithin (s, b)

end Chunked

namespace Framing

structure Draining where
  framing : Framing
  buffer : Bytes
  events : List BodyEvent

def pass (x : Draining) : Pass Draining Drained :=
  let reply := x.framing.decode x.buffer
  match reply.found with
  | .error failure => .leave ⟨x.events, .broken failure, reply.framing, reply.buffer⟩
  | .ok none => .leave ⟨x.events, .hungry, reply.framing, reply.buffer⟩
  | .ok (some .done) => .leave ⟨x.events, .complete, reply.framing, reply.buffer⟩
  | .ok (some e) => .again ⟨reply.framing, reply.buffer, x.events ++ [e]⟩

theorem drain_after_append (es : List BodyEvent) (e : BodyEvent) (d : Drained) :
    d.after (es ++ [e]) = (d.after [e]).after es := by
  simp only [Drained.after, List.append_assoc]

theorem bounded_pass : Bounded pass (fun x => weight x.framing x.buffer)
    fun x => (x.framing.drain x.buffer).after x.events where
  again {x y} h := by
    simp only [pass] at h
    split at h <;> cases h
    rename_i e hdone hfound
    have hlive : e ≠ .done := fun hd => hdone (hd ▸ rfl)
    refine ⟨(decode_progress hfound).resolve_left hlive, ?_⟩
    rw [drain_of_event hfound hlive, drain_after_append]
  leave {x r} h := by
    simp only [pass] at h
    split at h <;> cases h
    · rename_i hfound
      rw [drain_of_fault hfound, Drained.after, List.append_nil]
    · rename_i hfound
      rw [drain_of_waiting hfound, Drained.after, List.append_nil]
    · rename_i hfound
      rw [drain_of_done hfound, Drained.after, List.append_nil]

theorem weight_le (f : Framing) (b : Bytes) : weight f b ≤ 3 * b.length + 2 := by
  unfold weight
  split <;> omega

theorem drain_leftWithin (f : Framing) (b : Bytes) :
    LeftWithin pass (3 * b.length + 3) ⟨f, b, []⟩ (f.drain b) := by
  have hleft := bounded_pass.leftWithin ⟨f, b, []⟩
  exact hleft.mono (Nat.add_le_add_right (weight_le f b) 1)

end Framing

end HttpRelay
