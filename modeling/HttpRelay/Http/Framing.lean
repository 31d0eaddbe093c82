import HttpRelay.Http.Chunked
import HttpRelay.Http.Head

/-!
How the body of a response is delimited, and its events under each framing. Draining a buffer
always ends, since an event other than the last one uses up bytes or moves a chunk on.
-/

namespace HttpRelay

inductive Framing where
  | chunked (state : Chunked.State)
  | length (remaining : Nat)
  | untilClose
  | empty (reported : Bool)
deriving DecidableEq, Repr

namespace Framing

def isBodiless (status : UInt16) : Bool :=
  (100 ≤ status && status < 200) || status == 204 || status == 304

def ofHead (head : Head) (method : String) : Except Failure Framing :=
  if Text.sameName method "HEAD" || isBodiless head.status then .ok (.empty false)
  else if head.isChunked then .ok (.chunked .size)
  else head.contentLength.map fun
    | some n => .length n
    | none => .untilClose

def choiceText : Framing → String
  | chunked _ => "Chunked(ChunkedDecoder \x7b state: Size \x7d)"
  | length remaining => "Length \x7b remaining: " ++ toString remaining ++ " \x7d"
  | untilClose => "CloseDelimited"
  | empty _ => "Empty \x7b reported: false \x7d"

structure Reply where
  found : Except Failure (Option BodyEvent)
  framing : Framing
  buffer : Bytes

def ofChunkedReply (r : Chunked.Reply) : Reply :=
  ⟨r.found.mapError fun fault => .chunkDecode fault.message, .chunked r.state, r.buffer⟩

theorem found_ofChunkedReply {r : Chunked.Reply} {o : Option BodyEvent} :
    (ofChunkedReply r).found = .ok o ↔ r.found = .ok o := by
  obtain ⟨found, state, buffer⟩ := r
  cases found with
  | ok p =>
    change (.ok p : Except Failure (Option BodyEvent)) = .ok o ↔
      (.ok p : Except Chunked.Fault (Option BodyEvent)) = .ok o
    rw [Except.ok.injEq, Except.ok.injEq]
  | error fault =>
    change (.error _ : Except Failure (Option BodyEvent)) = .ok o ↔
      (.error fault : Except Chunked.Fault (Option BodyEvent)) = .ok o
    exact iff_of_false nofun nofun

theorem fault_ofChunkedReply {r : Chunked.Reply} {e : Failure} :
    (ofChunkedReply r).found = .error e ↔
      ∃ fault, r.found = .error fault ∧ e = .chunkDecode fault.message := by
  obtain ⟨found, state, buffer⟩ := r
  cases found with
  | ok p =>
    change (.ok p : Except Failure (Option BodyEvent)) = .error e ↔ _
    exact iff_of_false nofun nofun
  | error fault =>
    change (.error (.chunkDecode fault.message) : Except Failure (Option BodyEvent)) =
      .error e ↔ _
    constructor
    · intro h
      exact ⟨fault, rfl, (Except.error.inj h).symm⟩
    · rintro ⟨_, hf, rfl⟩
      rw [Except.error.inj hf]

def readLength (remaining : Nat) (buffer : Bytes) : Reply :=
  if remaining = 0 then ⟨.ok (some .done), .length 0, buffer⟩
  else if buffer.isEmpty then ⟨.ok none, .length remaining, []⟩
  else
    let segment := buffer.take remaining
    ⟨.ok (some (.data segment)), .length (remaining - segment.length), buffer.drop remaining⟩

def readAll (buffer : Bytes) : Reply :=
  ⟨.ok (if buffer.isEmpty then none else some (.data buffer)), .untilClose, []⟩

def readNothing (reported : Bool) (buffer : Bytes) : Reply :=
  ⟨.ok (if reported then none else some .done), .empty true, buffer⟩

def decode (f : Framing) (buffer : Bytes) : Reply :=
  match f with
  | .chunked state => ofChunkedReply (Chunked.decode state buffer)
  | .length remaining => readLength remaining buffer
  | .untilClose => readAll buffer
  | .empty reported => readNothing reported buffer

def finish : Framing → Except Failure Unit
  | .chunked .done | .untilClose | .empty _ => .ok ()
  | .chunked _ => .error (.chunkDecode "connection closed in the middle of a chunked body")
  | .length remaining =>
    .error (.read ⟨.unexpectedEof, s!"connection closed with {remaining} body bytes outstanding"⟩)

/-- Bytes count three, a chunk that is being read two, and one whose end is due one. -/
def weight (f : Framing) (buffer : Bytes) : Nat :=
  3 * buffer.length + match f with
    | .chunked (.data _) => 2
    | .chunked .endPending => 1
    | _ => 0

theorem weight_lt_of_length_lt {f g : Framing} {b c : Bytes} (h : c.length < b.length) :
    weight g c < weight f b := by
  have hg : weight g c ≤ 3 * c.length + 2 := by
    unfold weight
    split <;> omega
  have hf : 3 * b.length ≤ weight f b := Nat.le_add_right _ _
  omega

theorem weight_skipTrailers {b : Bytes} {e : BodyEvent}
    (h : (Chunked.skipTrailers b).found = .ok (some e)) : e = .done := by
  fun_induction Chunked.skipTrailers b with
  | case1 b _ => split at h <;> simp at h
  | case2 => simpa [eq_comm] using h
  | case3 _ _ _ _ _ ih => exact ih h

theorem readSize_progress {b : Bytes} {e : BodyEvent}
    (h : (Chunked.readSize b).found = .ok (some e)) :
    e = .done ∨ (Chunked.readSize b).buffer.length < b.length := by
  unfold Chunked.readSize at h ⊢
  split at h
  · exact .inl (weight_skipTrailers h)
  · rename_i size rest _ hs
    exact .inr (by simpa using Wire.scan_rest_length hs)
  · split at h <;> simp at h
  · simp at h

theorem decode_progress {f : Framing} {b : Bytes} {e : BodyEvent}
    (h : (decode f b).found = .ok (some e)) :
    e = .done ∨ weight (decode f b).framing (decode f b).buffer < weight f b := by
  cases f with
  | chunked s =>
    have h : (Chunked.decode s b).found = .ok (some e) := found_ofChunkedReply.mp h
    simp only [decode, ofChunkedReply]
    cases s with
    | size => exact (readSize_progress h).imp id weight_lt_of_length_lt
    | data remaining =>
      simp only [Chunked.decode, Chunked.readData] at h ⊢
      by_cases hb : b.isEmpty
      · simp [hb] at h
      · have hl : 0 < b.length := by
          cases b <;> simp_all
        refine .inr ?_
        simp only [hb, Bool.false_eq_true, if_false, weight, List.length_drop, List.length_take]
        by_cases hm : min remaining b.length = remaining
        · simp only [hm, if_true]
          omega
        · simp only [hm, if_false]
          omega
    | endPending => exact .inr (by simp [Chunked.decode, weight])
    | dataEnd =>
      simp only [Chunked.decode] at h ⊢
      unfold Chunked.readDataEnd at h ⊢
      split at h
      · refine (readSize_progress h).imp id fun hl => weight_lt_of_length_lt ?_
        simp only [List.length_cons]
        omega
      · simp at h
      · simp at h
    | trailers => exact .inl (weight_skipTrailers h)
    | done => simp [Chunked.decode] at h
  | length remaining =>
    simp only [decode, readLength] at h ⊢
    by_cases hr : remaining = 0
    · exact .inl (by simpa [hr, eq_comm] using h)
    · by_cases hb : b.isEmpty
      · simp [hr, hb] at h
      · have hl : 0 < b.length := by
          cases b <;> simp_all
        refine .inr (weight_lt_of_length_lt ?_)
        simp only [hr, hb, Bool.false_eq_true, if_false, List.length_drop]
        omega
  | untilClose =>
    simp only [decode, readAll] at h ⊢
    split at h
    · simp at h
    · rename_i hb
      have hb' : 0 < b.length := by
        cases b <;> simp_all
      exact .inr (weight_lt_of_length_lt (by simpa using hb'))
  | empty reported =>
    simp only [decode, readNothing] at h ⊢
    split at h <;> simp_all

theorem weight_lt_of_event {f g : Framing} {b c : Bytes} {e : BodyEvent}
    (h : decode f b = ⟨.ok (some e), g, c⟩) (he : e ≠ .done) : weight g c < weight f b := by
  have hprogress := decode_progress (congrArg Reply.found h)
  rw [h] at hprogress
  exact hprogress.resolve_left he

inductive Stop where
  | hungry
  | complete
  | broken (failure : Failure)
deriving DecidableEq, Repr

structure Drained where
  events : List BodyEvent
  stop : Stop
  framing : Framing
  buffer : Bytes

def drain (f : Framing) (buffer : Bytes) : Drained :=
  match _h : (decode f buffer).found with
  | .error failure =>
    ⟨[], .broken failure, (decode f buffer).framing, (decode f buffer).buffer⟩
  | .ok none => ⟨[], .hungry, (decode f buffer).framing, (decode f buffer).buffer⟩
  | .ok (some e) =>
    if _hd : e = .done then
      ⟨[], .complete, (decode f buffer).framing, (decode f buffer).buffer⟩
    else
      let rest := drain (decode f buffer).framing (decode f buffer).buffer
      { rest with events := e :: rest.events }
termination_by weight f buffer
decreasing_by
  exact (decode_progress (by assumption)).resolve_left (by assumption)

end Framing

end HttpRelay
