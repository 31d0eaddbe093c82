import HttpRelay.Proofs.Http.ChunkedEvents
import HttpRelay.Proofs.Http.Contents

namespace HttpRelay.Framing

open Chunked (Call payload payload_append)

def Reply.events (r : Reply) : List BodyEvent :=
  match r.found with
  | .ok (some e) => [e]
  | _ => []

structure Session where
  framing : Framing
  buffer : Bytes
  events : List BodyEvent

namespace Session

def call (s : Session) : Call → Session
  | .feed p => { s with buffer := s.buffer ++ p }
  | .decode =>
    let r := Framing.decode s.framing s.buffer
    ⟨r.framing, r.buffer, s.events ++ r.events⟩

def run (f : Framing) (calls : List Call) : Session := calls.foldl call ⟨f, [], []⟩

end Session

inductive Stands : Framing → Framing → List BodyEvent → Prop
  | chunked {s : Chunked.State} {es : List BodyEvent} (reported : Chunked.Reported s es) :
      Stands (.chunked .size) (.chunked s) es
  | length {n left : Nat} {es : List BodyEvent} (counted : (payload es).length + left = n) :
      Stands (.length n) (.length left) es
  | untilClose (es : List BodyEvent) : Stands .untilClose .untilClose es
  | empty (reported : Bool) (es : List BodyEvent) : Stands (.empty false) (.empty reported) es

variable {f g : Framing} {es : List BodyEvent} {n left : Nat}

theorem Fresh.stands (h : f.Fresh) : f.Stands f [] := by
  cases f with
  | chunked s =>
    obtain rfl : s = .size := h
    exact .chunked (.size [])
  | length n => exact .length (Nat.zero_add n)
  | untilClose => exact .untilClose []
  | empty reported =>
    obtain rfl : reported = false := h
    exact .empty false []

theorem events_ofChunkedReply (r : Chunked.Reply) : (ofChunkedReply r).events = r.events := by
  obtain ⟨found, state, buffer⟩ := r
  cases found with
  | error fault => rfl
  | ok o => cases o <;> rfl

theorem readLength_stands (h : (payload es).length + left = n) (b : Bytes) :
    Stands (.length n) (readLength left b).framing (es ++ (readLength left b).events) := by
  unfold readLength
  split
  · rename_i hleft
    apply Stands.length
    rw [payload_append, List.length_append, ← hleft]
    exact h
  · split
    · apply Stands.length
      rw [payload_append, List.length_append]
      exact h
    · have hdata : payload [.data (b.take left)] = b.take left := List.append_nil _
      have hle : (b.take left).length ≤ left := by
        rw [List.length_take]
        exact Nat.min_le_left _ _
      apply Stands.length
      simp only [Reply.events, payload_append, hdata, List.length_append]
      omega

theorem decode_stands (h : f.Stands g es) (b : Bytes) :
    f.Stands (g.decode b).framing (es ++ (g.decode b).events) := by
  cases h with
  | chunked reported =>
    rw [decode, events_ofChunkedReply]
    exact .chunked (Chunked.decode_reports reported b)
  | length counted => exact readLength_stands counted b
  | untilClose => exact .untilClose _
  | empty => exact .empty _ _

theorem call_stands {s : Session} (h : f.Stands s.framing s.events) (c : Call) :
    f.Stands (s.call c).framing (s.call c).events := by
  cases c with
  | feed p => exact h
  | decode => exact decode_stands h s.buffer

theorem run_stands (h : f.Fresh) (calls : List Call) :
    f.Stands (Session.run f calls).framing (Session.run f calls).events :=
  List.foldlRecOn (motive := fun s : Session => f.Stands s.framing s.events) calls Session.call
    h.stands fun _ hs c _ => call_stands hs c

def Concluded : Framing → List BodyEvent → Prop
  | chunked _, es => .done ∈ es
  | length n, es => (payload es).length = n
  | untilClose, _ | empty _, _ => True

theorem finish_chunked_of_ne {s : Chunked.State} (h : s ≠ .done) : finish (.chunked s) =
    .error (.chunkDecode "connection closed in the middle of a chunked body") := by
  cases s with
  | done => exact absurd rfl h
  | _ => rfl

theorem finish_chunked {s : Chunked.State} : finish (.chunked s) = .ok () ↔ s = .done := by
  by_cases hs : s = .done
  · rw [hs]
    exact iff_of_true rfl rfl
  · rw [finish_chunked_of_ne hs]
    exact iff_of_false nofun hs

theorem Stands.finish_iff (h : f.Stands g es) :
    g.finish = .ok () ↔ f.Concluded es ∧ ∀ n, f ≠ .length n := by
  cases h with
  | chunked reported =>
    rw [finish_chunked, Concluded, reported.done_mem_iff]
    exact (and_iff_left nofun).symm
  | length counted => exact iff_of_false nofun fun hne => hne.2 _ rfl
  | untilClose => exact iff_of_true rfl ⟨trivial, nofun⟩
  | empty => exact iff_of_true rfl ⟨trivial, nofun⟩

theorem Stands.finish_length (h : Stands (Framing.length n) g es) :
    ∃ left, (payload es).length + left = n ∧ g.finish = .error (.read
      ⟨.unexpectedEof, s!"connection closed with {left} body bytes outstanding"⟩) := by
  cases h with
  | length counted => exact ⟨_, counted, rfl⟩

theorem Stands.finish_chunks {s : Chunked.State} (h : Stands (Framing.chunked s) g es)
    (hdone : .done ∉ es) : g.finish =
      .error (.chunkDecode "connection closed in the middle of a chunked body") := by
  cases h with
  | chunked reported => exact finish_chunked_of_ne (mt reported.done_mem_iff.mpr hdone)

/-- Whatever was fed and decoded, the end of the connection is accepted exactly behind a body that
is concluded and whose length was not declared. Behind a declared length it never is: the failure
tells how many bytes are missing, even where none is. -/
theorem finish_accepts {head : Head} {method : String} (h : ofHead head method = .ok f)
    (calls : List Call) :
    let s := Session.run f calls
    (s.framing.finish = .ok () ↔ f.Concluded s.events ∧ ∀ n, f ≠ .length n) ∧
    (∀ n, f = .length n → ∃ left, (payload s.events).length + left = n ∧
      s.framing.finish = .error (.read
        ⟨.unexpectedEof, s!"connection closed with {left} body bytes outstanding"⟩)) ∧
    (∀ state, f = .chunked state → .done ∉ s.events → s.framing.finish =
      .error (.chunkDecode "connection closed in the middle of a chunked body")) := by
  have hstands := run_stands (fresh_of_ofHead h) calls
  refine ⟨hstands.finish_iff, ?_, ?_⟩
  · rintro n rfl
    exact hstands.finish_length
  · rintro state rfl hdone
    exact hstands.finish_chunks hdone

def hello : Head := .new 200 "OK" [("Content-Length", "5")]

def helloCalls : List Call := [.feed "hel".toUTF8.toList, .decode, .decode]

theorem finish_accepts_sample : ofHead hello "GET" = .ok (.length 5) ∧
    let s := Session.run (.length 5) helloCalls
    (s.framing.finish = .ok () ↔ (length 5).Concluded s.events ∧ ∀ n, length 5 ≠ .length n) ∧
    (∀ n, length 5 = .length n → ∃ left, (payload s.events).length + left = n ∧
      s.framing.finish = .error (.read
        ⟨.unexpectedEof, s!"connection closed with {left} body bytes outstanding"⟩)) ∧
    (∀ state, length 5 = .chunked state → .done ∉ s.events → s.framing.finish =
      .error (.chunkDecode "connection closed in the middle of a chunked body")) := by
  have hframing : ofHead hello "GET" = .ok (.length 5) := rfl
  exact ⟨hframing, finish_accepts hframing helloCalls⟩

theorem finish_refuses_whole :
    let s := Session.run (.length 5) [.feed "hello".toUTF8.toList, .decode]
    ofHead hello "GET" = .ok (.length 5) ∧ (length 5).Concluded s.events ∧
      s.framing.finish ≠ .ok () ∧
    ofHead (.new 200 "OK" [("Content-Length", "0")]) "GET" = .ok (.length 0) ∧
      (length 0).Concluded [] ∧ (Session.run (.length 0) []).framing.finish ≠ .ok () := by
  have hnever : ∀ n calls, (Session.run (.length n) calls).framing.finish ≠ .ok () := by
    intro n calls hok
    have hstands := run_stands (f := .length n) trivial calls
    exact (hstands.finish_iff.mp hok).2 n rfl
  have hwhole : (payload (Session.run (.length 5)
      [.feed "hello".toUTF8.toList, .decode]).events).length = 5 := by decide +kernel
  exact ⟨rfl, hwhole, hnever 5 _, rfl, rfl, hnever 0 _⟩

end HttpRelay.Framing
