import Mathlib.Control.Monad.Basic
import HttpRelay.Proofs.Exchange.BodyRuns

namespace HttpRelay

def Head.IsPlain (head : Head) : Prop :=
  ContentCoding.normalize head.contentEncoding = "" ∨
    ContentCoding.normalize head.contentEncoding = "identity"

theorem ContentCoding.decode_plain {head : Head} (h : head.IsPlain) (limit : UInt64)
    (body : Bytes) : decode limit body head.contentEncoding = .ok (Utf8.lossy body) := by
  rw [decode]
  exact if_pos h

namespace Request

structure Agree (s : Run Head) (f : Run Snapshot) : Prop where
  succeed : (∃ head, s.outcome = some (.ok head)) ↔ ∃ snapshot, f.outcome = some (.ok snapshot)
  shown : ∀ head snapshot, s.outcome = some (.ok head) → f.outcome = some (.ok snapshot) →
    snapshot.body = String.join (Effect.fragments s.effects) ∧ snapshot.status = head.status ∧
      snapshot.groups.getLast? = some (HeaderBlocks.group head)
  fail : ∀ e, s.outcome = some (.error e) ↔ f.outcome = some (.error e)
  written : Effect.writtenBytes s.effects = Effect.writtenBytes f.effects

theorem Agree.of_error {s : Run Head} {f : Run Snapshot} {e : Failure}
    (hs : s.outcome = some (.error e)) (hf : f.outcome = some (.error e))
    (hw : Effect.writtenBytes s.effects = Effect.writtenBytes f.effects) : Agree s f where
  succeed := by simp [hs, hf]
  shown := by simp [hs]
  fail := by simp [hs, hf]
  written := hw

theorem Agree.of_none {s : Run Head} {f : Run Snapshot} (hs : s.outcome = none)
    (hf : f.outcome = none)
    (hw : Effect.writtenBytes s.effects = Effect.writtenBytes f.effects) : Agree s f where
  succeed := by simp [hs, hf]
  shown := by simp [hs]
  fail := by simp [hs, hf]
  written := hw

theorem Agree.of_ok {s : Run Head} {f : Run Snapshot} {head : Head} {snapshot : Snapshot}
    (hs : s.outcome = some (.ok head)) (hf : f.outcome = some (.ok snapshot))
    (hbody : snapshot.body = String.join (Effect.fragments s.effects))
    (hstatus : snapshot.status = head.status)
    (hgroup : snapshot.groups.getLast? = some (HeaderBlocks.group head))
    (hw : Effect.writtenBytes s.effects = Effect.writtenBytes f.effects) : Agree s f where
  succeed := iff_of_true ⟨head, hs⟩ ⟨snapshot, hf⟩
  shown := by
    intro head' snapshot' hs' hf'
    rw [hs, Option.some.injEq, Except.ok.injEq] at hs'
    rw [hf, Option.some.injEq, Except.ok.injEq] at hf'
    subst hs' hf'
    exact ⟨hbody, hstatus, hgroup⟩
  fail := by simp [hs, hf]
  written := hw

variable {request : Request} {expected : UInt16} {c : Connection} {head : Head} {buffer : Bytes}
  {incoming : Incoming} {framing : Framing}

theorem agree_of_framing
    (h : (request.exchangeHeads c.peer).outcome = some (.ok (head, buffer, incoming)))
    (hs : head.status = expected) (hp : head.IsPlain)
    (hf : Framing.ofHead head request.method = .ok framing)
    (hl : (Receipt.of framing buffer incoming).payload.length ≤ ContentCoding.maxBody.toNat) :
    Agree (request.stream expected c.peer) (request.fetch ContentCoding.maxBody c) := by
  have hw := (writtenBytes_stream h hs hf).trans (writtenBytes_fetch h hf hl).symm
  have hstream := congrArg Run.outcome (stream_of_framing h hs hf)
  have hfetch := congrArg Run.outcome (fetch_of_framing h hf hl)
  rw [ContentCoding.decode_plain hp] at hfetch
  cases ho : (Receipt.of framing buffer incoming).outcome with
  | none =>
    rw [ho] at hstream hfetch
    exact .of_none hstream hfetch hw
  | some o =>
    rw [ho] at hstream hfetch
    cases o with
    | error e => exact .of_error hstream hfetch hw
    | ok u =>
      refine .of_ok hstream hfetch ?_ rfl ?_ hw
      · rw [fragments_stream h hs hf]
        exact (Stream.text_relayed ho).symm
      · simp [Request.snapshot]

/-- Streaming a response and fetching it whole show the same text, fail alike and write alike,
as long as nothing has to be decoded and the body fits. -/
theorem stream_agrees_with_fetch (request : Request) (expected : UInt16) (c : Connection)
    (h : ∀ head buffer incoming,
      (request.exchangeHeads c.peer).outcome = some (.ok (head, buffer, incoming)) →
        head.status = expected ∧ head.IsPlain ∧
          ∀ framing, Framing.ofHead head request.method = .ok framing →
            (Receipt.of framing buffer incoming).payload.length ≤ ContentCoding.maxBody.toNat) :
    Agree (request.stream expected c.peer) (request.fetch ContentCoding.maxBody c) := by
  cases ho : (request.exchangeHeads c.peer).outcome with
  | none =>
    rw [Request.stream, Request.fetch, Run.bind_of_none ho, Run.bind_of_none ho]
    exact .of_none rfl rfl rfl
  | some o =>
    cases o with
    | error e =>
      rw [Request.stream, Request.fetch, Run.bind_of_error ho, Run.bind_of_error ho]
      exact .of_error rfl rfl rfl
    | ok r =>
      obtain ⟨head, buffer, incoming⟩ := r
      obtain ⟨hs, hp, hl⟩ := h head buffer incoming ho
      cases hf : Framing.ofHead head request.method with
      | error e =>
        rw [stream_of_badFraming ho hs hf, fetch_of_badFraming ho hf]
        refine .of_error rfl rfl ?_
        rw [Effect.writtenBytes_append]
        exact List.append_nil _
      | ok framing => exact agree_of_framing ho hs hp hf (hl framing hf)

def samplePeer : Peer where
  incoming :=
    { arrivals := Arrival.pieces
        ["HTTP/1.1 200 OK\r\nContent-Length: 5\r\n\r\nab".toUTF8.toList ++ [0xc3], [0xa9, 0x21]]
      ending := .closed }
  outgoing := ⟨[.takes 3, .takes 7], .takes 5, []⟩

def sampleHead : Head := ⟨1, 200, "OK", [("Content-Length", "5")]⟩

theorem stream_agrees_with_fetch_sample :
    (∀ head buffer incoming,
      ((Request.get "/").exchangeHeads samplePeer).outcome = some (.ok (head, buffer, incoming)) →
        head.status = 200 ∧ head.IsPlain ∧
          ∀ framing, Framing.ofHead head (Request.get "/").method = .ok framing →
            (Receipt.of framing buffer incoming).payload.length ≤ ContentCoding.maxBody.toNat) ∧
    Agree ((Request.get "/").stream 200 samplePeer)
      ((Request.get "/").fetch ContentCoding.maxBody ⟨samplePeer, none⟩) ∧
    Effect.fragments ((Request.get "/").stream 200 samplePeer).effects = ["ab", "é!"] ∧
    ((Request.get "/").fetch ContentCoding.maxBody ⟨samplePeer, none⟩).outcome =
      some (.ok ⟨200, [HeaderBlocks.group sampleHead], "abé!"⟩) := by
  have h : ∀ head buffer incoming,
      ((Request.get "/").exchangeHeads samplePeer).outcome = some (.ok (head, buffer, incoming)) →
        head.status = 200 ∧ head.IsPlain ∧
          ∀ framing, Framing.ofHead head (Request.get "/").method = .ok framing →
            (Receipt.of framing buffer incoming).payload.length ≤ ContentCoding.maxBody.toNat := by
    intro head buffer incoming ho
    have hval : ((Request.get "/").exchangeHeads samplePeer).outcome = some (.ok (sampleHead,
        [0x61, 0x62, 0xc3], ⟨Arrival.pieces [[0xa9, 0x21]], .closed⟩)) := by decide +kernel
    rw [hval] at ho
    simp only [Option.some.injEq, Except.ok.injEq, Prod.mk.injEq] at ho
    obtain ⟨rfl, rfl, rfl⟩ := ho
    refine ⟨rfl, by unfold Head.IsPlain; decide +kernel, ?_⟩
    intro framing hf
    have hfr : Framing.ofHead sampleHead (Request.get "/").method = .ok (.length 5) := by
      decide +kernel
    rw [hfr] at hf
    obtain rfl := Except.ok.inj hf
    decide +kernel
  exact ⟨h, stream_agrees_with_fetch _ _ ⟨samplePeer, none⟩ h, by decide +kernel,
    by decide +kernel⟩

end Request

end HttpRelay
