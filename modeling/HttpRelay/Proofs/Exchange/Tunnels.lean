import HttpRelay.Proofs.Exchange.Endings
import HttpRelay.Proofs.Exchange.Failures
import HttpRelay.Proofs.Exchange.HeadReads
import HttpRelay.Proofs.Exchange.Reconnects

namespace HttpRelay

namespace Outgoing

variable {o : Outgoing} {bytes : Bytes} {failure : IoFault → Failure}

theorem send_of_flushed (h : .flushed ∈ (o.send bytes failure).effects) :
    ∃ p, (o.send bytes failure).outcome = some (.ok p) := by
  by_cases ht : o.Takes bytes.length
  · rw [send_of_takes ht]
    exact ⟨_, rfl⟩
  · obtain ⟨fault, hs⟩ := send_of_not_takes ht failure
    rw [hs] at h
    obtain ⟨part, -, hpart⟩ := List.mem_map.mp h
    cases hpart

theorem count_asked_send (o : Outgoing) (bytes : Bytes) (failure : IoFault → Failure) :
    (o.send bytes failure).effects.count .asked = 0 := by
  apply List.count_eq_zero.mpr
  by_cases ht : o.Takes bytes.length
  · simp [send_of_takes ht, wrote]
  · obtain ⟨fault, hs⟩ := send_of_not_takes ht failure
    simp [hs, wrote]

end Outgoing

namespace Proxy

variable {proxy : Proxy} {target : Endpoint} {peer : Peer} {outgoing : Outgoing} {s : HeadSearch}
  {text : String}

def sending (proxy : Proxy) (text : String) (peer : Peer) : Run Outgoing :=
  peer.outgoing.send (Utf8.encode text) fun f => proxy.handshake f.text

def answer (proxy : Proxy) (target : Endpoint) (outgoing : Outgoing) (s : HeadSearch) :
    Option (Except Failure (Head × Peer)) :=
  s.outcome.map fun
    | .error e => .error (proxy.answerFailure e)
    | .ok head =>
      (proxy.judge target head s.buffer).map fun head => (head, ⟨s.incoming, outgoing⟩)

theorem judge_ok_iff {head accepted : Head} {buffer : Bytes} :
    proxy.judge target head buffer = .ok accepted ↔
      head = accepted ∧ buffer = [] ∧ head.status = 200 := by
  unfold judge
  by_cases hstatus : head.status = 200
  · cases buffer <;> simp [hstatus]
  · simp [hstatus]

theorem judge_tunnel_iff {head : Head} {buffer : Bytes} {authority reason : String}
    {status : UInt16} :
    proxy.judge target head buffer = .error (.proxyTunnel authority status reason) ↔
      target.authority = authority ∧ head.status = status ∧ head.reason = reason ∧
        status ≠ 200 := by
  unfold judge
  by_cases hstatus : head.status = 200
  · refine iff_of_false ?_ fun h => h.2.2.2 (h.2.1.symm.trans hstatus)
    cases buffer <;> simp [hstatus, handshake]
  · simp only [ne_eq, hstatus, not_false_eq_true, if_true, Except.error.injEq,
      Failure.proxyTunnel.injEq]
    constructor
    · rintro ⟨rfl, rfl, rfl⟩
      exact ⟨rfl, rfl, rfl, hstatus⟩
    · rintro ⟨rfl, rfl, rfl, -⟩
      exact ⟨rfl, rfl, rfl⟩

theorem judge_error {head : Head} {buffer : Bytes} {e : Failure}
    (h : proxy.judge target head buffer = .error e) :
    (∃ authority status reason, e = .proxyTunnel authority status reason) ∨
      ∃ reason, e = proxy.handshake reason := by
  unfold judge at h
  split at h
  · exact .inl ⟨_, _, _, (Except.error.inj h).symm⟩
  · split at h
    · cases h
    · exact .inr ⟨_, (Except.error.inj h).symm⟩

theorem answerFailure_eq (proxy : Proxy) (e : Failure) :
    ∃ reason, proxy.answerFailure e = proxy.handshake reason := by
  unfold answerFailure
  split <;> exact ⟨_, rfl⟩

theorem answer_of_none (h : s.outcome = none) : proxy.answer target outgoing s = none := by
  rw [answer, h]
  rfl

theorem answer_of_error {e : Failure} (h : s.outcome = some (.error e)) :
    proxy.answer target outgoing s = some (.error (proxy.answerFailure e)) := by
  rw [answer, h]
  rfl

theorem answer_of_found {head : Head} (h : s.outcome = some (.ok head)) :
    proxy.answer target outgoing s = some ((proxy.judge target head s.buffer).map fun head =>
      (head, ⟨s.incoming, outgoing⟩)) := by
  rw [answer, h]
  rfl

theorem answer_ok_iff {head : Head} {p : Peer} :
    proxy.answer target outgoing s = some (.ok (head, p)) ↔
      (s.outcome = some (.ok head) ∧ s.buffer = []) ∧ head.status = 200 ∧
        p = ⟨s.incoming, outgoing⟩ := by
  constructor
  · intro h
    cases hs : s.outcome with
    | none => cases (answer_of_none hs).symm.trans h
    | some o =>
      cases o with
      | error e => cases (answer_of_error hs).symm.trans h
      | ok found =>
        have hmap := Option.some.inj ((answer_of_found hs).symm.trans h)
        cases hjudge : proxy.judge target found s.buffer with
        | error e =>
          rw [hjudge] at hmap
          cases hmap
        | ok accepted =>
          rw [hjudge] at hmap
          cases hmap
          obtain ⟨rfl, hbuffer, hstatus⟩ := judge_ok_iff.mp hjudge
          exact ⟨⟨rfl, hbuffer⟩, hstatus, rfl⟩
  · rintro ⟨⟨hs, hbuffer⟩, hstatus, rfl⟩
    rw [answer_of_found hs, judge_ok_iff.mpr ⟨rfl, hbuffer, hstatus⟩]
    rfl

theorem answer_error {e : Failure} (h : proxy.answer target outgoing s = some (.error e)) :
    (∃ found, s.outcome = some (.ok found) ∧ proxy.judge target found s.buffer = .error e) ∨
      ∃ reason, e = proxy.handshake reason := by
  cases hs : s.outcome with
  | none => cases (answer_of_none hs).symm.trans h
  | some o =>
    cases o with
    | error failure =>
      obtain ⟨reason, hreason⟩ := answerFailure_eq proxy failure
      have he := Except.error.inj (Option.some.inj ((answer_of_error hs).symm.trans h))
      exact .inr ⟨reason, he.symm.trans hreason⟩
    | ok found =>
      have hmap := Option.some.inj ((answer_of_found hs).symm.trans h)
      cases hjudge : proxy.judge target found s.buffer with
      | error failure =>
        rw [hjudge] at hmap
        cases hmap
        exact .inl ⟨found, rfl, hjudge⟩
      | ok accepted =>
        rw [hjudge] at hmap
        cases hmap

theorem answer_tunnel_iff {authority reason : String} {status : UInt16} :
    proxy.answer target outgoing s = some (.error (.proxyTunnel authority status reason)) ↔
      ∃ head, s.outcome = some (.ok head) ∧ target.authority = authority ∧
        head.status = status ∧ head.reason = reason ∧ status ≠ 200 := by
  constructor
  · intro h
    obtain ⟨head, hs, hjudge⟩ | ⟨reason', he⟩ := answer_error h
    · exact ⟨head, hs, judge_tunnel_iff.mp hjudge⟩
    · cases he
  · rintro ⟨head, hs, hjudge⟩
    rw [answer_of_found hs, judge_tunnel_iff.mpr hjudge]
    rfl

structure Asked (proxy : Proxy) (target : Endpoint) (es : List Effect) : Prop where
  valid : target.validate = .ok ()
  written : ∃ text, proxy.connectRequest target = .ok text ∧
    Effect.writtenBytes es = Utf8.encode text
  flushed : .flushed ∈ es

def Reaches (proxy : Proxy) (target : Endpoint) (outgoing : Outgoing) : Prop :=
  target.validate = .ok () ∧
    ∃ text, proxy.connectRequest target = .ok text ∧ outgoing.Takes (Utf8.encode text).length

theorem negotiate_of_invalid {e : Failure} (h : target.validate = .error e) :
    proxy.negotiate target peer = Run.fail e := by
  rw [negotiate, connectRequest, h]
  rfl

theorem negotiate_of_unsent {e : Failure} (htext : proxy.connectRequest target = .ok text)
    (h : (proxy.sending text peer).outcome = some (.error e)) :
    proxy.negotiate target peer = ⟨(proxy.sending text peer).effects, some (.error e)⟩ := by
  rw [negotiate, htext, Run.ofExcept_bind]
  exact Run.bind_of_error h _

def awaiting (proxy : Proxy) (target : Endpoint) (incoming : Incoming) (outgoing : Outgoing) :
    Run (Head × Peer) := do
  let (head, buffer, incoming) ← (nextHead [] incoming).run.mapFailure proxy.answerFailure
  let head ← Run.ofExcept (proxy.judge target head buffer)
  Run.log .info .tunnel
    s!"Tunnel to {target.authority} established through {proxy.endpoint.authority}"
  pure (head, ⟨incoming, outgoing⟩)

theorem awaiting_eq (proxy : Proxy) (target : Endpoint) (incoming : Incoming)
    (outgoing : Outgoing) : ∃ notes : List Log.Record,
      proxy.awaiting target incoming outgoing =
        ⟨(nextHead [] incoming).effects ++ notes.map .logged,
          proxy.answer target outgoing (nextHead [] incoming)⟩ := by
  have hread : ((nextHead [] incoming).run.mapFailure proxy.answerFailure).outcome =
      ((nextHead [] incoming).outcome.map (·.map fun head =>
        (head, (nextHead [] incoming).buffer, (nextHead [] incoming).incoming))).map
          (·.mapError proxy.answerFailure) := rfl
  cases hs : (nextHead [] incoming).outcome with
  | none =>
    rw [hs] at hread
    rw [awaiting, Run.bind_of_none hread, answer_of_none hs]
    exact ⟨[], congrArg (Run.mk · none) (List.append_nil _).symm⟩
  | some o =>
    rw [hs] at hread
    cases o with
    | error e =>
      rw [awaiting, Run.bind_of_error hread, answer_of_error hs]
      exact ⟨[], congrArg (Run.mk · _) (List.append_nil _).symm⟩
    | ok head =>
      rw [awaiting, Run.bind_of_ok hread, answer_of_found hs]
      dsimp only
      cases proxy.judge target head (nextHead [] incoming).buffer with
      | error e => exact ⟨[], rfl⟩
      | ok accepted => exact ⟨[_], rfl⟩

theorem negotiate_of_sent (htext : proxy.connectRequest target = .ok text)
    (h : (proxy.sending text peer).outcome = some (.ok outgoing)) :
    proxy.negotiate target peer = (proxy.awaiting target peer.incoming outgoing).after
      (proxy.sending text peer).effects := by
  rw [negotiate, htext, Run.ofExcept_bind]
  exact Run.bind_of_ok h (proxy.awaiting target peer.incoming)

inductive Course (proxy : Proxy) (target : Endpoint) (peer : Peer) : Run (Head × Peer) → Prop
  | invalid {reason : String} (h : target.validate = .error (.invalidRequest reason)) :
    Course proxy target peer (Run.fail (.invalidRequest reason))
  | unsent {es : List Effect} {reason : String} (h : target.validate = .ok ())
    (hout : ¬ proxy.Reaches target peer.outgoing) (hes : .flushed ∉ es) :
    Course proxy target peer ⟨es, some (.error (proxy.handshake reason))⟩
  | sent {es : List Effect} {outgoing : Outgoing} (h : Asked proxy target es)
    (hout : proxy.Reaches target peer.outgoing)
    (hes : es.count .asked = (nextHead [] peer.incoming).effects.count .asked) :
    Course proxy target peer ⟨es, proxy.answer target outgoing (nextHead [] peer.incoming)⟩

theorem validate_error {e : Failure} (h : target.validate = .error e) :
    ∃ reason, e = .invalidRequest reason := by
  unfold Endpoint.validate at h
  split at h
  · exact ⟨_, (Except.error.inj h).symm⟩
  · cases h

theorem course_of_sent (hvalid : target.validate = .ok ())
    (htext : proxy.connectRequest target = .ok text)
    (h : (proxy.sending text peer).outcome = some (.ok outgoing)) :
    Course proxy target peer (proxy.negotiate target peer) := by
  obtain ⟨notes, hnotes⟩ := proxy.awaiting_eq target peer.incoming outgoing
  obtain ⟨hwritten, hflushed⟩ := Outgoing.send_of_ok h
  have hquiet : ∀ e ∈ (nextHead [] peer.incoming).effects ++ notes.map .logged,
      e.IsQuiet := by
    intro e he
    rcases List.mem_append.mp he with hsearch | hnote
    · exact (HeadSearch.searches _ _ _ _).quiet e hsearch
    · exact Effect.quiet_logged notes e hnote
  have hnotes_asked : (notes.map Effect.logged).count .asked = 0 := by
    apply List.count_eq_zero.mpr
    simp
  rw [negotiate_of_sent htext h, hnotes]
  apply Course.sent
  · refine ⟨hvalid, ⟨text, htext, ?_⟩, List.mem_append_left _ hflushed⟩
    rw [Effect.writtenBytes_append, Effect.writtenBytes_quiet hquiet, List.append_nil]
    exact hwritten
  · exact ⟨hvalid, text, htext, Outgoing.takes_of_ok h⟩
  · rw [List.count_append, List.count_append, sending, Outgoing.count_asked_send, hnotes_asked,
      Nat.zero_add, Nat.add_zero]

theorem negotiate_course (proxy : Proxy) (target : Endpoint) (peer : Peer) :
    Course proxy target peer (proxy.negotiate target peer) := by
  cases hvalid : target.validate with
  | error e =>
    obtain ⟨reason, rfl⟩ := validate_error hvalid
    rw [negotiate_of_invalid hvalid]
    exact .invalid hvalid
  | ok _ =>
    obtain ⟨text, htext⟩ := connectRequest_of_valid hvalid proxy
    obtain ⟨o, ho, -⟩ := Outgoing.send_settles peer.outgoing (Utf8.encode text) fun f =>
      proxy.handshake f.text
    cases o with
    | ok outgoing => exact course_of_sent hvalid htext ho
    | error e =>
      obtain ⟨fault, rfl⟩ := Outgoing.send_error ho
      rw [negotiate_of_unsent htext ho]
      apply Course.unsent hvalid
      · rintro ⟨-, text', htext', htakes⟩
        obtain rfl := Except.ok.inj (htext.symm.trans htext')
        rw [Outgoing.send_of_takes htakes] at ho
        cases ho
      · intro hflushed
        obtain ⟨p, hp⟩ := Outgoing.send_of_flushed hflushed
        cases ho.symm.trans hp

section Course

variable {r : Run (Head × Peer)}

theorem Course.asked_iff (h : Course proxy target peer r) :
    Asked proxy target r.effects ↔ proxy.Reaches target peer.outgoing := by
  cases h with
  | invalid hinvalid =>
    refine iff_of_false (fun h => ?_) fun h => ?_
    · cases hinvalid.symm.trans h.valid
    · cases hinvalid.symm.trans h.1
  | unsent _ hout hes => exact iff_of_false (fun h => hes h.flushed) hout
  | sent hasked hout _ => exact iff_of_true hasked hout

theorem Course.answered (h : Course proxy target peer r)
    (hreach : proxy.Reaches target peer.outgoing) :
    ∃ outgoing, r.outcome = proxy.answer target outgoing (nextHead [] peer.incoming) := by
  cases h with
  | invalid hinvalid => cases hinvalid.symm.trans hreach.1
  | unsent _ hout _ => exact absurd hreach hout
  | sent _ _ _ => exact ⟨_, rfl⟩

theorem Course.breaks (h : Course proxy target peer r) (hvalid : target.validate = .ok ())
    (hreach : ¬ proxy.Reaches target peer.outgoing) :
    ∃ reason, r.outcome = some (.error (proxy.handshake reason)) := by
  cases h with
  | invalid hinvalid => cases hinvalid.symm.trans hvalid
  | unsent _ _ _ => exact ⟨_, rfl⟩
  | sent _ hout _ => exact absurd hout hreach

theorem Course.opens_iff (h : Course proxy target peer r) {head : Head} :
    (∃ p, r.outcome = some (.ok (head, p))) ↔ Asked proxy target r.effects ∧
      head.status = 200 ∧ ∃ s : HeadSeries, s.final.head = head ∧
        peer.incoming.heard r.effects = s.bytes := by
  cases h with
  | invalid hinvalid =>
    refine iff_of_false ?_ fun h => by cases hinvalid.symm.trans h.1.valid
    rintro ⟨p, hp⟩
    cases hp
  | unsent _ _ hes =>
    refine iff_of_false ?_ fun h => hes h.1.flushed
    rintro ⟨p, hp⟩
    cases hp
  | sent hasked _ hes =>
    dsimp only
    rw [peer.incoming.heard_congr hes]
    constructor
    · rintro ⟨p, hp⟩
      obtain ⟨hs, hstatus, -⟩ := answer_ok_iff.mp hp
      obtain ⟨series, hhead, hheard⟩ := HeadSearch.nextHead_found_iff.mp hs
      exact ⟨hasked, hstatus, series, hhead, hheard.trans (List.append_nil _)⟩
    · rintro ⟨-, hstatus, series, hhead, hheard⟩
      have hs := HeadSearch.nextHead_found_iff.mpr
        ⟨series, hhead, hheard.trans (List.append_nil _).symm⟩
      exact ⟨_, answer_ok_iff.mpr ⟨hs, hstatus, rfl⟩⟩

theorem Course.rest (h : Course proxy target peer r) {head : Head} {p : Peer}
    (hr : r.outcome = some (.ok (head, p))) :
    p.incoming = peer.incoming.unheard r.effects := by
  cases h with
  | invalid => cases hr
  | unsent => cases hr
  | sent _ _ hes =>
    obtain ⟨-, -, rfl⟩ := answer_ok_iff.mp hr
    rw [peer.incoming.unheard_congr hes]
    exact (HeadSearch.searches _ _ _ _).incoming

theorem Course.refused_iff (h : Course proxy target peer r) {authority reason : String}
    {status : UInt16} :
    r.outcome = some (.error (.proxyTunnel authority status reason)) ↔
      Asked proxy target r.effects ∧ authority = target.authority ∧ status ≠ 200 ∧
        ∃ (s : HeadSeries) (behind : Bytes), s.final.head.status = status ∧
          s.final.head.reason = reason ∧ peer.incoming.heard r.effects = s.bytes ++ behind := by
  cases h with
  | invalid hinvalid => exact iff_of_false nofun fun h => by cases hinvalid.symm.trans h.1.valid
  | unsent _ _ hes => exact iff_of_false nofun fun h => hes h.1.flushed
  | sent hasked _ hes =>
    rw [answer_tunnel_iff, peer.incoming.heard_congr hes]
    constructor
    · rintro ⟨head, hs, hauthority, hstatus, hreason, hne⟩
      obtain ⟨series, rfl, hheard⟩ := HeadSearch.nextHead_found_iff.mp ⟨hs, rfl⟩
      exact ⟨hasked, hauthority.symm, hne, series, _, hstatus, hreason, hheard⟩
    · rintro ⟨-, hauthority, hne, s, behind, hstatus, hreason, hs⟩
      obtain ⟨hs, -⟩ := HeadSearch.nextHead_found_iff.mpr ⟨s, rfl, hs⟩
      exact ⟨_, hs, hauthority.symm, hstatus, hreason, hne⟩

theorem Course.failure (h : Course proxy target peer r) {e : Failure}
    (hr : r.outcome = some (.error e)) :
    (target.validate = .error e ∧ ∃ reason, e = .invalidRequest reason) ∨
      (∃ authority status reason, e = .proxyTunnel authority status reason) ∨
        ∃ reason, e = proxy.handshake reason := by
  cases h with
  | invalid hinvalid =>
    cases hr
    exact .inl ⟨hinvalid, _, rfl⟩
  | unsent =>
    cases hr
    exact .inr (.inr ⟨_, rfl⟩)
  | sent =>
    obtain ⟨found, -, hjudge⟩ | hreason := answer_error hr
    · exact .inr (judge_error hjudge)
    · exact .inr (.inr hreason)

section Heads

variable {s : HeadSeries} {ps : List Bytes} {later : List Arrival} {behind : Bytes}

theorem nextHead_of_series (hshort : s.Short) (hps : ps.flatten = s.bytes ++ behind)
    (hi : peer.incoming.arrivals = Arrival.pieces ps ++ later) :
    (nextHead [] peer.incoming).Finds s.final.head behind later peer.incoming.ending := by
  have hleads := hshort.leads behind
  rw [← hps, ← List.nil_append ps.flatten] at hleads
  have hfinds := HeadSearch.finds_of_leads hleads later peer.incoming.ending
  rwa [← hi] at hfinds

theorem Course.judged (h : Course proxy target peer r)
    (hreach : proxy.Reaches target peer.outgoing) (hshort : s.Short)
    (hps : ps.flatten = s.bytes ++ behind)
    (hi : peer.incoming.arrivals = Arrival.pieces ps ++ later) : ∃ o, r.outcome = some o := by
  obtain ⟨outgoing, houtcome⟩ := h.answered hreach
  have hfinds := nextHead_of_series hshort hps hi
  rw [houtcome, answer_of_found hfinds.outcome]
  exact ⟨_, rfl⟩

theorem Course.accepted (h : Course proxy target peer r)
    (hreach : proxy.Reaches target peer.outgoing) (hshort : s.Short) (hps : ps.flatten = s.bytes)
    (hi : peer.incoming.arrivals = Arrival.pieces ps ++ later)
    (hstatus : s.final.head.status = 200) : ∃ outgoing,
      r.outcome = some (.ok (s.final.head, ⟨⟨later, peer.incoming.ending⟩, outgoing⟩)) := by
  obtain ⟨outgoing, houtcome⟩ := h.answered hreach
  obtain ⟨hfound, qs, hleft, hincoming⟩ :=
    nextHead_of_series hshort (hps.trans (List.append_nil _).symm) hi
  obtain ⟨hbuffer, hqs⟩ := List.append_eq_nil_iff.mp hleft
  rw [Arrival.pieces_of_flatten hqs] at hincoming
  rw [houtcome, answer_ok_iff.mpr ⟨⟨hfound, hbuffer⟩, hstatus, rfl⟩, hincoming]
  exact ⟨outgoing, rfl⟩

theorem Course.turnedDown (h : Course proxy target peer r)
    (hreach : proxy.Reaches target peer.outgoing) (hshort : s.Short)
    (hps : ps.flatten = s.bytes ++ behind)
    (hi : peer.incoming.arrivals = Arrival.pieces ps ++ later)
    (hstatus : s.final.head.status ≠ 200) : r.outcome = some (.error
      (.proxyTunnel target.authority s.final.head.status s.final.head.reason)) := by
  obtain ⟨outgoing, houtcome⟩ := h.answered hreach
  have hfinds := nextHead_of_series hshort hps hi
  rw [houtcome]
  exact answer_tunnel_iff.mpr ⟨_, hfinds.outcome, rfl, rfl, rfl, hstatus⟩

end Heads

end Course

/-- What a negotiation comes to: by what it has done and what it has read by then, and by what the
proxy takes in and sends. -/
structure Negotiation (proxy : Proxy) (target : Endpoint) (peer : Peer)
    (r : Run (Head × Peer)) : Prop where
  invalid {e : Failure} : target.validate = .error e →
    r = Run.fail e ∧ ∃ reason, e = .invalidRequest reason
  asked_iff : Asked proxy target r.effects ↔ proxy.Reaches target peer.outgoing
  breaks : target.validate = .ok () → ¬ proxy.Reaches target peer.outgoing →
    ∃ reason, r.outcome = some (.error (.proxyHandshake proxy.endpoint.authority reason))
  judged {s : HeadSeries} {ps : List Bytes} {behind : Bytes} {later : List Arrival} :
    proxy.Reaches target peer.outgoing → s.Short → ps.flatten = s.bytes ++ behind →
      peer.incoming.arrivals = Arrival.pieces ps ++ later → ∃ o, r.outcome = some o
  accepted {s : HeadSeries} {ps : List Bytes} {later : List Arrival} :
    proxy.Reaches target peer.outgoing → s.Short → ps.flatten = s.bytes →
      peer.incoming.arrivals = Arrival.pieces ps ++ later → s.final.head.status = 200 →
        ∃ outgoing,
          r.outcome = some (.ok (s.final.head, ⟨⟨later, peer.incoming.ending⟩, outgoing⟩))
  turnedDown {s : HeadSeries} {ps : List Bytes} {behind : Bytes} {later : List Arrival} :
    proxy.Reaches target peer.outgoing → s.Short → ps.flatten = s.bytes ++ behind →
      peer.incoming.arrivals = Arrival.pieces ps ++ later → s.final.head.status ≠ 200 →
        r.outcome = some (.error
          (.proxyTunnel target.authority s.final.head.status s.final.head.reason))
  opens_iff {head : Head} : (∃ p, r.outcome = some (.ok (head, p))) ↔
    Asked proxy target r.effects ∧ head.status = 200 ∧
      ∃ s : HeadSeries, s.final.head = head ∧ peer.incoming.heard r.effects = s.bytes
  rest {head : Head} {p : Peer} : r.outcome = some (.ok (head, p)) →
    p.incoming = peer.incoming.unheard r.effects ∧ ∃ s : HeadSeries,
      s.final.head = head ∧ peer.incoming.bytes = s.bytes ++ p.incoming.bytes
  refused_iff {authority reason : String} {status : UInt16} :
    r.outcome = some (.error (.proxyTunnel authority status reason)) ↔
      Asked proxy target r.effects ∧ authority = target.authority ∧ status ≠ 200 ∧
        ∃ (s : HeadSeries) (behind : Bytes), s.final.head.status = status ∧
          s.final.head.reason = reason ∧ peer.incoming.heard r.effects = s.bytes ++ behind
  failure {e : Failure} : target.validate = .ok () → r.outcome = some (.error e) →
    (∃ authority status reason, e = .proxyTunnel authority status reason) ∨
      ∃ reason, e = .proxyHandshake proxy.endpoint.authority reason
  final {e : Failure} : r.outcome = some (.error e) → e.isRetryable = false
  returns : peer.incoming.Ends → ∃ o, r.outcome = some o

theorem negotiation (proxy : Proxy) (target : Endpoint) (peer : Peer) :
    Negotiation proxy target peer (proxy.negotiate target peer) := by
  have hcourse := proxy.negotiate_course target peer
  constructor
  case invalid =>
    intro e h
    exact ⟨negotiate_of_invalid h, validate_error h⟩
  case asked_iff => exact hcourse.asked_iff
  case breaks => exact hcourse.breaks
  case judged => exact hcourse.judged
  case accepted => exact hcourse.accepted
  case turnedDown => exact hcourse.turnedDown
  case opens_iff => exact hcourse.opens_iff
  case rest =>
    intro head p h
    obtain ⟨-, -, s, hs, hheard⟩ := hcourse.opens_iff.mp ⟨p, h⟩
    refine ⟨hcourse.rest h, s, hs, ?_⟩
    rw [hcourse.rest h, ← hheard, Incoming.heard_append_unheard]
  case refused_iff => exact hcourse.refused_iff
  case failure =>
    intro e hvalid h
    obtain ⟨hinvalid, -⟩ | hother := hcourse.failure h
    · cases hvalid.symm.trans hinvalid
    · exact hother
  case final =>
    intro e h
    obtain ⟨-, reason, rfl⟩ | ⟨authority, status, reason, rfl⟩ | ⟨reason, rfl⟩ :=
      hcourse.failure h <;> rfl
  case returns =>
    intro h
    obtain ⟨o, ho, -⟩ := proxy.negotiate_settles target h
    exact ⟨o, ho⟩

end Proxy

namespace Sample

def gateway : Proxy := ⟨"http", "proxy.local", 3128, none⟩

def destination : Endpoint := ⟨"example.org", 443⟩

def accepting : Peer where
  incoming :=
    { arrivals := Arrival.pieces [series.bytes.take 9, series.bytes.drop 9] ++
        Arrival.pieces [[0x16, 0x03]]
      ending := .silent }
  outgoing := ⟨[.takes 3, .takes 7], .takesAll, []⟩

end Sample

theorem Proxy.negotiation_sample :
    (Sample.gateway.Reaches Sample.destination Sample.accepting.outgoing ∧
      Sample.series.Short ∧
      [Sample.series.bytes.take 9, Sample.series.bytes.drop 9].flatten = Sample.series.bytes ∧
      Sample.series.final.head.status = 200) ∧
    ∃ outgoing,
      (Sample.gateway.negotiate Sample.destination Sample.accepting).outcome =
        some (.ok (Sample.series.final.head,
          ⟨⟨Arrival.pieces [[0x16, 0x03]], .silent⟩, outgoing⟩)) := by
  have htext : Sample.gateway.connectRequest Sample.destination =
      .ok "CONNECT example.org:443 HTTP/1.1\r\nHost: example.org:443\r\n\r\n" := by
    decide +kernel
  have hreach : Sample.gateway.Reaches Sample.destination Sample.accepting.outgoing :=
    ⟨by decide +kernel, _, htext, by decide +kernel, by decide +kernel⟩
  have hshort : Sample.series.Short := ⟨by decide +kernel, by decide +kernel⟩
  have hbytes : [Sample.series.bytes.take 9, Sample.series.bytes.drop 9].flatten =
      Sample.series.bytes := by decide +kernel
  have hstatus : Sample.series.final.head.status = 200 := by decide +kernel
  exact ⟨⟨hreach, hshort, hbytes, hstatus⟩,
    (negotiation _ _ _).accepted hreach hshort hbytes rfl hstatus⟩

end HttpRelay
