import HttpRelay.Exchange.Opening
import HttpRelay.Proofs.Exchange.Runs
import HttpRelay.Proofs.Wire.Writes

namespace HttpRelay

def Failure.IsLate : Failure → Prop
  | .unexpectedStatus .. | .read _ | .malformedResponse _ | .chunkDecode _
  | .decompression .. => True
  | _ => False

def Failure.IsReception (e : Failure) : Prop := e = .unexpectedClose ∨ e.IsLate

theorem Failure.IsLate.ne_unexpectedClose {e : Failure} (h : e.IsLate) :
    e ≠ .unexpectedClose := by
  rintro rfl
  exact h

def Incoming.ClosesAtOnce (i : Incoming) : Prop :=
  (i.arrivals = [] ∧ i.ending = .closed) ∨
    ∃ f rest, i.arrivals = .fault f :: rest ∧ f.isClose = true

namespace Outgoing

variable {o p : Outgoing} {bs : Bytes} {failure : IoFault → Failure}

def wrote (o : Outgoing) (bs : Bytes) : List Effect := (o.writeAll bs).parts.map .wrote

theorem writtenBytes_wrote (o : Outgoing) (bs : Bytes) :
    Effect.writtenBytes (o.wrote bs) = bs.take (o.through bs.length) := by
  have hparts : (o.wrote bs).filterMap Effect.written? = (o.writeAll bs).parts := by
    rw [wrote, List.filterMap_map]
    exact List.filterMap_some
  rw [Effect.writtenBytes, hparts, flatten_writeAll]

theorem wrote_wire (o : Outgoing) (bs : Bytes) : ∀ e ∈ o.wrote bs, e.IsWire := by
  intro e he
  obtain ⟨part, -, rfl⟩ := List.mem_map.mp he
  trivial

theorem send_of_takes (h : o.Takes bs.length) (failure : IoFault → Failure) :
    o.send bs failure =
      ⟨o.wrote bs ++ [.flushed], some (.ok (o.writeAll bs).outgoing.flush.2)⟩ := by
  have hflush : (o.writeAll bs).outgoing.flush = (none, (o.writeAll bs).outgoing.flush.2) :=
    Prod.ext ((o.flush_writeAll bs).trans h.flushes) rfl
  unfold send
  dsimp only
  rw [(o.writeAll_fault_eq_none_iff bs).mpr h.through, hflush]
  rfl

theorem send_of_not_takes (h : ¬ o.Takes bs.length) (failure : IoFault → Failure) :
    ∃ fault, o.send bs failure = ⟨o.wrote bs, some (.error (failure fault))⟩ := by
  unfold send
  dsimp only
  split
  · exact ⟨_, rfl⟩
  · exact ⟨_, rfl⟩
  · rename_i hwritten hflush
    have hflushes : o.flush.1 = none := by rw [← o.flush_writeAll bs, hflush]
    exact absurd ⟨(o.writeAll_fault_eq_none_iff bs).mp hwritten, hflushes⟩ h

theorem send_wire (o : Outgoing) (bs : Bytes) (failure : IoFault → Failure) :
    (o.send bs failure).Only Effect.IsWire := by
  by_cases h : o.Takes bs.length
  · rw [send_of_takes h]
    intro e he
    rcases List.mem_append.mp he with hl | hr
    · exact o.wrote_wire bs e hl
    · rw [List.mem_singleton.mp hr]
      trivial
  · obtain ⟨fault, hs⟩ := send_of_not_takes h failure
    rw [hs]
    exact o.wrote_wire bs

theorem takes_of_ok (h : (o.send bs failure).outcome = some (.ok p)) : o.Takes bs.length := by
  apply Classical.byContradiction
  intro hn
  obtain ⟨fault, hs⟩ := send_of_not_takes hn failure
  rw [hs] at h
  cases h

theorem send_of_ok (h : (o.send bs failure).outcome = some (.ok p)) :
    Effect.writtenBytes (o.send bs failure).effects = bs ∧
      .flushed ∈ (o.send bs failure).effects := by
  have ht := takes_of_ok h
  rw [send_of_takes ht]
  refine ⟨?_, List.mem_append_right _ List.mem_cons_self⟩
  rw [Effect.writtenBytes_append, writtenBytes_wrote, ht.through, List.take_length]
  exact List.append_nil bs

theorem send_error {e : Failure} (h : (o.send bs failure).outcome = some (.error e)) :
    ∃ fault, e = failure fault := by
  by_cases ht : o.Takes bs.length
  · rw [send_of_takes ht] at h
    cases h
  · obtain ⟨fault, hs⟩ := send_of_not_takes ht failure
    rw [hs] at h
    exact ⟨fault, (Except.error.inj (Option.some.inj h)).symm⟩

end Outgoing

namespace HeadSearch

variable {received : Bool} {buffer : Bytes} {ending : Ending} {arrivals : List Arrival}

theorem look_nil : look [] = ⟨[], none, []⟩ := by
  rw [look]
  rfl

theorem look_error {buffer : Bytes} {e : Failure}
    (h : (look buffer).settled = some (.error e)) : ∃ reason, e = .malformedResponse reason := by
  fun_induction look buffer with
  | case1 buffer s hs =>
    split at h
    · exact ⟨_, (Except.error.inj (Option.some.inj h)).symm⟩
    · cases h
  | case2 => exact ⟨_, (Except.error.inj (Option.some.inj h)).symm⟩
  | case3 _ _ _ _ _ _ ih => exact ih h
  | case4 => cases h

theorem closedEarly_reception (received : Bool) : (closedEarly received).IsReception := by
  cases received with
  | false => exact .inl rfl
  | true => exact .inr trivial

theorem look_quiet (l : Look) : ∀ e ∈ l.effects, e.IsQuiet := by
  intro e he
  obtain ⟨status, -, rfl⟩ := List.mem_map.mp he
  trivial

theorem asked_quiet (l : Look) : ∀ e ∈ l.effects ++ [.asked], e.IsQuiet := by
  intro e he
  rcases List.mem_append.mp he with hl | hr
  · exact look_quiet l e hl
  · rw [List.mem_singleton.mp hr]
    trivial

inductive Searches (ending : Ending) : Bool → Bytes → List Arrival → HeadSearch → Prop
  | settled {received : Bool} {buffer : Bytes} {arrivals : List Arrival}
    {outcome : Except Failure Head} (h : (look buffer).settled = some outcome) :
    Searches ending received buffer arrivals
      ⟨(look buffer).effects, some outcome, (look buffer).buffer, ⟨arrivals, ending⟩⟩
  | ended {received : Bool} {buffer : Bytes} (h : (look buffer).settled = none) :
    Searches ending received buffer []
      ⟨(look buffer).effects ++ [.asked], ending.outcome (.error (closedEarly received)),
        (look buffer).buffer, ⟨[], ending⟩⟩
  | data {received : Bool} {buffer bytes : Bytes} {filled : bytes ≠ []}
    {arrivals : List Arrival} {s : HeadSearch} (h : (look buffer).settled = none)
    (hs : Searches ending true ((look buffer).buffer ++ bytes) arrivals s) :
    Searches ending received buffer (.data bytes filled :: arrivals)
      (s.after ((look buffer).effects ++ [.asked]))
  | fault {received : Bool} {buffer : Bytes} {arrivals : List Arrival} {f : IoFault}
    (h : (look buffer).settled = none) :
    Searches ending received buffer (.fault f :: arrivals)
      ⟨(look buffer).effects ++ [.asked],
        some (.error (if f.isClose then closedEarly received else .read f)),
        (look buffer).buffer, ⟨arrivals, ending⟩⟩

theorem searches (received : Bool) (buffer : Bytes) (ending : Ending) (arrivals : List Arrival) :
    Searches ending received buffer arrivals (search received buffer ending arrivals) := by
  induction arrivals generalizing received buffer with
  | nil =>
    rw [search]
    cases hl : (look buffer).settled with
    | some outcome => exact .settled hl
    | none => exact .ended hl
  | cons a arrivals ih =>
    rw [search.eq_def]
    dsimp only
    cases hl : (look buffer).settled with
    | some outcome => exact .settled hl
    | none =>
      cases a with
      | data bytes filled => exact .data hl (ih _ _)
      | fault f => exact .fault hl

section Searches

variable {ending : Ending} {received : Bool} {buffer : Bytes} {arrivals : List Arrival}
  {s : HeadSearch} (h : Searches ending received buffer arrivals s)

include h

theorem Searches.quiet : ∀ e ∈ s.effects, e.IsQuiet := by
  induction h with
  | settled => exact look_quiet _
  | ended | fault => exact asked_quiet _
  | data _ _ ih =>
    intro e he
    rcases List.mem_append.mp he with hl | hr
    · exact asked_quiet _ e hl
    · exact ih e hr

theorem Searches.error {e : Failure} (ho : s.outcome = some (.error e)) :
    e = closedEarly received ∨ e.IsLate := by
  induction h with
  | settled hl =>
    obtain ⟨reason, rfl⟩ := look_error (hl.trans ho)
    exact .inr trivial
  | ended =>
    cases ending with
    | silent => cases ho
    | closed => exact .inl (Except.error.inj (Option.some.inj ho)).symm
  | data _ _ ih =>
    rcases ih ho with rfl | hlate
    · exact .inr trivial
    · exact .inr hlate
  | @fault received _ _ f =>
    obtain rfl := Except.error.inj (Option.some.inj ho)
    cases f.isClose with
    | true => exact .inl rfl
    | false => exact .inr trivial

theorem Searches.ne_unexpectedClose (hr : received = true) :
    s.outcome ≠ some (.error .unexpectedClose) := by
  subst hr
  intro ho
  rcases h.error ho with he | hlate
  · cases he
  · exact hlate.ne_unexpectedClose rfl

theorem Searches.reception : s.run.FailsOnly Failure.IsReception := by
  intro e he
  rw [run] at he
  cases ho : s.outcome with
  | none =>
    rw [ho] at he
    cases he
  | some o =>
    cases o with
    | ok head =>
      rw [ho] at he
      cases he
    | error e' =>
      rw [ho] at he
      obtain rfl := Except.error.inj (Option.some.inj he)
      rcases h.error ho with rfl | hlate
      · exact closedEarly_reception received
      · exact .inr hlate

end Searches

theorem nextHead_unexpectedClose_iff (incoming : Incoming) :
    (nextHead [] incoming).outcome = some (.error .unexpectedClose) ↔
      incoming.ClosesAtOnce := by
  obtain ⟨arrivals, ending⟩ := incoming
  cases arrivals with
  | nil => cases ending <;> simp [nextHead, search, look_nil, Ending.outcome, closedEarly,
      Incoming.ClosesAtOnce]
  | cons a rest =>
    cases a with
    | data bytes filled =>
      have hne := (searches true ([] ++ bytes) ending rest).ne_unexpectedClose rfl
      constructor
      · intro h
        simp only [nextHead, search, look_nil] at h
        exact absurd h hne
      · rintro (⟨h, -⟩ | ⟨f, rest', h, -⟩) <;> simp at h
    | fault f =>
      cases hf : f.isClose <;>
        simp [nextHead, search, look_nil, closedEarly, Incoming.ClosesAtOnce, hf]

theorem run_unexpectedClose_iff (incoming : Incoming) :
    (nextHead [] incoming).run.outcome = some (.error .unexpectedClose) ↔
      incoming.ClosesAtOnce := by
  rw [← nextHead_unexpectedClose_iff, run]
  cases (nextHead [] incoming).outcome with
  | none => simp
  | some o => cases o <;> simp [Except.map]

end HeadSearch

namespace Request

variable {request : Request} {peer : Peer}

theorem validateFields_error {fields : Fields} {e : Failure}
    (h : validateFields fields = .error e) : ∃ reason, e = .invalidRequest reason := by
  induction fields with
  | nil => simp [validateFields] at h
  | cons f rest ih =>
    rw [validateFields] at h
    split at h
    · exact ⟨_, (Except.error.inj h).symm⟩
    · split at h
      · exact ⟨_, (Except.error.inj h).symm⟩
      · exact ih h

theorem encode_error {e : Failure} (h : request.encode = .error e) :
    ∃ reason, e = .invalidRequest reason := by
  have hv : request.validate = .error e := by
    cases hv : request.validate with
    | ok u => simp [encode, hv, bind, Except.bind, pure, Except.pure] at h
    | error e' => simpa [encode, hv, bind, Except.bind] using h
  rw [validate] at hv
  split at hv
  · exact ⟨_, (Except.error.inj hv).symm⟩
  · split at hv
    · exact ⟨_, (Except.error.inj hv).symm⟩
    · exact validateFields_error hv

theorem exchangeHeads_wire (request : Request) (peer : Peer) :
    (request.exchangeHeads peer).Only Effect.IsWire := by
  refine (Run.Only.ofExcept _).bind fun bytes => ?_
  refine (Outgoing.send_wire _ bytes .write).bind fun _ => ?_
  exact fun e he => ((HeadSearch.searches _ _ _ _).quiet e he).isWire

theorem exchangeHeads_of_sent {bytes : Bytes} {p : Outgoing} (he : request.encode = .ok bytes)
    (hs : (peer.outgoing.send bytes .write).outcome = some (.ok p)) :
    request.exchangeHeads peer = (nextHead [] peer.incoming).run.after
      (peer.outgoing.send bytes .write).effects := by
  rw [exchangeHeads, Run.ofExcept_bind, he]
  exact Run.bind_of_ok hs _

theorem exchangeHeads_unexpectedClose_iff :
    (request.exchangeHeads peer).outcome = some (.error .unexpectedClose) ↔
      ∃ bytes p, request.encode = .ok bytes ∧
        (peer.outgoing.send bytes .write).outcome = some (.ok p) ∧
        peer.incoming.ClosesAtOnce := by
  constructor
  · intro h
    rcases Run.bind_error h with he | ⟨bytes, hb, hrest⟩
    · obtain ⟨reason, hr⟩ := encode_error (Option.some.inj he)
      cases hr
    rcases Run.bind_error hrest with hs | ⟨p, hs, -⟩
    · obtain ⟨fault, hf⟩ := Outgoing.send_error hs
      cases hf
    have hb : request.encode = .ok bytes := Option.some.inj hb
    rw [exchangeHeads_of_sent hb hs, Run.after, HeadSearch.run_unexpectedClose_iff] at h
    exact ⟨bytes, p, hb, hs, h⟩
  · rintro ⟨bytes, p, hb, hs, hc⟩
    rw [exchangeHeads_of_sent hb hs, Run.after, HeadSearch.run_unexpectedClose_iff]
    exact hc

end Request

end HttpRelay
