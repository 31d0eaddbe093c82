import HttpRelay.Proofs.Exchange.BodyRuns
import HttpRelay.Proofs.Exchange.Openings
import HttpRelay.Proofs.Http.Codings
import HttpRelay.Proofs.Http.Lengths

namespace HttpRelay

namespace Framing

variable {f : Framing} {b : Bytes} {e : Failure}

theorem ofHead_error {head : Head} {method : String}
    (h : ofHead head method = .error e) : ∃ reason, e = .malformedResponse reason := by
  rw [ofHead] at h
  split at h
  · simp at h
  · split at h
    · simp at h
    · cases hc : head.contentLength with
      | ok n => simp [hc, Except.map] at h
      | error e' =>
        simp only [hc, Except.map, Except.error.injEq] at h
        rw [Head.contentLength, h] at hc
        exact Head.lengthFrom_error hc

theorem decode_error (h : (decode f b).found = .error e) : ∃ reason, e = .chunkDecode reason := by
  cases f with
  | chunked s =>
    obtain ⟨fault, -, he⟩ := fault_ofChunkedReply.mp h
    exact ⟨fault.message, he⟩
  | length n =>
    simp only [decode, readLength] at h
    split at h
    · simp at h
    · split at h <;> simp at h
  | untilClose => simp [decode, readAll] at h
  | empty reported => simp [decode, readNothing] at h

theorem drain_broken (h : (drain f b).stop = .broken e) :
    ∃ reason, e = .chunkDecode reason := by
  fun_induction drain f b with
  | case1 f b failure hf =>
    simp only [Stop.broken.injEq] at h
    exact decode_error (h ▸ hf)
  | case2 => simp at h
  | case3 => simp at h
  | case4 _ _ _ _ _ _ ih => exact ih h

theorem drain_late (h : (drain f b).stop = .broken e) : e.IsLate := by
  obtain ⟨reason, rfl⟩ := drain_broken h
  trivial

theorem finish_late (h : f.finish = .error e) : e.IsLate := by
  unfold finish at h
  split at h <;> cases h
  · trivial
  · trivial

end Framing

theorem Receipt.collect_late {framing : Framing} {buffer : Bytes} {ending : HttpRelay.Ending}
    {arrivals : List Arrival} {e : Failure}
    (h : (collect framing buffer ending arrivals).outcome = some (.error e)) : e.IsLate := by
  induction arrivals generalizing framing buffer with
  | nil =>
    rw [collect] at h
    cases hd : (framing.drain buffer).stop with
    | complete =>
      simp only [hd] at h
      cases h
    | broken failure =>
      simp only [hd] at h
      obtain rfl := Except.error.inj (Option.some.inj h)
      exact Framing.drain_late hd
    | hungry =>
      simp only [hd] at h
      cases ending with
      | silent => cases h
      | closed => exact Framing.finish_late (Option.some.inj h)
  | cons a arrivals ih =>
    rw [collect.eq_def] at h
    cases hd : (framing.drain buffer).stop with
    | complete =>
      simp only [hd] at h
      cases h
    | broken failure =>
      simp only [hd] at h
      obtain rfl := Except.error.inj (Option.some.inj h)
      exact Framing.drain_late hd
    | hungry =>
      cases a with
      | data bytes filled =>
        simp only [hd, after] at h
        exact ih h
      | fault f =>
        simp only [hd] at h
        have h := Option.some.inj h
        split at h
        · exact Framing.finish_late h
        · obtain rfl := Except.error.inj h
          trivial

namespace Fetch

theorem collect_error {limit : UInt64} {size : Nat} {outcome : Option (Except Failure Unit)}
    {kept : List Bytes} {signals : List Signal} {e : Failure}
    (h : (collect limit outcome kept size signals).outcome = some (.error e)) :
    outcome = some (.error e) ∨ e = tooLarge limit := by
  induction signals generalizing size kept with
  | nil =>
    cases outcome with
    | none => simp [collect] at h
    | some o =>
      cases o with
      | ok u => simp [collect, Except.map] at h
      | error e' =>
        have he : e' = e := by simpa [collect, Except.map] using h
        exact .inl (by rw [he])
  | cons s signals ih =>
    cases s with
    | asked => exact ih h
    | event v =>
      cases v with
      | data segment =>
        rw [collect] at h
        split at h
        · exact .inr (by simpa [Run.fail, eq_comm] using h)
        · exact ih h
      | _ => exact ih h

theorem collect_quiet (limit : UInt64) (size : Nat) (outcome : Option (Except Failure Unit))
    (kept : List Bytes) (signals : List Signal) :
    (collect limit outcome kept size signals).Only Effect.IsQuiet := by
  induction signals generalizing size kept with
  | nil =>
    intro e he
    exact absurd he List.not_mem_nil
  | cons s signals ih =>
    cases s with
    | asked =>
      refine Run.Only.after ?_ (ih size kept)
      intro e he
      rw [List.mem_singleton.mp he]
      trivial
    | event v =>
      cases v with
      | data segment =>
        rw [collect]
        split
        · exact Run.Only.ofExcept (.error (tooLarge limit))
        · exact ih _ _
      | _ => exact ih size kept

end Fetch

namespace Head

variable (head : Head) (method : String)

theorem framing_quiet : (head.framing method).Only Effect.IsQuiet := by
  refine (Run.Only.ofExcept _).bind fun framing => ?_
  exact (Run.Only.act trivial).bind fun _ => Run.Only.ofExcept (.ok framing)

theorem framing_late : (head.framing method).FailsOnly Failure.IsLate := by
  apply Run.FailsOnly.bind
  · apply Run.FailsOnly.ofExcept
    intro e he
    obtain ⟨reason, rfl⟩ := Framing.ofHead_error he
    trivial
  · exact fun framing _ => (Run.FailsOnly.act _).bind fun _ _ => .pure framing

end Head

namespace Request

variable (request : Request)

def relay (expected : UInt16) (answer : Head × Bytes × Incoming) : Run Head := do
  let (head, buffer, incoming) := answer
  Run.log .debug .engine s!"{request.method} {request.target} -> {head.status} {head.reason}"
  if head.status ≠ expected then
    Run.fail (.unexpectedStatus head.status head.reason)
  else do
    let framing ← head.framing request.method
    (Receipt.of framing buffer incoming).relayed
    pure head

def gather (limit : UInt64) (c : Connection) (answer : Head × Bytes × Incoming) : Run Snapshot := do
  let (head, buffer, incoming) := answer
  let framing ← head.framing request.method
  let body ← (Receipt.of framing buffer incoming).gathered limit
  let text ← Run.ofExcept (ContentCoding.decode limit body head.contentEncoding)
  pure ⟨head.status, (c.tunnelHead.toList ++ [head]).map HeaderBlocks.group, text⟩

theorem stream_eq_relay (expected : UInt16) (peer : Peer) :
    request.stream expected peer = request.exchangeHeads peer >>= request.relay expected := by
  refine bind_congr fun answer => ?_
  simp only [relay, Stream.relay_eq_relayed]

theorem fetch_eq_gather (limit : UInt64) (c : Connection) :
    request.fetch limit c = request.exchangeHeads c.peer >>= request.gather limit c := by
  refine bind_congr fun answer => ?_
  simp only [gather, Fetch.gather_eq_gathered]

variable (answer : Head × Bytes × Incoming)

theorem relay_intake (expected : UInt16) :
    (request.relay expected answer).Only Effect.IsIntake := by
  refine (Run.Only.act trivial).bind fun _ => ?_
  split
  · exact Run.Only.ofExcept (.error _)
  · refine ((answer.1.framing_quiet _).imp fun _ => Effect.IsQuiet.isIntake).bind fun _ => ?_
    refine Run.Only.bind ?_ fun _ => Run.Only.ofExcept (.ok answer.1)
    exact Stream.effects_intake _ _ _

theorem relay_late (expected : UInt16) :
    (request.relay expected answer).FailsOnly Failure.IsLate := by
  refine (Run.FailsOnly.act _).bind fun _ _ => ?_
  split
  · exact .fail trivial
  · refine (answer.1.framing_late _).bind fun _ _ => ?_
    refine Run.FailsOnly.bind ?_ fun _ _ => .pure answer.1
    exact fun e he => Receipt.collect_late he

theorem gather_quiet (limit : UInt64) (c : Connection) :
    (request.gather limit c answer).Only Effect.IsQuiet := by
  refine (answer.1.framing_quiet _).bind fun _ => ?_
  refine (Fetch.collect_quiet _ _ _ _ _).bind fun _ => ?_
  exact (Run.Only.ofExcept _).bind fun _ => Run.Only.ofExcept (.ok _)

theorem gather_late (limit : UInt64) (c : Connection) :
    (request.gather limit c answer).FailsOnly Failure.IsLate := by
  refine (answer.1.framing_late _).bind fun _ _ => ?_
  apply Run.FailsOnly.bind
  · intro e he
    rcases Fetch.collect_error he with hreceipt | rfl
    · exact Receipt.collect_late hreceipt
    · trivial
  intro body _
  refine Run.FailsOnly.bind ?_ fun _ _ => .pure _
  apply Run.FailsOnly.ofExcept
  intro e he
  obtain ⟨reason, rfl⟩ := ContentCoding.decode_error he
  trivial

end Request

end HttpRelay
