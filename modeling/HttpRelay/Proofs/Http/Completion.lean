import HttpRelay.Proofs.Http.BodyEnds

namespace HttpRelay.Framing

open Chunked (Call payload)

variable {f g : Framing} {b : Bytes} {e : BodyEvent} {es : List BodyEvent} {n : Nat}
  {o : Option BodyEvent}

inductive RunsDry : Framing → Bytes → Prop
  | stop {f : Framing} {b : Bytes} (h : ∀ e, (f.decode b).found ≠ .ok (some e)) : RunsDry f b
  | event {f : Framing} {b : Bytes} {e : BodyEvent} (h : (f.decode b).found = .ok (some e))
      (next : RunsDry (f.decode b).framing (f.decode b).buffer) : RunsDry f b

def Answers (f : Framing) (o : Option BodyEvent) : Prop := ∀ b, f.decode b = ⟨.ok o, f, b⟩

theorem answers_done : (chunked .done).Answers none := fun _ => rfl

theorem answers_reported : (empty true).Answers none := fun _ => rfl

theorem answers_counted : (length 0).Answers (some .done) := fun _ => rfl

theorem Answers.runsDry (h : f.Answers none) (b : Bytes) : RunsDry f b := by
  apply RunsDry.stop
  intro e he
  rw [h b] at he
  cases he

theorem Answers.not_runsDry (h : f.Answers (some e)) (b : Bytes) : ¬ RunsDry f b := by
  intro hdry
  induction hdry with
  | @stop f b hstop =>
    apply hstop e
    rw [h b]
  | @event f b v hv next ih =>
    apply ih
    rw [h b]
    exact h

def closing : Framing → Option BodyEvent
  | length _ => some .done
  | _ => none

theorem closing_eq_none_iff : f.closing = none ↔ ∀ n, f ≠ .length n := by
  cases f with
  | length n => exact iff_of_false nofun fun h => h n rfl
  | _ => exact iff_of_true rfl nofun

theorem closing_decode (f : Framing) (b : Bytes) : (f.decode b).framing.closing = f.closing := by
  cases f with
  | length n =>
    simp only [decode, readLength]
    split
    · rfl
    · split <;> rfl
  | _ => rfl

theorem answers_of_done (h : (f.decode b).found = .ok (some .done)) :
    (f.decode b).framing.Answers f.closing := by
  cases f with
  | chunked s =>
    have hfound : (Chunked.decode s b).found = .ok (some .done) := found_ofChunkedReply.mp h
    have hs : s ≠ .done := by
      rintro rfl
      cases hfound
    have hstate := (Chunked.decode_state hs b).mpr hfound
    simp only [decode, ofChunkedReply, hstate]
    exact answers_done
  | length n =>
    simp only [decode, readLength] at h ⊢
    split at h
    · rename_i hn
      rw [if_pos hn]
      exact answers_counted
    · split at h <;> simp at h
  | untilClose =>
    simp only [decode, readAll] at h
    split at h <;> simp at h
  | empty reported => exact answers_reported

theorem runsDry_of_silent (h : f.closing = none) (b : Bytes) : RunsDry f b := by
  fun_induction drain f b with
  | case1 f b failure hfound =>
    apply RunsDry.stop
    simp [hfound]
  | case2 f b hfound =>
    apply RunsDry.stop
    simp [hfound]
  | case3 f b hfound =>
    -- one more turn of the loop, in which nothing is found
    apply RunsDry.event hfound
    have hanswers := answers_of_done hfound
    rw [h] at hanswers
    exact hanswers.runsDry _
  | case4 f b e hfound hdone rest ih =>
    apply RunsDry.event hfound
    exact ih ((closing_decode f b).trans h)

theorem not_runsDry_length (h : n ≤ b.length) : ¬ RunsDry (.length n) b := by
  by_cases hn : n = 0
  · subst hn
    exact answers_counted.not_runsDry b
  · have hb : b ≠ [] := by
      rintro rfl
      exact hn (Nat.le_zero.mp h)
    have hd := decode_length_of_ne_nil hn hb
    have hleft : n - (b.take n).length = 0 := by
      rw [List.length_take]
      omega
    intro hdry
    cases hdry with
    | stop hstop =>
      apply hstop (.data (b.take n))
      rw [hd]
    | event _ next =>
      rw [hd, hleft] at next
      exact answers_counted.not_runsDry _ next

theorem runsDry_length (h : b.length < n) : RunsDry (.length n) b := by
  have hn : n ≠ 0 := by omega
  by_cases hb : b = []
  · subst hb
    apply RunsDry.stop
    simp [decode_length_nil hn]
  · have hd := decode_length_of_ne_nil hn hb
    have hleft : n - (b.take n).length ≠ 0 := by
      rw [List.length_take]
      omega
    apply RunsDry.event (e := .data (b.take n))
    · rw [hd]
    · rw [hd, List.drop_of_length_le (Nat.le_of_lt h)]
      apply RunsDry.stop
      rw [decode_length_nil hleft]
      exact nofun

theorem runsDry_iff : RunsDry f b ↔ ∀ n, f = .length n → b.length < n := by
  constructor
  · rintro h n rfl
    apply Nat.lt_of_not_le
    intro hle
    exact not_runsDry_length hle h
  · intro h
    by_cases hf : ∃ n, f = .length n
    · obtain ⟨n, rfl⟩ := hf
      exact runsDry_length (h n rfl)
    · exact runsDry_of_silent (closing_eq_none_iff.mpr fun n hn => hf ⟨n, hn⟩) b

theorem mem_events {r : Reply} : e ∈ r.events ↔ r.found = .ok (some e) := by
  unfold Reply.events
  split
  · rename_i v hv
    simp [hv, eq_comm]
  · rename_i hnone
    exact iff_of_false List.not_mem_nil (hnone e)

theorem length_events_le (r : Reply) : r.events.length ≤ 1 := by
  unfold Reply.events
  split
  · exact Nat.le_refl 1
  · exact Nat.zero_le 1

namespace Session

structure Closes (f : Framing) (s : Session) : Prop where
  closing : s.framing.closing = f.closing
  answers : .done ∈ s.events → s.framing.Answers f.closing
  count : f.closing = none → s.events.count .done ≤ 1

theorem closes_start (f : Framing) : Closes f ⟨f, [], []⟩ := ⟨rfl, nofun, fun _ => Nat.zero_le 1⟩

theorem closes_decode {s : Session} (h : Closes f s) : Closes f (s.call .decode) := by
  constructor
  case closing => exact (closing_decode s.framing s.buffer).trans h.closing
  case answers =>
    intro hmem
    rcases List.mem_append.mp hmem with hold | hnew
    · have hanswers := h.answers hold
      have hsame : (s.call .decode).framing = s.framing := by
        rw [call, hanswers s.buffer]
      rwa [hsame]
    · have hanswers := answers_of_done (mem_events.mp hnew)
      rwa [h.closing] at hanswers
  case count =>
    intro hsilent
    change (s.events ++ (s.framing.decode s.buffer).events).count .done ≤ 1
    rw [List.count_append]
    by_cases hold : .done ∈ s.events
    · have hreply := h.answers hold s.buffer
      rw [hsilent] at hreply
      rw [hreply]
      exact h.count hsilent
    · rw [List.count_eq_zero.mpr hold, Nat.zero_add]
      exact Nat.le_trans List.count_le_length (length_events_le _)

theorem closes_run (f : Framing) (calls : List Call) : Closes f (run f calls) := by
  apply List.foldlRecOn (motive := Closes f) calls call (closes_start f)
  intro s h c _
  cases c with
  | feed p => exact ⟨h.closing, h.answers, h.count⟩
  | decode => exact closes_decode h

theorem foldl_of_answers {s : Session} (h : s.framing.Answers o) (calls : List Call) :
    calls.foldl call s = ⟨s.framing, s.buffer ++ calls.flatMap Call.bytes,
      s.events ++ (List.replicate (calls.count .decode) o.toList).flatten⟩ := by
  induction calls generalizing s with
  | nil => simp
  | cons c calls ih =>
    rw [List.foldl_cons]
    cases c with
    | feed p =>
      rw [call, ih (s := ⟨s.framing, s.buffer ++ p, s.events⟩) h]
      simp [Call.bytes]
    | decode =>
      have hcall : s.call .decode = ⟨s.framing, s.buffer, s.events ++ o.toList⟩ := by
        simp only [call, h s.buffer]
        cases o <;> rfl
      rw [hcall, ih (s := ⟨s.framing, s.buffer, s.events ++ o.toList⟩) h]
      simp [Call.bytes, List.replicate_succ]

theorem run_append_of_answers {calls : List Call} (h : (run f calls).framing.Answers o)
    (later : List Call) : run f (calls ++ later) = ⟨(run f calls).framing,
      (run f calls).buffer ++ later.flatMap Call.bytes,
      (run f calls).events ++ (List.replicate (later.count .decode) o.toList).flatten⟩ := by
  have hrun : run f (calls ++ later) = later.foldl call (run f calls) := List.foldl_append
  rw [hrun, foldl_of_answers h]

end Session

open Session (run)

structure Final (f : Framing) (calls : List Call) : Prop where
  once : (∀ n, f ≠ .length n) → (run f calls).events.count .done ≤ 1
  silent : (∀ n, f ≠ .length n) → .done ∈ (run f calls).events →
    (run f calls).framing.Answers none ∧ ∀ later, run f (calls ++ later) =
      { run f calls with buffer := (run f calls).buffer ++ later.flatMap Call.bytes }
  repeated : ∀ n, f = .length n → .done ∈ (run f calls).events →
    (run f calls).framing.Answers (some .done) ∧ ∀ later,
      (run f (calls ++ later)).events =
        (run f calls).events ++ List.replicate (later.count .decode) .done
  never : f = .untilClose → .done ∉ (run f calls).events
  dry : RunsDry (run f calls).framing (run f calls).buffer ↔ ∀ n, f = .length n →
    (payload (run f calls).events).length + (run f calls).buffer.length < n

theorem Stands.eq_untilClose (h : Stands .untilClose g es) : g = .untilClose := by
  cases h with
  | untilClose => rfl

theorem Stands.runsDry_iff (h : f.Stands g es) : RunsDry g b ↔
    ∀ n, f = .length n → (payload es).length + b.length < n := by
  rw [Framing.runsDry_iff]
  cases h with
  | @length n left es counted =>
    constructor
    · rintro hdry m hm
      obtain rfl := length.inj hm
      have hlt := hdry left rfl
      omega
    · rintro hdry m hm
      obtain rfl := length.inj hm
      have hlt := hdry n rfl
      omega
  | _ => exact iff_of_true nofun nofun

/-- Behind the end of a body nothing is reported and nothing read, and the loop over the events
ends, unless the length was declared: then each call reports the end once more. -/
theorem done_final {head : Head} {method : String} (h : ofHead head method = .ok f)
    (calls : List Call) : Final f calls := by
  have hstands := run_stands (fresh_of_ofHead h) calls
  have hcloses := Session.closes_run f calls
  constructor
  case once => exact fun hf => hcloses.count (closing_eq_none_iff.mpr hf)
  case silent =>
    intro hf hdone
    have hanswers := hcloses.answers hdone
    rw [closing_eq_none_iff.mpr hf] at hanswers
    refine ⟨hanswers, fun later => ?_⟩
    rw [Session.run_append_of_answers hanswers]
    simp
  case repeated =>
    rintro n rfl hdone
    have hanswers := hcloses.answers hdone
    refine ⟨hanswers, fun later => ?_⟩
    rw [Session.run_append_of_answers hanswers]
    simp [closing]
  case never =>
    rintro rfl hdone
    have hanswers := hcloses.answers hdone
    rw [hstands.eq_untilClose] at hanswers
    have hreply := congrArg Reply.found (hanswers [0])
    cases hreply
  case dry => exact hstands.runsDry_iff

def shortChunks : Head := .new 200 "OK" [("Transfer-Encoding", "chunked")]

def shortCalls : List Call :=
  .feed "2\r\nhi\r\n0\r\n\r\n".toUTF8.toList :: List.replicate 5 .decode

theorem done_final_shortChunks : ofHead shortChunks "GET" = .ok (.chunked .size) ∧
    .done ∈ (run (.chunked .size) shortCalls).events ∧ Final (.chunked .size) shortCalls := by
  have hframing : ofHead shortChunks "GET" = .ok (.chunked .size) := rfl
  have hdone : .done ∈ (run (.chunked .size) shortCalls).events := by decide +kernel
  exact ⟨hframing, hdone, done_final hframing shortCalls⟩

def wholeCalls : List Call := [.feed "hello".toUTF8.toList, .decode, .decode]

theorem length_done_again : ofHead hello "GET" = .ok (.length 5) ∧
    .done ∈ (run (.length 5) wholeCalls).events ∧
    (run (.length 5) (wholeCalls ++ [.decode])).events.count .done = 2 ∧
    ¬ RunsDry (run (.length 5) wholeCalls).framing (run (.length 5) wholeCalls).buffer := by
  have hframing : (run (.length 5) wholeCalls).framing = .length 0 := by decide +kernel
  refine ⟨rfl, by decide +kernel, by decide +kernel, ?_⟩
  rw [hframing]
  exact answers_counted.not_runsDry _

end HttpRelay.Framing
