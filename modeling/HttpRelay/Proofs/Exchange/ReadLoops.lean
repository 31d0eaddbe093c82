import Mathlib.Algebra.GroupWithZero.Nat
import HttpRelay.Proofs.Exchange.HeadPieces
import HttpRelay.Proofs.Loops

namespace HttpRelay

open Loop (Pass Bounded LeftWithin)

def Arrival.load (arrivals : List Arrival) : Nat :=
  (arrivals.map fun a => a.bytes.length + 1).sum

theorem Arrival.load_data {bytes : Bytes} (filled : bytes ≠ []) (rest : List Arrival) :
    load (.data bytes filled :: rest) = bytes.length + 1 + load rest := List.sum_cons

namespace HeadSearch

variable {ending : Ending} {received : Bool} {buffer rest : Bytes} {arrivals : List Arrival}
  {head : Head}

structure Waiting where
  received : Bool
  buffer : Bytes
  arrivals : List Arrival
  effects : List Effect

def read (ending : Ending) (x : Waiting) : Pass Waiting HeadSearch :=
  let effects := x.effects ++ [.asked]
  match x.arrivals with
  | [] => .leave ⟨effects, ending.outcome (.error (closedEarly x.received)), x.buffer, ⟨[], ending⟩⟩
  | .data bytes _ :: rest => .again ⟨true, x.buffer ++ bytes, rest, effects⟩
  | .fault f :: rest =>
    .leave ⟨effects, some (.error (if f.isClose then closedEarly x.received else .read f)),
      x.buffer, ⟨rest, ending⟩⟩

def pass (ending : Ending) (x : Waiting) : Pass Waiting HeadSearch :=
  match HeadReader.scan x.buffer with
  | .done head rest =>
    if head.isInterim then
      .again { x with buffer := rest, effects := x.effects ++ [skipped head.status] }
    else .leave ⟨x.effects, some (.ok head), rest, ⟨x.arrivals, ending⟩⟩
  | .bad fault =>
    .leave ⟨x.effects, some (.error (badHead fault)), x.buffer, ⟨x.arrivals, ending⟩⟩
  | .more _ =>
    if maxHead < x.buffer.length then
      .leave ⟨x.effects, some (.error headTooLong), x.buffer, ⟨x.arrivals, ending⟩⟩
    else read ending x

theorem search_of_interim (hscan : HeadReader.scan buffer = .done head rest)
    (hinterim : head.isInterim = true) (received : Bool) (ending : Ending)
    (arrivals : List Arrival) : search received buffer ending arrivals =
      (search received rest ending arrivals).after [skipped head.status] := by
  have hlook := look_of_interim hscan hinterim
  cases arrivals with
  | nil =>
    simp only [search, hlook]
    cases (look rest).settled <;> rfl
  | cons a arrivals =>
    cases a with
    | data bytes filled =>
      simp only [search, hlook]
      cases (look rest).settled <;> rfl
    | fault f =>
      simp only [search, hlook]
      cases (look rest).settled <;> rfl

theorem search_of_bad {fault : HeadReader.Fault} (hscan : HeadReader.scan buffer = .bad fault)
    (received : Bool) (ending : Ending) (arrivals : List Arrival) :
    search received buffer ending arrivals =
      ⟨[], some (.error (badHead fault)), buffer, ⟨arrivals, ending⟩⟩ := by
  have hlook := look_of_bad hscan
  rw [search_of_settled (by rw [hlook]), hlook]
  rfl

theorem search_of_done (hscan : HeadReader.scan buffer = .done head rest)
    (hfinal : head.isInterim = false) (received : Bool) (ending : Ending)
    (arrivals : List Arrival) : search received buffer ending arrivals =
      ⟨[], some (.ok head), rest, ⟨arrivals, ending⟩⟩ := by
  have hlook := look_of_final hscan hfinal
  rw [search_of_settled (by rw [hlook]), hlook]
  rfl

section Passes

variable {x y : Waiting} {s : HeadSearch}

def Waiting.size (x : Waiting) : Nat := x.buffer.length + Arrival.load x.arrivals

def Waiting.aim (ending : Ending) (x : Waiting) : HeadSearch :=
  (search x.received x.buffer ending x.arrivals).after x.effects

theorem read_again (hlook : look x.buffer = ⟨[], none, x.buffer⟩)
    (h : read ending x = .again y) : y.size < x.size ∧ y.aim ending = x.aim ending := by
  obtain ⟨received, buffer, arrivals, effects⟩ := x
  dsimp only at hlook
  cases arrivals with
  | nil => cases h
  | cons a rest =>
    cases a with
    | data bytes filled =>
      cases h
      -- the bytes only change places, but there is one arrival less
      constructor
      · simp only [Waiting.size, List.length_append, Arrival.load_data]
        omega
      · simp only [Waiting.aim, search, hlook, after, List.append_assoc]
        rfl
    | fault f => cases h

theorem read_leave (hlook : look x.buffer = ⟨[], none, x.buffer⟩)
    (h : read ending x = .leave s) : s = x.aim ending := by
  obtain ⟨received, buffer, arrivals, effects⟩ := x
  dsimp only at hlook
  cases arrivals with
  | nil =>
    cases h
    simp only [Waiting.aim, search, hlook, after]
    rfl
  | cons a rest =>
    cases a with
    | data bytes filled => cases h
    | fault f =>
      cases h
      simp only [Waiting.aim, search, hlook, after]
      rfl

theorem pass_again (h : pass ending x = .again y) :
    y.size < x.size ∧ y.aim ending = x.aim ending := by
  cases hscan : HeadReader.scan x.buffer with
  | done head rest =>
    cases hinterim : head.isInterim with
    | true =>
      simp only [pass, hscan, hinterim, if_true] at h
      cases h
      have hshorter := Wire.scan_rest_length hscan
      constructor
      · simp only [Waiting.size]
        omega
      · rw [Waiting.aim, Waiting.aim, search_of_interim hscan hinterim]
        simp only [after, List.append_assoc]
    | false =>
      simp only [pass, hscan, hinterim, Bool.false_eq_true, if_false] at h
      cases h
  | bad fault =>
    simp only [pass, hscan] at h
    cases h
  | more stage =>
    simp only [pass, hscan] at h
    split at h
    · cases h
    · rename_i hshort
      exact read_again (look_of_more hscan (Nat.le_of_not_lt hshort)) h

theorem pass_leave (h : pass ending x = .leave s) : s = x.aim ending := by
  cases hscan : HeadReader.scan x.buffer with
  | done head rest =>
    cases hinterim : head.isInterim with
    | true =>
      simp only [pass, hscan, hinterim, if_true] at h
      cases h
    | false =>
      simp only [pass, hscan, hinterim, Bool.false_eq_true, if_false] at h
      cases h
      rw [Waiting.aim, search_of_done hscan hinterim, after, List.append_nil]
  | bad fault =>
    simp only [pass, hscan] at h
    cases h
    rw [Waiting.aim, search_of_bad hscan, after, List.append_nil]
  | more stage =>
    simp only [pass, hscan] at h
    split at h
    · rename_i hlong
      cases h
      have hlook := look_of_outgrown hscan hlong
      rw [Waiting.aim, search_of_settled (by rw [hlook]), hlook]
      simp [after, Look.effects]
    · rename_i hshort
      exact read_leave (look_of_more hscan (Nat.le_of_not_lt hshort)) h

theorem bounded_pass (ending : Ending) :
    Bounded (pass ending) Waiting.size (Waiting.aim ending) where
  again h := pass_again h
  leave h := pass_leave h

theorem search_leftWithin (received : Bool) (buffer : Bytes) (ending : Ending)
    (arrivals : List Arrival) : LeftWithin (pass ending)
      (buffer.length + Arrival.load arrivals + 1) ⟨received, buffer, arrivals, []⟩
      (search received buffer ending arrivals) :=
  (bounded_pass ending).leftWithin ⟨received, buffer, arrivals, []⟩

end Passes

end HeadSearch

end HttpRelay
