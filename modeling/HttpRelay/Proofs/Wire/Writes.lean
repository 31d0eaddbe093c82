import HttpRelay.Wire.Peer

namespace HttpRelay

namespace Write

variable {w : Write} {n : Nat}

theorem accepts_eq_zero_iff (hn : n ≠ 0) : w.accepts n = 0 ↔ w.accepts 1 = 0 := by
  cases w with
  | takesAll => simp [accepts, hn]
  | takes most => simp only [accepts]; omega
  | fails fault => exact Iff.rfl

def room (later : Write) : List Write → Option Nat
  | [] => if later.accepts 1 = 0 then some 0 else none
  | takesAll :: _ => none
  | takes most :: rest => if most = 0 then some 0 else (room later rest).map (most + ·)
  | fails _ :: _ => some 0

end Write

namespace Outgoing

def room (o : Outgoing) : Option Nat := Write.room o.later o.writes

/-- How many of `n` bytes get out in the end. Short writes only cut them into parts. -/
def through (o : Outgoing) (n : Nat) : Nat := (o.room.map (min n)).getD n

theorem through_zero (o : Outgoing) : o.through 0 = 0 := by
  unfold through
  cases o.room with
  | none => rfl
  | some r => exact Nat.zero_min r

theorem room_of_refused {o : Outgoing} {n : Nat} (hn : n ≠ 0) (h : o.next.accepts n = 0) :
    o.room = some 0 := by
  obtain ⟨writes, later, flushes⟩ := o
  rw [Write.accepts_eq_zero_iff hn] at h
  cases writes with
  | nil => exact if_pos h
  | cons w rest =>
    cases w with
    | takesAll => cases h
    | takes most =>
      have hmost : most = 0 := by
        simp only [next, List.headD_cons, Write.accepts] at h
        omega
      exact if_pos hmost
    | fails fault => rfl

theorem through_of_refused {o : Outgoing} {n : Nat} (hn : n ≠ 0) (h : o.next.accepts n = 0) :
    o.through n = 0 := by
  rw [through, room_of_refused hn h]
  exact Nat.min_zero n

theorem through_eq_add {o : Outgoing} {n : Nat} (h : o.next.accepts n ≠ 0) :
    o.through n = o.next.accepts n + o.behind.through (n - o.next.accepts n) := by
  have hle := o.next.accepts_le n
  have hn : n ≠ 0 := by omega
  obtain ⟨writes, later, flushes⟩ := o
  cases writes with
  | nil =>
    have hroom : Write.room later [] = none := if_neg (mt (Write.accepts_eq_zero_iff hn).mpr h)
    simp only [through, room, behind, List.tail_nil, hroom, Option.map_none, Option.getD_none]
    omega
  | cons w rest =>
    cases w with
    | takesAll =>
      change n = n + (behind _).through (n - n)
      rw [Nat.sub_self, through_zero]
      rfl
    | takes most =>
      have haccepts : (next ⟨.takes most :: rest, later, flushes⟩).accepts n = min n most := rfl
      have hmost : most ≠ 0 := by
        rintro rfl
        exact h (Nat.min_zero n)
      have hroom : room ⟨.takes most :: rest, later, flushes⟩ =
          (Write.room later rest).map (most + ·) := if_neg hmost
      rw [haccepts, through, hroom]
      simp only [through, room, behind, List.tail_cons]
      cases Write.room later rest with
      | none => simp only [Option.map_none, Option.getD_none]; omega
      | some r => simp only [Option.map_some, Option.getD_some]; omega
    | fails fault => exact absurd rfl h

theorem flatten_writeAll (o : Outgoing) (bs : Bytes) :
    (o.writeAll bs).parts.flatten = bs.take (o.through bs.length) := by
  fun_induction writeAll o bs with
  | case1 => exact List.take_nil.symm
  | case2 o bs hb hn =>
    rw [through_of_refused (mt List.length_eq_zero_iff.mp hb) hn]
    rfl
  | case3 o bs hb hn n rest ih =>
    rw [List.flatten_cons, ih, List.length_drop, through_eq_add hn, List.take_add]

theorem writeAll_fault_eq_none_iff (o : Outgoing) (bs : Bytes) :
    (o.writeAll bs).fault = none ↔ o.through bs.length = bs.length := by
  fun_induction writeAll o bs with
  | case1 => exact iff_of_true rfl (through_zero _)
  | case2 o bs hb hn =>
    have hlength := mt List.length_eq_zero_iff.mp hb
    rw [through_of_refused hlength hn]
    exact iff_of_false (Option.some_ne_none _) (Ne.symm hlength)
  | case3 o bs hb hn n rest ih =>
    have hle := o.next.accepts_le bs.length
    have hrest : rest.fault = none ↔ o.behind.through (bs.length - o.next.accepts bs.length) =
        bs.length - o.next.accepts bs.length := by
      rw [← List.length_drop]
      exact ih
    rw [hrest, through_eq_add hn]
    omega

theorem flush_writeAll (o : Outgoing) (bs : Bytes) :
    (o.writeAll bs).outgoing.flush.1 = o.flush.1 := by
  fun_induction writeAll o bs with
  | case1 | case2 => rfl
  | case3 o bs hb hn n rest ih => exact ih

structure Takes (o : Outgoing) (n : Nat) : Prop where
  through : o.through n = n
  flushes : o.flush.1 = none

end Outgoing

end HttpRelay
