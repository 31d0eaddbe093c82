import HttpRelay.Failure
import HttpRelay.Text.Utf8

/-!
The other end of a connection as a script: what arrives from it, how that ends, and how much of
what is written to it is accepted.
-/

namespace HttpRelay

/-- What one read brings. A read without bytes is the end, so that data are never empty. -/
inductive Arrival where
  | data (bytes : Bytes) (filled : bytes ≠ [])
  | fault (f : IoFault)
deriving DecidableEq, Repr

namespace Arrival

def ofBytes? (bytes : Bytes) : Option Arrival :=
  if filled : bytes = [] then none else some (.data bytes filled)

def pieces (ps : List Bytes) : List Arrival := ps.filterMap ofBytes?

end Arrival

inductive Ending where
  | closed
  | silent
deriving DecidableEq, Repr

def Ending.outcome {α : Type} (a : α) : Ending → Option α
  | closed => some a
  | silent => none

structure Incoming where
  arrivals : List Arrival
  ending : Ending
deriving DecidableEq, Repr

/-- A peer that breaks off without a proper goodbye has still closed the connection. -/
def IoFault.isClose (f : IoFault) : Bool := f.kind == .unexpectedEof

namespace Incoming

def maxRead : Nat := 4096

def parts (n : Nat) (bs : Bytes) : List Bytes :=
  if h : bs = [] then []
  else bs.take (n + 1) :: parts n (bs.drop (n + 1))
termination_by bs.length
decreasing_by
  have := List.length_pos_iff.mpr h
  simp only [List.length_drop]
  omega

def sent (bs : Bytes) : List Arrival := Arrival.pieces (parts (maxRead - 1) bs)

end Incoming

inductive Write where
  | takesAll
  | takes (most : Nat)
  | fails (fault : IoFault)
deriving DecidableEq, Repr

namespace Write

def writeZero : IoFault := ⟨.writeZero, "write zero"⟩

def accepts : Write → Nat → Nat
  | takesAll, n => n
  | takes most, n => min n most
  | fails _, _ => 0

theorem accepts_le (w : Write) (n : Nat) : w.accepts n ≤ n := by
  cases w with
  | takesAll => exact Nat.le_refl n
  | takes most => exact Nat.min_le_left n most
  | fails fault => exact Nat.zero_le n

def refusal : Write → IoFault
  | fails fault => fault
  | _ => writeZero

end Write

/-- What becomes of everything that is written: the writes in their order, with all behind the
listed ones alike, and the flushes, of which those behind the listed ones succeed. -/
structure Outgoing where
  writes : List Write
  later : Write
  flushes : List (Option IoFault)
deriving DecidableEq, Repr

namespace Outgoing

def next (o : Outgoing) : Write := o.writes.headD o.later

def behind (o : Outgoing) : Outgoing := { o with writes := o.writes.tail }

structure Written where
  parts : List Bytes
  fault : Option IoFault
  outgoing : Outgoing

def writeAll (o : Outgoing) (bs : Bytes) : Written :=
  if _hb : bs = [] then ⟨[], none, o⟩
  else if _hn : o.next.accepts bs.length = 0 then ⟨[], some o.next.refusal, o.behind⟩
  else
    let n := o.next.accepts bs.length
    let rest := o.behind.writeAll (bs.drop n)
    { rest with parts := bs.take n :: rest.parts }
termination_by bs.length
decreasing_by
  have : 0 < bs.length := List.length_pos_iff.mpr (by assumption)
  simp only [List.length_drop]
  omega

def flush (o : Outgoing) : Option IoFault × Outgoing :=
  (o.flushes.headD none, { o with flushes := o.flushes.tail })

end Outgoing

structure Peer where
  incoming : Incoming
  outgoing : Outgoing
deriving DecidableEq, Repr

end HttpRelay
