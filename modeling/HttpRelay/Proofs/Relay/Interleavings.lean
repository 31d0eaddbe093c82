import HttpRelay.Proofs.Relay.ChannelSteps
import HttpRelay.Relay.Scheduler

namespace HttpRelay.Relay

open Scheduler (Step Answer Progress advance)

def upTo : Nat → List Item → List (Option Item)
  | 0, _ => []
  | n + 1, [] => none :: upTo n []
  | n + 1, i :: rest => some i :: upTo n rest

theorem upTo_add (m n : Nat) (items : List Item) :
    upTo (m + n) items = upTo m items ++ upTo n (items.drop m) := by
  induction m generalizing items with
  | zero => simp [upTo]
  | succ m ih =>
    rw [Nat.add_right_comm]
    cases items with
    | nil => simpa [upTo] using ih []
    | cons i rest => simpa [upTo] using ih rest

theorem upTo_succ (n : Nat) (items : List Item) :
    upTo (n + 1) items = upTo n items ++ upTo 1 (items.drop n) :=
  upTo_add n 1 items

theorem upTo_nil (n : Nat) : upTo n [] = List.replicate n none := by
  induction n with
  | zero => rfl
  | succ n ih => exact congrArg (none :: ·) ih

theorem upTo_append (n : Nat) (items rest : List Item) :
    upTo (items.length + n) (items ++ rest) = items.map some ++ upTo n rest := by
  induction items with
  | nil => rw [List.length_nil, Nat.zero_add, List.nil_append, List.map_nil, List.nil_append]
  | cons i items ih =>
    rw [List.length_cons, Nat.add_right_comm]
    exact congrArg (some i :: ·) ih

theorem upTo_length (items rest : List Item) :
    upTo items.length (items ++ rest) = items.map some := by
  have happend := upTo_append 0 items rest
  rwa [Nat.add_zero, upTo, List.append_nil] at happend

theorem upTo_length_add (n : Nat) (items : List Item) :
    upTo (items.length + n) items = items.map some ++ List.replicate n none := by
  have happend := upTo_append n items []
  rwa [List.append_nil, upTo_nil] at happend

@[simp]
theorem length_upTo (n : Nat) (items : List Item) : (upTo n items).length = n := by
  induction n generalizing items with
  | zero => rfl
  | succ n ih => cases items <;> simp [upTo, ih]

inductive Turn where
  | act (t : Step)
  | giveUp (slot : Nat)
  | poll (place : Nat)
deriving DecidableEq, Repr

def Turn.KeepsConsumer : Turn → Prop
  | .act .collect | .act (.cancel _) | .act .abandon | .act .dropHandle => False
  | _ => True

def Task.isSenders : Task → Bool
  | .send _ | .resend _ | .closed => true
  | .receive | .collect _ => false

def Task.accepted (c : Channel) (slot : Nat) : Task → List Item
  | .send item => if (c.send slot item).2 = .accepted then [item] else []
  | .resend item => if (c.resume slot).2 = .accepted then [item] else []
  | _ => []

def Scheduler.offered (s : Scheduler) (t : Step) : List Item :=
  match t with
  | .trySend _ item => if (s.act t).2 = .taken true then [item] else []
  | _ => []

def Value.result : Value → List (Option Item)
  | .item i => [some i]
  | .finished => [none]
  | _ => []

structure History where
  state : Scheduler
  accepted : List Item
  results : List (Option Item)

namespace History

variable {h k : History}

def start (capacity : Capacity) : History := ⟨.start capacity, [], []⟩

abbrev channel (h : History) : Channel := h.state.channel

def received (h : History) : List Item := h.results.reduceOption

def poll (h : History) (place : Nat) : History :=
  match h.state.tasks[place]? with
  | none => h
  | some (slot, t) =>
    let (c, progress, records) := advance h.state.channel slot t
    let s := { h.state with channel := c }.note records
    let accepted := h.accepted ++ t.accepted h.state.channel slot
    match progress with
    | .going t => ⟨{ s with tasks := s.tasks.set place (slot, t) }, accepted, h.results⟩
    | .done v =>
      ⟨{ s with tasks := s.tasks.eraseIdx place }.release t, accepted, h.results ++ v.result⟩

def turn (h : History) : Turn → History
  | .act t => { h with state := (h.state.act t).1, accepted := h.accepted ++ h.state.offered t }
  | .giveUp slot =>
    if ∃ x ∈ h.state.tasks, x.1 = slot ∧ x.2.isSenders then
      { h with state := h.state.drop slot } else h
  | .poll place => h.poll place

def run (h : History) (ts : List Turn) : History := ts.foldl turn h

end History

end HttpRelay.Relay
