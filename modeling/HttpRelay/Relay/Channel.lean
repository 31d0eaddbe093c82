import HttpRelay.Capacity
import HttpRelay.Log
import HttpRelay.Text.Quoted

/-!
The relay channel: a bounded queue of items that either side can close. Senders that find no
room wait in line, and room that becomes free is granted to the first of them.
-/

namespace HttpRelay.Relay

inductive Item where
  | fragment (text : String)
  | failure (message : String)
deriving DecidableEq, Repr

def Item.describe : Item → String
  | fragment text => s!"Fragment({Text.quoted text})"
  | failure message => s!"Error({Text.quoted message})"

structure Waiter where
  ticket : Nat
  item : Item
deriving DecidableEq, Repr

structure Channel where
  capacity : Nat
  queue : List Item
  waiting : List Waiter
  /-- Senders to whom room has been granted that they have not used yet. -/
  granted : List Waiter
  closed : Bool
  /-- The consumer has closed the channel, or is gone. -/
  abandoned : Bool
  /-- The consumer has seen the end. -/
  ended : Bool
  senders : Nat
deriving DecidableEq, Repr

inductive Delivery where
  | accepted
  | discarded
  | waits
deriving DecidableEq, Repr

inductive Offer where
  | accepted
  | full
  | refused
deriving DecidableEq, Repr

inductive Reception where
  | item (i : Item)
  | finished
  | waits
deriving DecidableEq, Repr

namespace Channel

def new (capacity : Capacity) : Channel := ⟨max capacity.val 1, [], [], [], false, false, false, 1⟩

def room (c : Channel) : Nat := c.capacity - (c.queue.length + c.granted.length)

def grant (c : Channel) : Channel :=
  match c.waiting with
  | [] => c
  | w :: rest =>
    if 0 < c.room then { c with waiting := rest, granted := c.granted ++ [w] } else c

def push (c : Channel) (item : Item) : Channel := { c with queue := c.queue ++ [item] }

def send (c : Channel) (ticket : Nat) (item : Item) : Channel × Delivery :=
  if c.closed then (c, .discarded)
  else if 0 < c.room then (c.push item, .accepted)
  else ({ c with waiting := c.waiting ++ [⟨ticket, item⟩] }, .waits)

def cancel (c : Channel) (ticket : Nat) : Channel :=
  { c with
    waiting := c.waiting.filter (·.ticket ≠ ticket)
    granted := c.granted.filter (·.ticket ≠ ticket) }.grant

/-- A waiting sender looks again: a close releases it, and granted room lets it send. -/
def resume (c : Channel) (ticket : Nat) : Channel × Delivery :=
  if c.closed then (c.cancel ticket, .discarded)
  else match c.granted.find? (·.ticket = ticket) with
    | some w =>
      ({ c with granted := c.granted.filter (·.ticket ≠ ticket) }.push w.item, .accepted)
    | none => (c, .waits)

def trySend (c : Channel) (item : Item) : Channel × Offer :=
  if c.closed then (c, .refused)
  else if 0 < c.room then (c.push item, .accepted)
  else (c, .full)

def receive (c : Channel) : Channel × Reception :=
  if c.ended then (c, .finished)
  else match c.queue with
    | item :: rest => ({ c with queue := rest }.grant, .item item)
    | [] =>
      if c.closed || c.senders = 0 then ({ c with ended := true }, .finished) else (c, .waits)

@[simp]
theorem queue_grant (c : Channel) : c.grant.queue = c.queue := by
  unfold grant
  split
  · rfl
  · split <;> rfl

theorem length_receive {c d : Channel} {i : Item} (h : c.receive = (d, .item i)) :
    d.queue.length < c.queue.length := by
  unfold receive at h
  split at h
  · simp at h
  · split at h
    · rename_i hq
      simp only [Prod.mk.injEq] at h
      simp [← h.1, hq]
    · split at h <;> simp at h

def close (c : Channel) : Channel := { c with closed := true }

def abandon (c : Channel) : Channel :=
  { c with closed := true, abandoned := true, ended := true, queue := [] }

def addSender (c : Channel) : Channel := { c with senders := c.senders + 1 }

def dropSender (c : Channel) : Channel := { c with senders := c.senders - 1 }

end Channel

def discardRecord (item : Item) : Log.Record :=
  ⟨.trace, .relay, s!"Relay closed, discarding {item.describe}"⟩

def fullRecord : Log.Record := ⟨.warn, .relay, "Relay channel full, fragment dropped"⟩

def closeRecord : Log.Record := ⟨.trace, .relay, "Relay closed by producer"⟩

def closeRecords (c : Channel) : List Log.Record := if c.closed then [] else [closeRecord]

end HttpRelay.Relay
