import HttpRelay.Exchange.Run
import HttpRelay.Relay.Channel

/-!
Feeds: the producer's side of a relay channel as a list of acts, and the two sides working in
turn. The consumer may close the channel at any time; where that cancels the work, the rest of
it is never done.
-/

namespace HttpRelay.Relay

inductive Act where
  | effect (e : Effect)
  | send (item : Item)
  | resend (item : Item)
  | offer (text : String)
  | ask
  | close
  | awaitClose
  | finish
  | hang
deriving DecidableEq, Repr

inductive Reply where
  | nothing
  | taken (accepted : Bool)
  | closed (yes : Bool)
deriving DecidableEq, Repr

inductive Deed where
  | done (channel : Channel) (effects : List Effect) (replies : List Reply)
  | queued (channel : Channel) (act : Act)
  | waits
deriving DecidableEq, Repr

def ownTicket : Nat := 0

def Act.perform (c : Channel) : Act → Deed
  | .effect e => .done c [e] []
  | .send item =>
    match c.send ownTicket item with
    | (c, .accepted) => .done c [] []
    | (c, .discarded) => .done c [.logged (discardRecord item)] []
    | (c, .waits) => .queued c (.resend item)
  | .resend _ =>
    match c.resume ownTicket with
    | (_, .waits) => .waits
    | (c, _) => .done c [] []
  | .offer text =>
    match c.trySend (.fragment text) with
    | (c, .accepted) => .done c [] [.taken true]
    | (c, .full) => .done c [.logged fullRecord] [.taken false]
    | (c, .refused) => .done c [] [.taken false]
  | .ask => .done c [] [.closed c.closed]
  | .close => .done c.close ((closeRecords c).map .logged) [.nothing]
  | .awaitClose => if c.closed then .done c [] [.nothing] else .waits
  | .finish => .done c.close [] []
  | .hang => .waits

def Act.weight : Act → Nat
  | send _ => 3
  | resend _ | offer _ => 2
  | _ => 1

namespace Channel

theorem queue_cancel (c : Channel) (ticket : Nat) : (c.cancel ticket).queue = c.queue := by
  simp [cancel]

theorem length_queue_send (c : Channel) (ticket : Nat) (item : Item) :
    (c.send ticket item).1.queue.length ≤ c.queue.length + 1 := by
  unfold send push
  split
  · simp
  · split <;> simp

theorem queue_send_of_waits {c d : Channel} {ticket : Nat} {item : Item}
    (h : c.send ticket item = (d, .waits)) : d.queue = c.queue := by
  unfold send at h
  split at h
  · simp at h
  · split at h
    · simp at h
    · simp only [Prod.mk.injEq, and_true] at h
      simp [← h]

theorem length_queue_resume (c : Channel) (ticket : Nat) :
    (c.resume ticket).1.queue.length ≤ c.queue.length + 1 := by
  unfold resume
  split
  · simp [queue_cancel]
  · split <;> simp [push]

theorem length_queue_trySend (c : Channel) (item : Item) :
    (c.trySend item).1.queue.length ≤ c.queue.length + 1 := by
  unfold trySend push
  split
  · simp
  · split <;> simp

end Channel

theorem Act.length_queue_of_done {c d : Channel} {a : Act} {es : List Effect} {rs : List Reply}
    (h : a.perform c = .done d es rs) : d.queue.length < c.queue.length + a.weight := by
  cases a with
  | send item =>
    have hle := c.length_queue_send ownTicket item
    simp only [perform] at h
    split at h <;> rename_i heq <;> simp only [heq] at hle <;>
      simp only [Deed.done.injEq, reduceCtorEq] at h
    all_goals simp only [← h.1, weight]; omega
  | resend item =>
    have hle := c.length_queue_resume ownTicket
    simp only [perform] at h
    split at h
    · simp at h
    · rename_i d' _ _ heq
      simp only [heq] at hle
      simp only [Deed.done.injEq] at h
      simp only [← h.1, weight]; omega
  | offer text =>
    have hle := c.length_queue_trySend (.fragment text)
    simp only [perform] at h
    split at h <;> rename_i heq <;> simp only [heq] at hle <;> simp only [Deed.done.injEq] at h <;>
      simp only [← h.1, weight] <;> omega
  | awaitClose =>
    simp only [perform] at h
    split at h <;> simp only [Deed.done.injEq, reduceCtorEq] at h
    simp [← h.1, weight]
  | hang => simp [perform] at h
  | effect | ask => simp only [perform, Deed.done.injEq] at h; simp [← h.1, weight]
  | close | finish =>
    simp only [perform, Deed.done.injEq] at h; simp [← h.1, weight, Channel.close]

theorem Act.length_queue_of_queued {c d : Channel} {a b : Act}
    (h : a.perform c = .queued d b) : d.queue.length + b.weight < c.queue.length + a.weight := by
  cases a with
  | send item =>
    simp only [perform] at h
    split at h <;> simp only [Deed.queued.injEq, reduceCtorEq] at h
    rename_i heq
    have := Channel.queue_send_of_waits heq
    simp [← h.1, ← h.2, this, weight]
  | resend item => simp only [perform] at h; split at h <;> simp at h
  | offer text => simp only [perform] at h; split at h <;> simp at h
  | awaitClose => simp only [perform] at h; split at h <;> simp at h
  | _ => simp [perform] at h

structure Advance where
  channel : Channel
  rest : List Act
  effects : List Effect
  replies : List Reply
deriving DecidableEq, Repr

def Act.advance (c : Channel) : List Act → Option Advance
  | [] => none
  | a :: as =>
    match a.perform c with
    | .done c effects replies => some ⟨c, as, effects, replies⟩
    | .queued c b => some ⟨c, b :: as, [], []⟩
    | .waits => none

def Act.load : List Act → Nat
  | [] => 0
  | a :: as => a.weight + load as

theorem Act.load_advance {c : Channel} {as : List Act} {p : Advance}
    (h : Act.advance c as = some p) :
    p.channel.queue.length + load p.rest < c.queue.length + load as := by
  cases as with
  | nil => simp [advance] at h
  | cons a as =>
    simp only [advance] at h
    split at h
    · rename_i heq
      have := length_queue_of_done heq
      simp only [Option.some.injEq] at h
      simp only [← h, load]
      omega
    · rename_i heq
      have := length_queue_of_queued heq
      simp only [Option.some.injEq] at h
      simp only [← h, load]
      omega
    · simp at h

structure Feed where
  channel : Channel
  work : List Act
  conclusion : List Act
  /-- What is noted when a close cuts the work short; without it the work always goes on. -/
  cancellation : Option (List Effect)
  effects : List Effect
  replies : List Reply
deriving DecidableEq, Repr

namespace Feed

def failureActs (category : Category) (note message : String) : List Act :=
  [.effect (.counted category), .effect (.logged ⟨.error, .client, note⟩),
    .send (.failure message)]

def record (f : Feed) (p : Advance) : Feed :=
  { f with
    channel := p.channel, effects := f.effects ++ p.effects, replies := f.replies ++ p.replies }

def cancel (f : Feed) (notice : List Effect) : Feed :=
  { f with
    channel := f.channel.close, work := [], conclusion := [], effects := f.effects ++ notice }

def cancelNotice? (f : Feed) : Option (List Effect) :=
  if f.channel.closed then f.cancellation else none

def step (f : Feed) : Option Feed :=
  match f.work with
  | [] =>
    (Act.advance f.channel f.conclusion).map fun p => { f.record p with conclusion := p.rest }
  | a :: as =>
    match f.cancelNotice? with
    | some notice => some (f.cancel notice)
    | none => (Act.advance f.channel (a :: as)).map fun p => { f.record p with work := p.rest }

def load (f : Feed) : Nat :=
  f.channel.queue.length + Act.load f.work + Act.load f.conclusion

theorem load_step {f g : Feed} (h : f.step = some g) : g.load < f.load := by
  unfold step at h
  split at h
  · rename_i hw
    obtain ⟨p, hp, rfl⟩ := Option.map_eq_some_iff.mp h
    have := Act.load_advance hp
    simp only [load, record, hw]
    omega
  · rename_i a as hw
    split at h
    · simp only [Option.some.injEq] at h
      have : 0 < a.weight := by cases a <;> simp [Act.weight]
      simp only [← h, load, cancel, hw, Channel.close, Act.load]
      omega
    · obtain ⟨p, hp, rfl⟩ := Option.map_eq_some_iff.mp h
      have := Act.load_advance hp
      simp only [load, record, hw]
      omega

def settle (f : Feed) : Feed :=
  match _h : f.step with
  | some g => settle g
  | none => f
termination_by f.load
decreasing_by exact load_step _h

def receive (f : Feed) : Feed × Reception :=
  match f.channel.receive with
  | (_, .waits) =>
    let f := f.settle
    let (c, r) := f.channel.receive
    ({ f with channel := c }, r)
  | (c, r) => ({ f with channel := c }, r)

def take (f : Feed) : Nat → Feed × List Item
  | 0 => (f, [])
  | n + 1 =>
    match f.receive with
    | (f, .item i) =>
      let (f, items) := f.take n
      (f, i :: items)
    | (f, _) => (f, [])

def collect (f : Feed) : Feed × List Item :=
  match _h : f.channel.receive with
  | (c, .item i) =>
    let (g, items) := collect { f with channel := c }
    (g, i :: items)
  | (c, .finished) => ({ f with channel := c }, [])
  | (_, .waits) =>
    match _hs : f.step with
    | some g => collect g
    | none => (f, [])
termination_by f.load
decreasing_by
  · have := Channel.length_receive _h
    simp only [load]
    omega
  · exact load_step _hs

def abandon (f : Feed) : Feed := { f with channel := f.channel.abandon }

inductive Wish where
  | collect
  | close
  | leave
deriving DecidableEq, Repr

/-- A consumer at work: what it has received, and the feed when both sides are at rest. -/
def consume (f : Feed) (count : Nat) (wish : Wish) : Feed × List Item :=
  let (f, first) := f.settle.take count
  match wish with
  | .collect =>
    let (f, rest) := f.collect
    (f.settle, first ++ rest)
  | .close =>
    let (f, last) := f.abandon.take 1
    (f.settle, first ++ last)
  | .leave => (f.abandon.settle, first)

end Feed

end HttpRelay.Relay
