import HttpRelay.Relay.Channel

/-!
Operations on a channel that take time, resumed in the order in which they were started. After
every step all of them are resumed, again and again until a round finishes none.
-/

namespace HttpRelay.Relay

inductive Task where
  | send (item : Item)
  | resend (item : Item)
  | closed
  | receive
  | collect (got : List Item)
deriving DecidableEq, Repr

inductive Value where
  | sent
  | closed
  | item (i : Item)
  | finished
  | items (is : List Item)
deriving DecidableEq, Repr

inductive Handle where
  | free
  | owned
  | gone
deriving DecidableEq, Repr

structure Scheduler where
  channel : Channel
  handle : Handle
  tasks : List (Nat × Task)
  nextSlot : Nat
  senders : List Bool
  guards : List Bool
  records : List Log.Record
deriving DecidableEq, Repr

namespace Scheduler

def start (capacity : Capacity) : Scheduler := ⟨.new capacity, .free, [], 0, [true], [], []⟩

def note (s : Scheduler) (rs : List Log.Record) : Scheduler := { s with records := s.records ++ rs }

def dropHandle (s : Scheduler) : Scheduler :=
  { s with channel := s.channel.abandon, handle := .gone }

def takeAll (c : Channel) (got : List Item) : Channel × List Item × Reception :=
  match _h : c.receive with
  | (c', .item i) => takeAll c' (i :: got)
  | (c', r) => (c', got, r)
termination_by c.queue.length
decreasing_by
  exact Channel.length_receive _h

inductive Progress where
  | going (t : Task)
  | done (v : Value)

def advance (c : Channel) (slot : Nat) : Task → Channel × Progress × List Log.Record
  | .send item =>
    match c.send slot item with
    | (c, .accepted) => (c, .done .sent, [])
    | (c, .discarded) => (c, .done .sent, [discardRecord item])
    | (c, .waits) => (c, .going (.resend item), [])
  | .resend item =>
    match c.resume slot with
    | (c, .waits) => (c, .going (.resend item), [])
    | (c, _) => (c, .done .sent, [])
  | .closed => (c, if c.closed then .done .closed else .going .closed, [])
  | .receive =>
    match c.receive with
    | (c, .item i) => (c, .done (.item i), [])
    | (c, .finished) => (c, .done .finished, [])
    | (c, .waits) => (c, .going .receive, [])
  | .collect got =>
    match takeAll c got with
    | (c, got, .finished) => (c, .done (.items got.reverse), [])
    | (c, got, _) => (c, .going (.collect got), [])

def release (s : Scheduler) : Task → Scheduler
  | .send _ | .resend _ | .closed => { s with channel := s.channel.dropSender }
  | .receive => { s with handle := .free }
  | .collect _ => s.dropHandle

def round (s : Scheduler) : List (Nat × Task) → Scheduler × List (Nat × Value)
  | [] => (s, [])
  | (slot, t) :: rest =>
    let (c, progress, records) := advance s.channel slot t
    let s := { s with channel := c }.note records
    match progress with
    | .going t =>
      let (s, done) := round s rest
      ({ s with tasks := (slot, t) :: s.tasks }, done)
    | .done v =>
      let (s, done) := round (s.release t) rest
      (s, (slot, v) :: done)

/-- Runs a number of rounds, but stops behind one that finishes no operation. -/
def rounds (s : Scheduler) : Nat → Scheduler × List (Nat × Value)
  | 0 => (s, [])
  | n + 1 =>
    match round { s with tasks := [] } s.tasks with
    | (s, []) => (s, [])
    | (s, done) =>
      let (s, later) := rounds s n
      (s, done ++ later)

def settle (s : Scheduler) : Scheduler × List (Nat × Value) := s.rounds (s.tasks.length + 1)

inductive Step where
  | send (sender : Nat) (item : Item)
  | closed (sender : Nat)
  | receive
  | collect
  | cancel (slot : Nat)
  | trySend (sender : Nat) (item : Item)
  | close (sender : Nat)
  | clone (sender : Nat)
  | dropSender (sender : Nat)
  | guard (sender : Nat)
  | dropGuard (guard : Nat)
  | abandon
  | dropHandle
deriving DecidableEq, Repr

inductive Answer where
  | nothing
  | slot (n : Nat)
  | index (n : Nat)
  | taken (accepted : Bool)
  | noSender
  | noHandle
deriving DecidableEq, Repr

def launch (s : Scheduler) (t : Task) : Scheduler × Answer :=
  ({ s with tasks := s.tasks ++ [(s.nextSlot, t)], nextSlot := s.nextSlot + 1 }, .slot s.nextSlot)

def launchSender (s : Scheduler) (t : Task) : Scheduler × Answer :=
  { s with channel := s.channel.addSender }.launch t

def drop (s : Scheduler) (slot : Nat) : Scheduler :=
  match s.tasks.find? (·.1 = slot) with
  | none => s
  | some (_, t) =>
    let s := { s with tasks := s.tasks.filter (·.1 ≠ slot) }
    match t with
    | .receive | .collect _ => s.dropHandle
    | t => { s with channel := s.channel.cancel slot }.release t

def hasSender (s : Scheduler) (sender : Nat) : Bool := s.senders.getD sender false

def withSender (s : Scheduler) (sender : Nat) (f : Scheduler → Scheduler × Answer) :
    Scheduler × Answer :=
  if s.hasSender sender then f s else (s, .noSender)

def withHandle (s : Scheduler) (f : Scheduler → Scheduler × Answer) : Scheduler × Answer :=
  if s.handle = .free then f s else (s, .noHandle)

def offer (s : Scheduler) (item : Item) : Scheduler × Answer :=
  let (c, result) := s.channel.trySend item
  ({ s with channel := c }.note (if result = Offer.full then [fullRecord] else []),
    .taken (result = Offer.accepted))

def act (s : Scheduler) : Step → Scheduler × Answer
  | .send sender item => s.withSender sender (·.launchSender (.send item))
  | .closed sender => s.withSender sender (·.launchSender .closed)
  | .receive => s.withHandle fun s => { s with handle := .owned }.launch .receive
  | .collect => s.withHandle fun s => { s with handle := .owned }.launch (.collect [])
  | .cancel slot => (s.drop slot, .nothing)
  | .trySend sender item => s.withSender sender (·.offer item)
  | .close sender => s.withSender sender fun s =>
    ({ s with channel := s.channel.close }.note (closeRecords s.channel), .nothing)
  | .clone sender => s.withSender sender fun s =>
    ({ s with channel := s.channel.addSender, senders := s.senders ++ [true] },
      .index s.senders.length)
  | .dropSender sender => s.withSender sender fun s =>
    ({ s with channel := s.channel.dropSender, senders := s.senders.set sender false }, .nothing)
  | .guard sender => s.withSender sender fun s =>
    ({ s with guards := s.guards ++ [true] }, .index s.guards.length)
  | .dropGuard guard =>
    if s.guards.getD guard false then
      ({ s with channel := s.channel.close, guards := s.guards.set guard false }, .nothing)
    else (s, .nothing)
  | .abandon => s.withHandle fun s => ({ s with channel := s.channel.abandon }, .nothing)
  | .dropHandle => if s.handle = .free then (s.dropHandle, .nothing) else (s, .nothing)

def step (s : Scheduler) (t : Step) : Scheduler × Answer × List (Nat × Value) :=
  let (s, answer) := s.act t
  let (s, done) := s.settle
  (s, answer, done)

def closedForSenders (s : Scheduler) : Option Bool :=
  if s.senders.any id then some s.channel.closed else none

def closedForConsumer (s : Scheduler) : Option Bool :=
  if s.handle = .free then some s.channel.closed else none

end Scheduler

end HttpRelay.Relay
