import HttpRelay.Config
import HttpRelay.Exchange.Feed
import HttpRelay.Producer
import HttpRelay.Stats

namespace HttpRelay

open Relay

structure Client where
  capacity : Capacity
  pool : Pool
  stats : Stats

namespace Client

def ofConfig (c : Config) (fits : c.channelCapacity ≤ maxPermits) : Client :=
  ⟨⟨c.channelCapacity, Nat.lt_succ_of_le fits⟩, .new c.blockingThreads, .empty⟩

theorem maxCapacity_le : Config.maxCapacity ≤ maxPermits := by decide

def new (c : Config) : Except StartupFault Client :=
  match h : c.validate with
  | .error fault => .error (.setting fault)
  | .ok _ => .ok (ofConfig c (Nat.le_trans (Config.capacity_le_of_validate h) maxCapacity_le))

def note (c : Client) (es : List Effect) : Client := { c with stats := c.stats.noteAll es }

def fetch (c : Client) (connector : Connector) (x : Exchange) : Client × Run Snapshot :=
  let r := x.fetch connector
  (c.note r.effects, r)

def stream (c : Client) (connector : Connector) (x : Exchange) (expected : UInt16) (count : Nat)
    (wish : Feed.Wish) : Client × Feed × List Item :=
  let (f, items) := (x.feed connector expected c.capacity).consume count wish
  (c.note f.effects, f, items)

def produce (c : Client) (job : Nat) (p : Producer) (count : Nat) (wish : Feed.Wish) :
    Client × Feed × List Item :=
  let pool := c.pool.request job
  let (f, items) := (p.feed c.capacity).consume count wish
  let pool := if f.work.isEmpty then pool.finish job else pool
  ({ c with pool := pool }.note f.effects, f, items)

end Client

end HttpRelay
