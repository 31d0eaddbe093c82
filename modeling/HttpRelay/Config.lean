import HttpRelay.Capacity
import HttpRelay.Failure
import HttpRelay.Log
import HttpRelay.Tls

namespace HttpRelay

structure Config where
  logLevel : Log.Level
  logFormat : Log.Format
  /-- In milliseconds; names are looked up and connections made within it. -/
  connectTimeout : Nat
  channelCapacity : Nat
  blockingThreads : Capacity
  tlsMode : Tls.Mode
deriving DecidableEq, Repr

namespace Config

def maxCapacity : Nat := 1048576

def validate (c : Config) : Except SettingFault Unit :=
  if c.connectTimeout = 0 then
    .error (.invalidValue "connect_timeout" "must be greater than zero")
  else if c.channelCapacity = 0 ∨ maxCapacity < c.channelCapacity then
    .error (.invalidValue "channel_capacity" s!"must be between 1 and {maxCapacity}")
  else if c.blockingThreads = .least then
    .error (.invalidValue "blocking_threads" "must be at least 1")
  else .ok ()

theorem capacity_le_of_validate {c : Config} (h : c.validate = .ok ()) :
    c.channelCapacity ≤ maxCapacity := by
  unfold validate at h
  split at h
  · cases h
  · split at h
    · cases h
    · omega

end Config

end HttpRelay
