/-!
How many items a channel may hold, and how many jobs may run at once. Both are permits of a
semaphore, which cannot have more of them than this.
-/

namespace HttpRelay

def maxPermits : Nat := (UInt64.size - 1) / 8

abbrev Capacity := Fin (maxPermits + 1)

def Capacity.least : Capacity := ⟨0, Nat.succ_pos maxPermits⟩

end HttpRelay
