import HttpRelay.Capacity
import HttpRelay.Failure

/-!
A pool for blocking jobs: a fixed number of permits, each held by a running job until it ends,
and a line of jobs that wait for one.
-/

namespace HttpRelay

/-- Jobs are known by number; lists are in the order of the requests. -/
structure Pool where
  size : Nat
  running : List Nat
  waiting : List Nat
deriving DecidableEq, Repr

namespace Pool

def new (size : Capacity) : Pool := ⟨max size.val 1, [], []⟩

def available (p : Pool) : Nat := p.size - p.running.length

def grant (p : Pool) : Pool :=
  match p.waiting with
  | [] => p
  | job :: rest =>
    if 0 < p.available then { p with running := p.running ++ [job], waiting := rest } else p

def request (p : Pool) (job : Nat) : Pool := { p with waiting := p.waiting ++ [job] }.grant

def finish (p : Pool) (job : Nat) : Pool := { p with running := p.running.erase job }.grant

/-- The caller of a job goes away: a job in line is dropped, a running one goes on. -/
def abandon (p : Pool) (job : Nat) : Pool := { p with waiting := p.waiting.erase job }

def panicked : Failure := .worker "blocking job panicked"

end Pool

end HttpRelay
