import HttpRelay.Log
import HttpRelay.Net.Endpoint
import HttpRelay.Text.Utf8

/-!
What an exchange does: its effects in order, and how it ends. An exchange that waits for a
silent peer has no outcome.
-/

namespace HttpRelay

inductive Attempt where
  | initial
  | reconnect
deriving DecidableEq, Repr

inductive Effect where
  | connecting (target : Endpoint) (proxy : Option Endpoint)
  | attempting (attempt : Attempt) (tunnelled : Bool)
  | wrote (bytes : Bytes)
  | flushed
  | asked
  | fragment (text : String)
  | counted (category : Category)
  | logged (record : Log.Record)
deriving DecidableEq, Repr

structure Run (α : Type) where
  effects : List Effect
  outcome : Option (Except Failure α)

namespace Run

variable {α β : Type}

def ok (a : α) : Run α := ⟨[], some (.ok a)⟩

def fail (e : Failure) : Run α := ⟨[], some (.error e)⟩

/-- Waits for something that never comes. -/
def stuck : Run α := ⟨[], none⟩

def ofExcept (r : Except Failure α) : Run α := ⟨[], some r⟩

def act (e : Effect) : Run Unit := ⟨[e], some (.ok ())⟩

def log (level : Log.Level) (source : Log.Source) (message : String) : Run Unit :=
  act (.logged ⟨level, source, message⟩)

def after (es : List Effect) (r : Run α) : Run α := ⟨es ++ r.effects, r.outcome⟩

def andThen (r : Run α) (f : α → Run β) : Run β :=
  match r.outcome with
  | some (.ok a) => (f a).after r.effects
  | some (.error e) => ⟨r.effects, some (.error e)⟩
  | none => ⟨r.effects, none⟩

instance : Monad Run where
  pure := ok
  bind := andThen

def mapFailure (f : Failure → Failure) (r : Run α) : Run α :=
  { r with outcome := r.outcome.map (·.mapError f) }

def onFailure (r : Run α) (f : Failure → List Effect) : Run α :=
  match r.outcome with
  | some (.error e) => { r with effects := r.effects ++ f e }
  | _ => r

end Run

namespace Effect

def written? : Effect → Option Bytes
  | wrote bytes => some bytes
  | _ => none

def fragment? : Effect → Option String
  | fragment text => some text
  | _ => none

def record? : Effect → Option Log.Record
  | logged record => some record
  | _ => none

structure Contact where
  target : Endpoint
  proxy : Option Endpoint
  written : Bytes
deriving DecidableEq, Repr

/-- The connections that effects have asked for, in order; what is written belongs to the
latest one. -/
def contacts : List Effect → List Contact
  | [] => []
  | connecting target proxy :: rest =>
    let own := rest.takeWhile fun | connecting .. => false | _ => true
    ⟨target, proxy, (own.filterMap written?).flatten⟩ :: contacts rest
  | _ :: rest => contacts rest

def writtenBytes (es : List Effect) : Bytes := (es.filterMap written?).flatten

def fragments (es : List Effect) : List String := es.filterMap fragment?

def records (es : List Effect) : List Log.Record := es.filterMap record?

end Effect

end HttpRelay
