import HttpRelay.Failure
import HttpRelay.Text.Blank
import HttpRelay.Text.Json

namespace HttpRelay.Log

inductive Level where
  | error
  | warn
  | info
  | debug
  | trace
deriving DecidableEq, Repr

namespace Level

def detail : Level → Nat
  | error => 1
  | warn => 2
  | info => 3
  | debug => 4
  | trace => 5

def name : Level → String
  | error => "Error"
  | warn => "Warn"
  | info => "Info"
  | debug => "Debug"
  | trace => "Trace"

def tag (l : Level) : String := Text.upper l.name

def all : List Level := [error, warn, info, debug, trace]

def parse (s : String) : Except SettingFault Level :=
  match all.find? fun l => Text.lower l.name == Text.lower s with
  | some l => .ok l
  | none => .error (.invalidValue "log-level" s!"unknown level '{Text.lower s}'")

end Level

inductive Format where
  | plain
  | json
deriving DecidableEq, Repr

namespace Format

def name : Format → String
  | plain => "Plain"
  | json => "Json"

def all : List Format := [plain, json]

def parse (s : String) : Except SettingFault Format :=
  match all.find? fun f => Text.lower f.name == Text.lower s with
  | some f => .ok f
  | none => .error (.invalidValue "log-format" s!"unknown format '{Text.lower s}'")

end Format

inductive Source where
  | client
  | connector
  | tunnel
  | engine
  | head
  | body
  | relay
  | program
deriving DecidableEq, Repr

def Source.path : Source → String
  | client => "stream_relay::client"
  | connector => "stream_relay::net::connector"
  | tunnel => "stream_relay::net::tunnel"
  | engine => "stream_relay::http::engine"
  | head => "stream_relay::http::response"
  | body => "stream_relay::http::chunked"
  | relay => "stream_relay::relay"
  | program => "stream_relay"

structure Record where
  level : Level
  source : Source
  message : String
deriving DecidableEq, Repr

def Record.line (format : Format) (time : String) (r : Record) : String :=
  match format with
  | .plain => s!"{time} {r.source.path} [{r.level.tag}] {r.message}"
  | .json =>
    "\x7b\"ts\":" ++ time ++ ",\"level\":\"" ++ r.level.tag ++ "\",\"target\":\"" ++
      r.source.path ++ "\",\"msg\":" ++ Json.literal r.message ++ "\x7d"

def lines (level : Level) (format : Format) (time : String) (rs : List Record) : List String :=
  (rs.filter (·.level.detail ≤ level.detail)).flatMap fun r => (r.line format time).splitOn "\n"

end HttpRelay.Log
