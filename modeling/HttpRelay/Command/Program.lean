import HttpRelay.Client
import HttpRelay.Command.Help

namespace HttpRelay

def Failure.causes (e : Failure) : List String :=
  e.message :: e.fault?.toList.map (·.text)

def StartupFault.causes (e : StartupFault) : List String :=
  match e with
  | logger => [e.message]
  | connector failure => e.message :: failure.causes
  | setting fault => [e.message, fault.message]

end HttpRelay

namespace HttpRelay.Command

structure Report where
  exitCode : Nat
  output : String
  errorLines : List String
deriving DecidableEq, Repr

namespace Report

def indented (mark indent : String) (text : String) : List String :=
  match text.splitOn "\n" with
  | [] => []
  | first :: rest => (mark ++ first) :: rest.map (indent ++ ·)

def numbered (n : Nat) : List String → List String
  | [] => []
  | cause :: rest =>
    let digits := toString n
    let blanks := String.ofList (List.replicate (5 - digits.length) ' ')
    indented s!"{blanks}{digits}: " "       " cause ++ numbered (n + 1) rest

def causeLines : List String → List String
  | [cause] => indented "    " "    " cause
  | causes => numbered 0 causes

def failure (log : List String) (what : String) (causes : List String) : Report :=
  ⟨1, "", log ++ s!"Error: {what}".splitOn "\n" ++ ["", "Caused by:"] ++ causeLines causes⟩

end Report

def received : List Relay.Item → String × Nat × Option String
  | [] => ("", 0, none)
  | .fragment text :: rest =>
    let (texts, count, failure) := received rest
    (text ++ texts, count + 1, failure)
  | .failure message :: _ => ("", 0, some message)

def runWhole (client : Client) (connector : Connector) (lines : List Effect → List String)
    (x : Exchange) : Option Report :=
  let (_, r) := client.fetch connector x
  r.outcome.map fun
    | .ok snapshot => ⟨0, snapshot.text ++ "\n", lines r.effects⟩
    | .error e =>
      .failure (lines r.effects) s!"Fetch from {x.target.authority} failed" e.causes

def runStream (client : Client) (connector : Connector) (lines : List Effect → List String)
    (x : Exchange) (expected : UInt16) : Option Report :=
  let (_, feed, items) := client.stream connector x expected 0 .collect
  if feed.channel.ended then
    let (output, count, failure) := received items
    match failure with
    | some message =>
      some ⟨1, output, lines feed.effects ++ s!"{programName} error: {message}".splitOn "\n"⟩
    | none =>
      let summary := s!"Relayed {count} fragment(s) from {x.target.authority}"
      some ⟨0, output, lines (feed.effects ++ [.logged ⟨.info, .program, summary⟩])⟩
  else none

/-- Runs the program; `clock` gives the time as each log format shows it. There is no report when
the exchange waits for something that never comes. -/
def run (words : List String) (environment : Option String) (connector : Connector)
    (clock : Log.Format → String) : Option Report :=
  match Options.ofWords words environment with
  | .error .help => some ⟨0, helpText environment, []⟩
  | .error .version => some ⟨0, versionText, []⟩
  | .error (.fault f) => some ⟨1, "", f.report.splitOn "\n"⟩
  | .ok o =>
    match o.exchange with
    | .error e => some (.failure [] "Invalid request options" [e.message])
    | .ok x =>
      match Client.new o.config with
      | .error e => some (.failure [] "Failed to initialize client" e.causes)
      | .ok client =>
        let lines (es : List Effect) : List String :=
          Log.lines o.logLevel o.logFormat (clock o.logFormat) (Effect.records es)
        if o.whole then runWhole client connector lines x
        else runStream client connector lines x o.expectedStatus

end HttpRelay.Command
