import HttpRelay.Text.Blank

/-!
Command lines: which words are settings, values, switches and the URL. No value is given a
meaning here.
-/

namespace HttpRelay.Command

inductive Setting where
  | method
  | header
  | data
  | proxy
  | expectStatus
  | connectTimeout
  | channelCapacity
  | logLevel
  | logFormat
deriving DecidableEq, Repr

inductive Switch where
  | whole
  | verifyTls
  | help
  | version
deriving DecidableEq, Repr

namespace Setting

def all : List Setting :=
  [method, header, data, proxy, expectStatus, connectTimeout, channelCapacity, logLevel,
    logFormat]

def name : Setting → String
  | method => "method"
  | header => "header"
  | data => "data"
  | proxy => "proxy"
  | expectStatus => "expect-status"
  | connectTimeout => "connect-timeout"
  | channelCapacity => "channel-capacity"
  | logLevel => "log-level"
  | logFormat => "log-format"

def letter? : Setting → Option Char
  | method => some 'X'
  | header => some 'H'
  | data => some 'd'
  | _ => none

def describe : Setting → String
  | header => "--header <headers>..."
  | s => s!"--{s.name} <{s.name}>"

end Setting

namespace Switch

def all : List Switch := [whole, verifyTls, help, version]

def name : Switch → String
  | whole => "whole"
  | verifyTls => "verify-tls"
  | help => "help"
  | version => "version"

def letter? : Switch → Option Char
  | help => some 'h'
  | version => some 'V'
  | _ => none

end Switch

inductive UsageFault where
  | unknownArgument (word : String)
  | missingUrl
  | missingValue (setting : Setting)
  | repeated (option : String)
  | badValue (option reason : String)
  | unlistedValue (setting : Setting) (value : String) (listed : List String)
deriving DecidableEq, Repr

inductive Interruption where
  | help
  | version
  | fault (f : UsageFault)
deriving DecidableEq, Repr

structure Given where
  values : List (Setting × String)
  mentions : List Setting
  switches : List Switch
  url : Option String
  /-- The setting that the next word may be the value of. -/
  pending : Option Setting
  plain : Bool
deriving DecidableEq, Repr

namespace Given

def empty : Given := ⟨[], [], [], none, none, false⟩

def unknown {α : Type} (word : String) : Except Interruption α :=
  .error (.fault (.unknownArgument word))

def addPlain (g : Given) (word : String) : Except Interruption Given :=
  match g.url with
  | none => .ok { g with url := some word }
  | some _ => unknown word

def addSetting (g : Given) (s : Setting) : Option (List Char) → Given
  | none => { g with mentions := g.mentions ++ [s], pending := some s }
  | some value =>
    { g with
      mentions := g.mentions ++ [s]
      values := g.values ++ [(s, String.ofList (value.dropWhile (· = '=')))]
      pending := none }

def addSwitch (g : Given) : Switch → Except Interruption Given
  | .help => .error .help
  | .version => .error .version
  | s => .ok { g with switches := g.switches ++ [s], pending := none }

def addLong (g : Given) (word : List Char) : Except Interruption Given :=
  let body := word.dropWhile (· = '-')
  let (name, value) := match Text.splitFirst '=' body with
    | some (name, value) => (String.ofList name, some value)
    | none => (String.ofList body, none)
  match Setting.all.find? (·.name == name), Switch.all.find? (·.name == name) with
  | some s, _ => .ok (g.addSetting s value)
  | none, some s => g.addSwitch s
  | none, none => unknown s!"--{name}"

def addShort (g : Given) (letter : Char) (rest : List Char) : Except Interruption Given :=
  match Setting.all.find? (·.letter? == some letter),
      Switch.all.find? (·.letter? == some letter) with
  | some s, _ => .ok (g.addSetting s (if rest.isEmpty then none else some rest))
  | none, some s => g.addSwitch s
  | none, none => unknown (String.ofList ['-', letter])

def addWord (g : Given) (word : String) : Except Interruption Given :=
  match g.pending with
  | some s => .ok { g with values := g.values ++ [(s, word)], pending := none }
  | none => g.addPlain word

def add (g : Given) (word : String) : Except Interruption Given :=
  if g.plain then g.addPlain word
  else match word.toList with
    | ['-', '-'] => .ok { g with plain := true }
    | '-' :: '-' :: rest => g.addLong rest
    | '-' :: letter :: rest => g.addShort letter rest
    | _ => g.addWord word

def ofWords (words : List String) : Except Interruption Given := words.foldlM add empty

def valuesOf (g : Given) (s : Setting) : List String :=
  (g.values.filter (·.1 = s)).map (·.2)

/-- A setting that was mentioned, but never with a value. -/
def lacks (g : Given) (s : Setting) : Bool :=
  s ∈ g.mentions && (g.valuesOf s).isEmpty

end Given

end HttpRelay.Command
