import HttpRelay.Command.Arguments
import HttpRelay.Config
import HttpRelay.Exchange.Basic

namespace HttpRelay.Command

structure Options where
  url : Url
  method : String
  headers : List String
  data : Option String
  proxy : Option String
  expectStatus : Option UInt16
  whole : Bool
  verifyTls : Bool
  /-- In seconds. -/
  connectTimeout : Nat
  channelCapacity : Nat
  logLevel : Log.Level
  logFormat : Log.Format
deriving DecidableEq, Repr

namespace Options

def readUrl (s : String) : Except UsageFault Url :=
  (Url.parse s).mapError fun e => .badValue "<url>" e.message

def numberFault (s : String) : String :=
  let digits := Text.dropPlus s.toList
  if s.isEmpty then "cannot parse integer from empty string"
  else if digits.isEmpty || !digits.all Char.isDigit then "invalid digit found in string"
  else "number too large to fit in target type"

def readNumber (setting : Setting) (bound : Nat) (s : String) : Except UsageFault Nat :=
  match Text.unsigned? bound s.toList with
  | some n => .ok n
  | none => .error (.badValue setting.describe (numberFault s))

def readListed {α : Type} (setting : Setting) (all : List α) (name : α → String) (s : String) :
    Except UsageFault α :=
  match all.find? fun a => Text.lower (name a) == s with
  | some a => .ok a
  | none => .error (.unlistedValue setting s (all.map fun a => Text.lower (name a)))

end Options

namespace Given

variable {α : Type}

def once (g : Given) (s : Setting) (read : String → Except UsageFault α) :
    Except UsageFault (Option α) := do
  let values ← (g.valuesOf s).mapM read
  if 1 < g.mentions.count s then throw (.repeated s.describe)
  pure values.head?

def switch (g : Given) (s : Switch) : Except UsageFault Bool :=
  if 1 < g.switches.count s then .error (.repeated s!"--{s.name}")
  else .ok (g.switches.contains s)

def withoutDefault : List Setting := [.header, .data, .proxy, .expectStatus]

def withProxy (g : Given) (environment : Option String) : Given :=
  if (g.valuesOf .proxy).isEmpty then
    { g with values := g.values ++ environment.toList.map fun url => (Setting.proxy, url) }
  else g

def options (g : Given) (environment : Option String) : Except UsageFault Options := do
  let some url := g.url | throw .missingUrl
  let g := g.withProxy environment
  if let some s := withoutDefault.find? g.lacks then throw (.missingValue s)
  let url ← Options.readUrl url
  let method ← g.once .method pure
  let data ← g.once .data pure
  let proxy ← g.once .proxy pure
  let expectStatus ← g.once .expectStatus (Options.readNumber .expectStatus UInt16.size)
  let connectTimeout ← g.once .connectTimeout (Options.readNumber .connectTimeout UInt64.size)
  let channelCapacity ← g.once .channelCapacity (Options.readNumber .channelCapacity UInt64.size)
  let logLevel ← g.once .logLevel (Options.readListed .logLevel Log.Level.all Log.Level.name)
  let logFormat ← g.once .logFormat (Options.readListed .logFormat Log.Format.all Log.Format.name)
  let whole ← g.switch .whole
  let verifyTls ← g.switch .verifyTls
  pure {
    url := url
    method := method.getD "GET"
    headers := g.valuesOf .header
    data := data
    proxy := proxy
    expectStatus := expectStatus.map Nat.toUInt16
    whole := whole
    verifyTls := verifyTls
    connectTimeout := connectTimeout.getD 30
    channelCapacity := channelCapacity.getD 64
    logLevel := logLevel.getD .info
    logFormat := logFormat.getD .plain }

end Given

namespace Options

def ofWords (words : List String) (environment : Option String) :
    Except Interruption Options := do
  let given ← Given.ofWords words
  (given.options environment).mapError .fault

def blockingThreads : Capacity := ⟨2, by decide⟩

def config (o : Options) : Config where
  logLevel := o.logLevel
  logFormat := o.logFormat
  connectTimeout := 1000 * o.connectTimeout
  channelCapacity := o.channelCapacity
  blockingThreads := blockingThreads
  tlsMode := if o.verifyTls then .webPki else .insecure

def expectedStatus (o : Options) : UInt16 := o.expectStatus.getD 200

def target (o : Options) : Except SettingFault Endpoint :=
  let invalid (reason : String) := SettingFault.invalidUrl s!"{o.url.text} ({reason})"
  if o.url.scheme ≠ "https".toList then .error (invalid "only https targets are supported")
  else match o.url.host? with
    | none => .error (invalid "missing host")
    | some host =>
      .ok ⟨String.ofList (Proxy.stripBrackets host), (o.url.port?.getD 443).toUInt16⟩

def readHeader (raw : String) : Except SettingFault (String × String) :=
  match Text.splitFirst ':' raw.toList with
  | none => .error (.invalidHeader raw)
  | some (name, value) =>
    let name := Text.trimChars name
    if name.isEmpty then .error (.invalidHeader raw)
    else .ok (String.ofList name, String.ofList (Text.trimChars value))

def userAgent : String :=
  "Mozilla/5.0 (Windows NT 10.0; Win64; x64) AppleWebKit/537.36 (KHTML, like Gecko) " ++
    "Chrome/131.0.0.0 Safari/537.36"

def request (o : Options) : Except SettingFault Request := do
  let headers ← o.headers.mapM readHeader
  let r := Request.new (Text.upper o.method) (String.ofList o.url.requestTarget)
  let r := { r with headers := headers }
  let r := if r.headers.has "User-Agent" then r else r.addHeader "User-Agent" userAgent
  pure (match o.data with
    | some data => r.withBody (Utf8.encode data)
    | none => r)

def exchange (o : Options) : Except SettingFault Exchange := do
  let target ← o.target
  let request ← o.request
  pure ⟨target, o.proxy, request⟩

end Options

end HttpRelay.Command
