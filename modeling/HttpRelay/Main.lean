import HttpRelay.Command.Program
import HttpRelay.Net.Dial

open HttpRelay

def HttpRelay.Command.offline : Command.Report :=
  ⟨1, "", ["stream_relay error: the network is not available"]⟩

def main (words : List String) : IO UInt32 := do
  let environment ← IO.getEnv "HTTP_PROXY"
  let now ← IO.monoMsNow
  let report := (Command.run words environment (fun _ => Dial.secure) fun _ => toString now).getD
    Command.offline
  (← IO.getStdout).putStr report.output
  for line in report.errorLines do
    IO.eprintln line
  pure report.exitCode.toUInt32
