import Std.Time
import TopicBroker.Identifier
import TopicBroker.Session
import TopicBroker.Settings.Load

/-!
Command line: serves one client over the standard streams. The argument is the port that the client
counts as connecting from. Settings are loaded from the usual file and from the environment.
-/

namespace TopicBroker

def readSources : IO Settings.Sources := do
  let file ← try some <$> IO.FS.readFile "config/default.toml" catch _ => pure none
  let environment ← Environment.names.filterMapM fun name => do
    return (← IO.getEnv name).map (name, ·)
  return ⟨file, environment⟩

/-- The conditions of this moment: all operations of storage work. -/
def readConditions : IO Conditions := do
  let nanos := (← Std.Time.Timestamp.now).toNanosecondsSinceUnixEpoch.val
  let some now := Instant.of? (nanos / Instant.nanosPerSecond) (nanos % Instant.nanosPerSecond).toNat
    | throw (IO.userError "the clock is out of range")
  let bytes ← IO.getRandomBytes 16
  let start := bytes.data.foldl (fun n b => 256 * n + b.toNat) 0
  return ⟨now, fun _ => none, Identifier.supply start⟩

def writeOut (bytes : List UInt8) : IO Unit := do
  let output ← IO.getStdout
  output.write ⟨bytes.toArray⟩
  output.flush

/-- Answers the lines of the client up to the last one. -/
partial def converse (session : Session) (broker : Broker) : IO Unit := do
  let line ← (← IO.getStdin).getLine
  unless line.isEmpty do
    let service := Registry.service (← readConditions)
    let (answer, broker) := (session.answer service (Utf8.encode line)).run broker
    writeOut answer
    converse session broker

def serveClient (settings : Settings) (port : Port) : IO Unit := do
  match Session.open? settings.pools.ports port with
  | none => writeOut Session.refusal
  | some session =>
    let seed := Storage.seedTopics settings.storage.seedTopics
    let (_, broker) := seed.perform (← readConditions) (.fresh settings.broker.messageTtl)
    writeOut (Session.written .connected)
    converse session broker

end TopicBroker

/-- Serves the client whose port is the argument. -/
def main (args : List String) : IO UInt32 := do
  let [some port] := args.map String.toNat?
    | IO.eprintln "usage: topicbroker PORT"; return 1
  if h : port < 65536 then
    match TopicBroker.Settings.load (← TopicBroker.readSources) with
    | .ok settings =>
      TopicBroker.serveClient settings ⟨port, h⟩
      return 0
    | .error fault =>
      IO.eprintln fault.message
      return 1
  else
    IO.eprintln "there is no such port"
    return 1
