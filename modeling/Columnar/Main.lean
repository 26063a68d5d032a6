import Columnar.Command.Outcome

/-! The command itself: arguments, variables and files on one side, documents and messages on the
other. -/
namespace Columnar

/-- How the command is used. -/
def usageText : String :=
  "Usage: columnar [--log-level LEVEL] convert|pivot|inspect [OPTIONS]\n"

/-- The variables that settings are taken from. -/
def settingVariables : List String :=
  [CommandLine.logLevelVariable, CodecSettings.layoutVariable, CodecSettings.poolSizeVariable,
    CodecSettings.bufferCapacityVariable, TelemetrySettings.serviceVariable,
    TelemetrySettings.formatVariable, TelemetrySettings.attributesVariable]

def currentEnvironment : IO Environment := do
  let settings ← settingVariables.mapM fun name => return (name, ← IO.getEnv name)
  return settings.filterMap fun (name, text) => text.map (name, ·)

/-- All that is still to be read. -/
partial def readRest (stream : IO.FS.Stream) (before : ByteArray) : IO ByteArray := do
  let piece ← stream.read 65536
  if piece.isEmpty then return before else readRest stream (before ++ piece)

/-- The contents of a file, or of the standard input; nothing if there is no such file. -/
def readInput (path : String) : IO (Option Octets) := do
  if path = "-" then return some (← readRest (← IO.getStdin) .empty).toList
  else
    try return some (← IO.FS.readBinFile path).toList
    catch _ => return none

/-- Prints and writes what a command leaves behind, and says what went wrong. -/
def settle (outcome : Outcome) : IO UInt32 := do
  let stdout ← IO.getStdout
  stdout.write ⟨outcome.printed.toArray⟩
  stdout.flush
  let outcome ←
    match outcome.file with
    | none => pure outcome
    | some (path, octets) =>
      try
        IO.FS.writeBinFile path ⟨octets.toArray⟩
        pure outcome
      catch _ => pure { outcome with fault := some .system }
  match outcome.fault with
  | none => pure ()
  | some fault => IO.eprintln fault.message
  return outcome.exitCode.toUInt32

/-- A run that was not begun. -/
def settleHalt (halt : Halt) : IO UInt32 := do
  match halt with
  | .usage => IO.eprint usageText
  | .help => IO.print usageText
  | .version => IO.println commandService
  return halt.exitCode.toUInt32

end Columnar

def main (arguments : List String) : IO UInt32 := do
  let environment ← Columnar.currentEnvironment
  match Columnar.CommandLine.parse environment arguments with
  | .error halt => Columnar.settleHalt halt
  | .ok line =>
    let contents ← Columnar.readInput line.command.input
    Columnar.settle (line.outcome environment contents)
