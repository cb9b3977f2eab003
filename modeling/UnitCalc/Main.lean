import UnitCalc.Command.Output
import UnitCalc.Machine
import UnitCalc.Text.Lines

/-!
# The program

Reads the environment, the arguments and, for `repl`, the lines of the input, and writes what
`UnitCalc.Command.output` says, on the platform of the machine.
-/

namespace UnitCalc

/-- The settings of the environment. -/
def readSettings : IO Settings := do
  return {
    precisionText := ← IO.getEnv Settings.precisionVariable
    logLevelText := ← IO.getEnv Settings.logLevelVariable
    titleText := ← IO.getEnv Settings.titleVariable }

/-- Writes an output, and the fault that it ends with. -/
def writeOutput (output : Output) : IO Unit := do
  let stdout ← IO.getStdout
  stdout.putStr output.out
  stdout.flush
  let stderr ← IO.getStderr
  stderr.putStr output.err
  match output.stop with
  | some (.raised (.limit limit)) => stderr.putStrLn limit.message
  | some (.raised (.failure failure)) => stderr.putStrLn failure.rendered
  | _ => pure ()

/-- Answers lines as they are entered, until the input ends or a line ends the loop. `pending` are
the lines that have been read and not been answered. -/
partial def replLoop [Platform] [LogFailure] (settings : Settings) (precision : Option Int)
    (pending : List String) : IO UInt32 := do
  writeOutput { out := Command.prompt }
  let lines ← if pending.isEmpty then Text.lines <$> (← IO.getStdin).getLine else pure pending
  match lines with
  | [] =>
    writeOutput (.line "")
    return 0
  | line :: rest =>
    let output := Command.replLine settings precision line
    writeOutput output
    if output.stop.isSome then return UInt32.ofNat output.status
    else replLoop settings precision rest

end UnitCalc

open UnitCalc

/-- Runs the command that the arguments ask for. -/
def main (args : List String) : IO UInt32 := do
  let _ : Platform := Machine.platform
  let _ : LogFailure := Machine.logFailure
  let settings ← readSettings
  match Command.parse? args with
  | none =>
    (← IO.getStderr).putStrLn
      "Usage: eval [--precision N] EXPRESSION... | repl [--precision N] | units"
    return UInt32.ofNat Command.usageStatus
  | some (.repl precision) => replLoop settings precision []
  | some command =>
    let output := command.output settings []
    writeOutput output
    return UInt32.ofNat output.status
