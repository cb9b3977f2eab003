import UnitCalc.Command.Arguments
import UnitCalc.Log
import UnitCalc.Text.Plain

/-!
# What commands write

`Command.output` says what a command writes and how it ends, so that only the reading of lines and
the writing are left to the program. A failed calculation ends `eval` with a status of its own,
while `repl` goes on with the next line.
-/

namespace UnitCalc

/-! ## Output -/

/-- How a program ends before it is through. -/
inductive Stop where
  | exit (status : Nat)
  /-- An error that is not handled. -/
  | raised (fault : Fault)
  deriving DecidableEq

/-- What is written to the two outputs, and whether the program ends there. -/
structure Output where
  out : String := ""
  err : String := ""
  stop : Option Stop := none
  deriving DecidableEq

namespace Output

/-- Output followed by more, unless the program has ended. -/
def andThen (a b : Output) : Output :=
  match a.stop with
  | some _ => a
  | none => ⟨a.out ++ b.out, a.err ++ b.err, b.stop⟩

/-- A line on the first output. -/
def line (s : String) : Output := { out := s ++ "\n" }

/-- The report of a failure on the second output. It may repeat a text that was entered. -/
def report (failure : Failure) : Output :=
  { err := Text.plain ("error (" ++ failure.stage.name ++ "): " ++ failure.rendered ++ "\n") }

def exit (status : Nat) : Output := { stop := some (.exit status) }

def raise (fault : Fault) : Output := { stop := some (.raised fault) }

/-- The exit status of a program. -/
def status (output : Output) : Nat :=
  match output.stop with
  | none => 0
  | some (.exit status) => status
  | some (.raised _) => 1

end Output

namespace Command

variable [Platform] [LogFailure]

/-- The log of a calculation, as far as the settings let it through. -/
def logOutput (caller : Caller) (settings : Settings) (text : String) : Output :=
  let lines := (LogLine.ofCalculation text).filter (·.isShown settings)
  { err := String.join (lines.map (LogLine.render caller)) }

/-! ## Evaluation -/

/-- What `eval` writes: the result or the report of a failure, which ends it with status 1. -/
def evalOutput (settings : Settings) (precision : Option Int) (text : String) : Output :=
  (logOutput .eval settings text).andThen
    (match calculate text with
    | .error (.failure failure) => (Output.report failure).andThen (.exit 1)
    | .error (.limit limit) => .raise (.limit limit)
    | .ok q =>
      match q.formatWith settings precision with
      | .ok s => .line s
      | .error limit => .raise (.limit limit))

/-! ## The loop -/

def prompt : String := ">> "

/-- The words that end the loop. -/
def exitWords : List String := ["quit", "exit"]

/-- What `repl` writes after the prompt when a line is entered. After the report of a failure it
goes on. -/
def replLine (settings : Settings) (precision : Option Int) (line : String) : Output :=
  let text := Text.strip line
  if text = "" then {}
  else if text ∈ exitWords then .exit 0
  else
    (logOutput .repl settings text).andThen
      (match calculate text with
      | .error (.failure failure) => .report failure
      | .error (.limit limit) => .raise (.limit limit)
      | .ok q =>
        match q.formatWith settings precision with
        | .error limit => .raise (.limit limit)
        | .ok s => .line s)

/-- What `repl` writes while lines are entered; the end of the lines ends the loop on a new line. -/
def replOutput (settings : Settings) (precision : Option Int) : List String → Output
  | [] => .line prompt
  | line :: rest =>
    ({ out := prompt } : Output).andThen
      ((replLine settings precision line).andThen (replOutput settings precision rest))

/-! ## The table -/

/-- A text with spaces after it up to a width. -/
def pad (width : Nat) (s : String) : String :=
  s ++ String.ofList (List.replicate (width - s.length) ' ')

/-- The line about a unit of a table. -/
def unitOutput (settings : Settings) (table : UnitTable) (symbol : String) (q : Quantity) :
    Output :=
  match table.describe symbol with
  | .error fault => .raise fault
  | .ok description =>
    match q.formatWith settings none with
    | .ok s => .line (pad 6 symbol ++ " " ++ pad 24 description ++ " " ++ s)
    | .error limit => .raise (.limit limit)

/-- The lines about all units of a table. -/
def unitsOutput (settings : Settings) (table : UnitTable) : Output :=
  table.units.foldl
    (fun output (symbol, q) ↦ output.andThen (unitOutput settings table symbol q)) {}

/-! ## Runs -/

/-- What a command writes when it is given input lines. -/
def output (settings : Settings) (lines : List String) : Command → Output
  | eval text precision => evalOutput settings precision text
  | repl precision => replOutput settings precision lines
  | units => unitsOutput settings .standard

/-- The exit status for improper arguments. -/
def usageStatus : Nat := 2

end Command

end UnitCalc
