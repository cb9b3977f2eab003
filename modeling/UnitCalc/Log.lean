import UnitCalc.Failure.Message
import UnitCalc.Session

/-!
# The log

What a calculation writes to the log: one line for each stage that arrives at something, one for a
unit that is not found, and one for the outcome.

A line that spells out an expression cannot be written if a whole number in it has too many digits.
The calculation goes on all the same, and the logging facility reports in place of the line where in
the program it was logged. The text of that report is a parameter, `LogFailure`.
-/

namespace UnitCalc

/-! ## Levels -/

/-- The level of a log line. -/
inductive LogLevel where
  | debug
  | info
  deriving DecidableEq

namespace LogLevel

def name : LogLevel → String
  | debug => "DEBUG"
  | info => "INFO"

/-- Lines below the level of the settings are not written. -/
def severity : LogLevel → Nat
  | debug => 10
  | info => 20

end LogLevel

/-! ## Lines -/

/-- A line for the log. -/
inductive LogLine where
  | lexed (text : String) (count : Nat)
  | parsed (count : Nat) (expression : Expr)
  | notFound (symbol : String)
  | outcome (message : String)
  deriving DecidableEq

namespace LogLine

def level : LogLine → LogLevel
  | lexed .. | parsed .. | notFound _ => .debug
  | outcome _ => .info

def message : LogLine → Except Limit String
  | lexed text count =>
    .ok ("lexed " ++ Text.quoted text ++ " into " ++ toString count ++ " tokens")
  | parsed count expression => do
    return "parsed " ++ toString count ++ " tokens into " ++ (← expression.display?)
  | notFound symbol => .ok ("unit lookup failed for " ++ Text.quoted symbol)
  | outcome message => .ok message

/-- Whether the settings let a line through. -/
def isShown (settings : Settings) (line : LogLine) : Bool :=
  settings.logLevel ≤ line.level.severity

/-- The lines that a calculation logs: what each stage arrived at, the unit that was not found, and
the event for the outcome. -/
def ofCalculation [Platform] (text : String) : List LogLine :=
  match Token.lex text with
  | .error fault => ofOutcome (.error fault)
  | .ok tokens =>
    lexed text tokens.length ::
      match Expr.parse tokens with
      | .error fault => ofOutcome (.error fault)
      | .ok e =>
        let result := e.evaluate UnitTable.standard
        parsed tokens.length e :: (ofLookup result ++ ofOutcome result)
where
  /-- The line about an unknown unit. -/
  ofLookup : Except Fault Quantity → List LogLine
    | .error (.failure (.evaluate (.unknownUnit symbol))) => [notFound symbol]
    | _ => []
  /-- The line about the outcome. -/
  ofOutcome (result : Except Fault Quantity) : List LogLine :=
    (Event.outcomeMessage? result).toList.map outcome

end LogLine

/-! ## Writing lines -/

/-- The commands that calculate, from which lines are logged. -/
inductive Caller where
  | eval
  | repl
  deriving DecidableEq

/-- What the logging facility reports when a line cannot be written. The report shows from where the
line was logged. -/
class LogFailure where
  report : Caller → LogLine → String

/-- What is written for a line. -/
def LogLine.render [LogFailure] (caller : Caller) (line : LogLine) : String :=
  match line.message with
  | .ok message => "[" ++ line.level.name ++ "] " ++ message ++ "\n"
  | .error _ => LogFailure.report caller line

end UnitCalc
