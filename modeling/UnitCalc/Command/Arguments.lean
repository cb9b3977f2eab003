import UnitCalc.Text.Numeral

/-!
# Commands and their arguments

Three commands: `eval` calculates its arguments as one expression, `repl` calculates lines until it
is told to stop, `units` lists the standard units. `Command.parse?` reads the arguments.
-/

namespace UnitCalc

/-- A command with its options. -/
inductive Command where
  | eval (text : String) (precision : Option Int)
  | repl (precision : Option Int)
  | units
  deriving DecidableEq

namespace Command

/-- The arguments of a command: the words, and the text of the last precision option. -/
structure Arguments where
  words : List String := []
  precision : Option String := none
  deriving DecidableEq

/-- The name of the only option. -/
def precisionOption : String := "--precision"

/-- Sorts arguments into words and options. Options may stand among the words, and end at a double
hyphen. An option has its value after an equals sign or in the next argument, whatever that is. -/
def Arguments.parse? (allowed : Bool) (acc : Arguments) : List String → Option Arguments
  | [] => some acc
  | arg :: rest =>
    if arg = "--" then some { acc with words := acc.words ++ rest }
    else if allowed ∧ arg = precisionOption then
      match rest with
      | [] => none
      | value :: rest => parse? allowed { acc with precision := some value } rest
    else if allowed ∧ (precisionOption ++ "=").isPrefixOf arg then
      let value := (arg.drop (precisionOption.length + 1)).toString
      parse? allowed { acc with precision := some value } rest
    else if "-".isPrefixOf arg ∧ arg ≠ "-" then none
    else parse? allowed { acc with words := acc.words ++ [arg] } rest

/-- The precision that an option asks for: none at all, or a positive whole number. -/
def Arguments.precision? (a : Arguments) : Option (Option Int) :=
  match a.precision with
  | none => some none
  | some text => do
    let n ← Text.readInteger? text
    if 1 ≤ n then some (some n) else none

/-- The command that a list of arguments asks for, if it is a proper one. -/
def parse? (args : List String) : Option Command := do
  let args := if args.head? = some "--" then args.tail else args
  match args with
  | "eval" :: args => do
    let a ← Arguments.parse? true {} args
    if a.words = [] then none
    else return .eval (" ".intercalate a.words) (← a.precision?)
  | "repl" :: args => do
    let a ← Arguments.parse? true {} args
    if a.words = [] then return .repl (← a.precision?) else none
  | "units" :: args => do
    let a ← Arguments.parse? false {} args
    if a.words = [] then return .units else none
  | _ => none

end Command

end UnitCalc
