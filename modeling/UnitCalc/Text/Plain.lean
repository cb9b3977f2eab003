/-!
# Plain text

Text that is repeated in an output is made plain first: the control sequences that terminals act on,
such as those for colours, are dropped.
-/

namespace UnitCalc

namespace Text

/-- The character that control sequences begin with. -/
def escapeChar : Char := '\x1b'

/-- The length of the control sequence whose escape character stands before a text: a bracket, any
number of digits, semicolons and question marks, and a letter. -/
def sequenceLength? : List Char → Option Nat
  | '[' :: cs =>
    let parameters := cs.takeWhile fun c ↦ c.isDigit || c == ';' || c == '?'
    if (cs.drop parameters.length).head?.any Char.isAlpha then some (parameters.length + 2)
    else none
  | _ => none

/-- A text without its control sequences, and without as many characters at its start as `skip`
says. -/
def dropSequences (skip : Nat) : List Char → List Char
  | [] => []
  | c :: cs =>
    match skip with
    | skip + 1 => dropSequences skip cs
    | 0 =>
      match if c = escapeChar then sequenceLength? cs else none with
      | some length => dropSequences length cs
      | none => c :: dropSequences 0 cs

/-- A text made plain. -/
def plain (s : String) : String := String.ofList (dropSequences 0 s.toList)

end Text

end UnitCalc
