import UnitCalc.Failure.Basic

/-!
# Faults

A failure whose message would need a number that is too long to write turns into a limit instead, so
what a stage throws is a `Fault`: a failure or a limit.
-/

namespace UnitCalc

/-- What a stage throws. -/
inductive Fault where
  | failure (failure : Failure)
  | limit (limit : Limit)
  deriving DecidableEq

/-- Whether the message of a parse error may be written. -/
def ParseError.isWritable : ParseError → Bool
  | unclosed (some token) => token.isWritable
  | unexpected token => token.isWritable
  | leftover token _ => token.isWritable
  | _ => true

/-- Whether an exponent may be written. -/
def Exponent.isWritable : Exponent → Bool
  | whole n => Text.isWritable n
  | real _ => true

/-- Whether the message of an evaluation error may be written. -/
def EvaluateError.isWritable : EvaluateError → Bool
  | notAnExpression value => value.isWritable
  | mismatch left right => left.isWritable && right.isWritable
  | zeroBase base exponent => base.isWritable && exponent.isWritable
  | powerOutOfRange base exponent => base.isWritable && exponent.isWritable
  | _ => true

/-- A parse error as a fault. -/
def ParseError.fault (error : ParseError) : Fault :=
  if error.isWritable then .failure (.parse error) else .limit .tooManyDigits

/-- A unit error as a fault. -/
def UnitError.fault (error : UnitError) : Fault := .failure (.unit error)

/-- An evaluation error as a fault. -/
def EvaluateError.fault (error : EvaluateError) : Fault :=
  if error.isWritable then .failure (.evaluate error) else .limit .tooManyDigits

theorem EvaluateError.fault_of_isWritable {error : EvaluateError} (h : error.isWritable = true) :
    error.fault = .failure (.evaluate error) := by
  rw [fault, if_pos h]

end UnitCalc
