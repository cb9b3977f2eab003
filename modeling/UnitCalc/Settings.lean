import UnitCalc.Text.Capital
import UnitCalc.Text.Numeral

/-!
# Settings

Three environment variables configure the program: the number of significant digits, the log level
and the title of the service. A value that makes no sense counts as unset.
-/

namespace UnitCalc

/-- The values of the environment variables that are set. -/
structure Settings where
  precisionText : Option String := none
  logLevelText : Option String := none
  titleText : Option String := none

namespace Settings

/-- The variables, in the order of the fields. -/
def precisionVariable : String := "SICONVERT_PRECISION"
def logLevelVariable : String := "SICONVERT_LOG_LEVEL"
def titleVariable : String := "SICONVERT_API_TITLE"

/-- The number of significant digits, if it is set to a positive whole number. -/
def precision (s : Settings) : Option Int := do
  let n ← Text.readInteger? (← s.precisionText)
  if 0 < n then some n else none

/-- The log levels by name. -/
def levels : List (String × Nat) :=
  [ ("CRITICAL", 50), ("FATAL", 50), ("ERROR", 40), ("WARN", 30), ("WARNING", 30), ("INFO", 20),
    ("DEBUG", 10), ("NOTSET", 0) ]

/-- The level of warnings, which applies if no level is set. -/
def defaultLevel : Nat := 30

/-- The least level that is logged. -/
def logLevel (s : Settings) : Nat :=
  match s.logLevelText with
  | none => defaultLevel
  | some text => (levels.lookup (Text.toCapitals (Text.strip text))).getD defaultLevel

/-- The title of the service. -/
def title (s : Settings) : String := s.titleText.getD "siconvert API"

theorem precision_pos {s : Settings} {n : Int} (h : s.precision = some n) : 0 < n := by
  simp only [precision, Option.bind_eq_bind, Option.bind_eq_some_iff] at h
  obtain ⟨_, -, _, -, h⟩ := h
  split at h
  · simp only [Option.some.injEq] at h
    omega
  · simp at h

end Settings

end UnitCalc
