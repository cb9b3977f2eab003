import UnitCalc.Text.Blank
import UnitCalc.Text.DecimalDigit
import UnitCalc.WholePower

/-!
# Number text

What the readers of numbers share: `numeral` reduces a text to ASCII digits without blanks around
them, `takeSign` splits a sign off, and `dropUnderscores?` drops the underscores between digits.

Whole numbers are unbounded, but only those of at most `digitLimit` digits are ever written into a
text or read from one.
-/

namespace UnitCalc

namespace Text

/-- The greatest number of digits that is written or read. -/
def digitLimit : Nat := 4300

/-- Whether a whole number may be written. -/
def isWritable (n : Int) : Bool := decide (n.natAbs < 10 ^ digitLimit)

/-! ## The text of a number -/

/-- Text with the decimal digits of every script and the blanks outside ASCII replaced by ASCII
ones. -/
def toAscii (cs : List Char) : List Char :=
  cs.map fun c ↦
    if c.toNat < 0x7F then c
    else if isBlank c then ' '
    else match digitValue? c with
      | some d => Char.ofNat ('0'.toNat + d)
      | none => c

/-- The blanks that may stand around a number: the space, the tabs and the line and page breaks. -/
def isNumeralSpace (c : Char) : Bool := c == ' ' || (0x09 ≤ c.toNat && c.toNat ≤ 0x0D)

/-- A text with ASCII digits, and without blanks around it. -/
def numeral (s : String) : List Char := trim isNumeralSpace (toAscii s.toList)

/-- Splits a sign off. -/
def takeSign : List Char → Bool × List Char
  | '-' :: cs => (true, cs)
  | '+' :: cs => (false, cs)
  | cs => (false, cs)

/-- A text without its underscores, each of which must stand between two digits. The flag says
whether a digit comes before the text. -/
def dropUnderscores? (afterDigit : Bool) : List Char → Option (List Char)
  | [] => some []
  | c :: cs =>
    if c = '_' then
      if afterDigit && cs.head?.any Char.isDigit then dropUnderscores? false cs else none
    else (dropUnderscores? c.isDigit cs).map (c :: ·)

/-- A text without underscores is kept as it is. -/
theorem dropUnderscores?_of_notMem {cs : List Char} (h : '_' ∉ cs) (afterDigit : Bool) :
    dropUnderscores? afterDigit cs = some cs := by
  induction cs generalizing afterDigit with
  | nil => rfl
  | cons c cs ih =>
    rw [List.mem_cons, not_or] at h
    rw [dropUnderscores?, if_neg (Ne.symm h.1), ih h.2, Option.map_some]

/-! ## Whole numbers -/

/-- A nonempty run of digits as a number. -/
def readDigits? (cs : List Char) : Option Nat :=
  if cs ≠ [] ∧ cs.all Char.isDigit then some (Nat.ofDigitChars 10 cs 0) else none

/-- Reads digits with single underscores among them. -/
def readWhole? (cs : List Char) : Option Nat := do
  let digits ← dropUnderscores? false cs
  if digits.length ≤ digitLimit then readDigits? digits else none

/-- Reads a whole number: optional blanks on both sides, an optional sign, and digits. -/
def readInteger? (s : String) : Option Int := do
  let (negative, body) := takeSign (numeral s)
  let n : Int ← readWhole? body
  some (if negative then -n else n)

/-! ## The text of a whole number -/

theorem toList_toString_of_nonneg {n : Int} (hn : 0 ≤ n) :
    (toString n).toList = Nat.toDigits 10 n.natAbs := by
  have habs : n.toNat = n.natAbs := by omega
  rw [Int.toString_eq_repr, Int.repr_eq_if, if_pos hn, Nat.toList_repr, habs]

theorem toList_toString_of_neg {n : Int} (hn : n < 0) :
    (toString n).toList = '-' :: Nat.toDigits 10 n.natAbs := by
  have habs : (-n).toNat = n.natAbs := by omega
  rw [Int.toString_eq_repr, Int.repr_eq_if, if_neg (Int.not_le.mpr hn), String.toList_append,
    Nat.toList_repr, habs]
  rfl

end Text

end UnitCalc
