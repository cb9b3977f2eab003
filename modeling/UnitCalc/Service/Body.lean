import UnitCalc.Service.Basic

/-!
# Bodies of requests

A body holds an expression and may hold a precision, which is a whole number of at least one. The
precision may also be given as a real number without a fractional part, as `true`, or as text.
-/

namespace UnitCalc

namespace Service

/-! ## Whole numbers as text -/

/-- The white space that may stand around a number in a body: blanks other than the four information
separators. -/
def isNumberSpace (c : Char) : Bool := Text.isBlank c && !(0x1C ≤ c.toNat && c.toNat ≤ 0x1F)

/-- Digits without the zeros before them. Once a zero has been read, underscores may follow in any
number until the first other digit. -/
def dropLeadingZeros : List Char → List Char
  | '0' :: cs =>
    match cs.dropWhile fun c ↦ c == '0' || c == '_' with
    | [] => ['0']
    | '.' :: fraction => '0' :: '.' :: fraction
    | number => number
  | cs => cs

/-- Digits without the zeros after a point, of which there must be one at least. -/
def dropPointZeros (cs : List Char) : List Char :=
  match cs.dropWhile (· != '.') with
  | '.' :: '0' :: zeros => if zeros.all (· == '0') then cs.takeWhile (· != '.') else cs
  | _ => cs

/-- Reads a whole number: an optional sign, digits with single underscores among them, and any zeros
before them or after a point. Only the digits that are left without these zeros are limited. -/
def readNumber? (s : String) : Option Int := do
  let (negative, cs) := Text.takeSign (Text.trim isNumberSpace s.toList)
  let n : Int ← Text.readWhole? (dropPointZeros (dropLeadingZeros cs))
  some (if negative then -n else n)

/-! ## Fields -/

/-- The whole number that a field stands for. Real numbers without a fractional part count, below
`2 ^ 63`; so do `true` and `false`, and text. -/
def Field.integer? : Field → Option Int
  | integer n => some n
  | boolean b => some (if b then 1 else 0)
  | real x =>
    if x.isIntegral ∧ x.truncate.natAbs < 2 ^ 63 then some x.truncate else none
  | text s => readNumber? s
  | _ => none

/-- The precision that a field asks for, if it is a proper one. -/
def Field.precision? : Field → Option (Option Int)
  | null => some none
  | field => do
    let n ← field.integer?
    if 1 ≤ n then some (some n) else none

/-- The expression and precision of a body, or the places where it is wrong. -/
def readBody : Body → Except (List Place) (String × Option Int)
  | .record fields =>
    let text? := match fields.lookup "expression" with
      | some (.text s) => some s
      | _ => none
    let precision? := ((fields.lookup "precision").getD .null).precision?
    match text?, precision? with
    | some text, some precision => .ok (text, precision)
    | none, some _ => .error [["body", "expression"]]
    | some _, none => .error [["body", "precision"]]
    | none, none => .error [["body", "expression"], ["body", "precision"]]
  | _ => .error [["body"]]

end Service

end UnitCalc
