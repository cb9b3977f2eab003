import UnitCalc.Token.Lexer

/-!
# Canonical tokens

The tokens that texts yield: names of letters, numbers that are spelled by their digits, and the
proper operators. In a text, two names or two numbers cannot follow each other, since they would be
read as one.

This describes what `Token.lex` yields; nothing here is run.
-/

namespace UnitCalc

/-- The value of a literal with a point: its whole part rounded to binary64, to which each digit
after the point is added in turn, times the quotient of one and the power of ten of its place. -/
def Literal.decimal (wholeDigits fraction : List Char) : Binary64 :=
  (fraction.zipIdx 1).foldl
    (fun x (digit, place) ↦ addDigit x (.one false / .ofRatio (10 ^ place) 1) digit)
    (.ofRatio (whole wholeDigits) 1)

namespace Token

/-- A nonempty run of digits. -/
def IsDigits (cs : List Char) : Prop := cs ≠ [] ∧ ∀ c ∈ cs, c.isDigit = true

/-- A token as it is in texts. -/
inductive IsCanonical : Token → Prop where
  | name {letters : List Char} :
      letters ≠ [] → (∀ c ∈ letters, isNameChar c = true) → IsCanonical (.name (.ofList letters))
  | integer {digits : List Char} :
      IsDigits digits → IsCanonical (.integer (Literal.whole digits : Nat) (.ofList digits))
  /-- Both the whole part and the powers of ten have to be finite as binary64 numbers. -/
  | decimal {whole fraction : List Char} :
      IsDigits whole → (∀ c ∈ fraction, c.isDigit = true) →
      Literal.whole whole < Binary64.overflowThreshold → fraction.length ≤ 308 →
      IsCanonical (.decimal (Literal.decimal whole fraction) (.ofList (whole ++ '.' :: fraction)))
  | plus : IsCanonical (.additive "+")
  | minus : IsCanonical (.additive "-")
  | times : IsCanonical (.multiplicative "*")
  | over : IsCanonical (.multiplicative "/")
  | opening : IsCanonical .opening
  | closing : IsCanonical .closing

/-- Whether a token is a name. -/
def isName : Token → Bool
  | name _ => true
  | _ => false

/-- Whether a token is a number. -/
def isNumber : Token → Bool
  | integer .. | decimal .. => true
  | _ => false

/-- No two names and no two numbers follow each other. -/
def Separated : List Token → Prop
  | t :: u :: rest =>
    ¬(t.isName = true ∧ u.isName = true) ∧ ¬(t.isNumber = true ∧ u.isNumber = true)
      ∧ Separated (u :: rest)
  | _ => True

end Token

end UnitCalc
