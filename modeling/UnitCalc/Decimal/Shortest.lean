import UnitCalc.Decimal.Basic

/-!
# The shortest decimal that reads back

Of all decimals that round to a binary64 number, `Binary64.shortest` takes one with the fewest
digits and, among those, the nearest to the number. For each count of digits it looks at the two
decimals of that many digits next to the number and asks whether one of them rounds to it; if any
decimal of that many digits does, one of these two does.
-/

namespace UnitCalc

/-- The first of `count` consecutive values, from `start` on, that a partial function gives. -/
def firstFrom {α : Type} (f : Nat → Option α) : Nat → Nat → Option α
  | 0, _ => none
  | count + 1, start =>
    match f start with
    | some a => some a
    | none => firstFrom f count (start + 1)

namespace Binary64

/-- The two multiples of the unit next to `num / den`, the nearer one first and the even one first
if both are equally near. -/
def neighbours (num den : Nat) : List Nat :=
  let below := num / den
  let rest := num % den
  if 2 * rest < den ∨ (2 * rest = den ∧ below % 2 = 0) then [below, below + 1]
  else [below + 1, below]

/-- The nearest decimal of `count` digits that rounds to a rank, as coefficient and exponent. The
magnitude of the rank has the decimal exponent `order`. -/
def decimalOfDigits? (rank : Nat) (order : Int) (count : Nat) : Option (Nat × Int) :=
  let exponent := order - count + 1
  let ratio := Decimal.inUnits (quanta rank) unit exponent
  ((neighbours ratio.1 ratio.2).find? fun c ↦ Decimal.nearestRank c exponent == rank).map
    (·, exponent)

/-- More digits than any finite binary64 number has, written out in full. -/
def maxDigits : Nat := 800

/-- The shortest decimal that rounds to the number of the given sign and rank. -/
def shortest (negative : Bool) (rank : Nat) : Decimal :=
  if rank = 0 then ⟨negative, 0, 0⟩
  else
    let order := Decimal.order (quanta rank) unit
    let (coefficient, exponent) := (firstFrom (decimalOfDigits? rank order) maxDigits 1).getD (0, 0)
    ⟨negative, coefficient, exponent⟩

/-- Shortest texts are positional for decimal exponents from `-4` to `15` and always show a point or
an exponent. -/
def shortestNotation : Decimal.Notation := ⟨-4, 16, true⟩

/-- The shortest text of a number. -/
def shortestText : Binary64 → String
  | nan => "nan"
  | infinite s => if s then "-inf" else "inf"
  | finite s a => (shortest s a).write shortestNotation

end Binary64

end UnitCalc
