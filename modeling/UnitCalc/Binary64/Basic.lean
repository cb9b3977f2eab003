import UnitCalc.WholePower

/-!
# Binary64 numbers

The numbers the calculator computes with are the values of the IEEE 754 binary64 format, with a
single NaN.

A finite magnitude is named by its *rank*, its place among the finite magnitudes in increasing
order: rank `0` is zero, rank `1` the least positive magnitude, and the last rank is
`2047 * 2 ^ 52 - 1`. Every magnitude is a whole number of *quanta* of `2 ^ -1074`, so sums and
products of magnitudes are computed on natural numbers without error, and `nearestRank` is the only
place where anything is rounded.

## Representation

Ranks make the representation canonical with a single bound: there is no normalisation to maintain,
equal numbers are equal terms, and the order of ranks is the order of magnitudes.

Large constants stand on the left of sums and products throughout. Addition and multiplication of
natural numbers recurse on their right argument, so a term such as `2 ^ 52 * n` is stuck on `n`,
where `n * 2 ^ 52` would be unfolded step by step when a proof is checked.
-/

namespace UnitCalc

/-- The number of finite magnitudes, and the first rank that is too large for one. -/
abbrev Binary64.rankBound : Nat := 2047 * 2 ^ 52

/-- A binary64 number. Zero and infinity are signed; all NaNs are one. -/
inductive Binary64 where
  | nan
  | infinite (negative : Bool)
  | finite (negative : Bool) (rank : Fin Binary64.rankBound)
  deriving DecidableEq

namespace Binary64

/-! ## Ranks and quanta -/

/-- The number of quanta in one. -/
def unit : Nat := 2 ^ 1074

/-- The significand of a rank: below `2 ^ 53`, and at least `2 ^ 52` outside the lowest ranks. -/
def significand (rank : Nat) : Nat :=
  if rank < 2 ^ 52 then rank else 2 ^ 52 + rank % 2 ^ 52

/-- The binary exponent of a rank, counted from the spacing of the least magnitudes. -/
def binade (rank : Nat) : Nat := rank / 2 ^ 52 - 1

/-- The magnitude of a rank, in quanta. -/
def quanta (rank : Nat) : Nat := significand rank * 2 ^ binade rank

/-- The whole number nearest to `num / den`, a half going to the even neighbour. -/
def roundDiv (num den : Nat) : Nat :=
  let whole := num / den
  let rest := num % den
  if 2 * rest < den then whole
  else if den < 2 * rest then whole + 1
  else whole + whole % 2

/-- The rank nearest to `num / den` quanta, a half going to the even significand. Magnitudes that
round above the last finite one get a rank of `rankBound` or more. -/
def nearestRank (num den : Nat) : Nat :=
  let binade := Nat.log2 (num / den) - 52
  2 ^ 52 * binade + roundDiv num (den * 2 ^ binade)

/-- The number of a given sign and rank, infinite if the rank is too large. -/
def ofRank (negative : Bool) (rank : Nat) : Binary64 :=
  if h : rank < rankBound then finite negative ⟨rank, h⟩ else infinite negative

/-- The number nearest to `num / den` quanta, with the given sign. -/
def ofQuanta (negative : Bool) (num den : Nat) : Binary64 :=
  ofRank negative (nearestRank num den)

/-- A finite number as a signed count of quanta. -/
def signedQuanta (negative : Bool) (rank : Nat) : Int :=
  if negative then -(quanta rank : Int) else quanta rank

/-! ## Constants and classes -/

/-- Zero with the given sign. -/
def zero (negative : Bool) : Binary64 := finite negative ⟨0, by decide⟩

/-- The rank of one. -/
abbrev oneRank : Nat := 1023 * 2 ^ 52

/-- One with the given sign. -/
def one (negative : Bool) : Binary64 := finite negative ⟨oneRank, by decide⟩

theorem zero_eq_finite {a : Fin rankBound} (s : Bool) (ha : a.val = 0) : zero s = finite s a :=
  congrArg (finite s) (Fin.ext ha.symm)

theorem one_eq_finite {a : Fin rankBound} (s : Bool) (ha : a.val = oneRank) : one s = finite s a :=
  congrArg (finite s) (Fin.ext ha.symm)

/-- Neither infinite nor NaN. -/
def isFinite : Binary64 → Bool
  | finite _ _ => true
  | _ => false

def isInfinite : Binary64 → Bool
  | infinite _ => true
  | _ => false

/-- The least whole number that rounds to no finite number: half way between the last finite
magnitude and the power of two after it. -/
def overflowThreshold : Nat := 2 ^ 1024 - 2 ^ 970

/-! ## Arithmetic -/

/-- The sum. An exact zero is positive unless both terms are negative zeros. -/
def add : Binary64 → Binary64 → Binary64
  | nan, _ => nan
  | _, nan => nan
  | infinite s, infinite t => if s = t then infinite s else nan
  | infinite s, finite _ _ => infinite s
  | finite _ _, infinite t => infinite t
  | finite s a, finite t b =>
    let total := signedQuanta s a + signedQuanta t b
    if total = 0 then zero (s && t) else ofQuanta (decide (total < 0)) total.natAbs 1

/-- The number with the opposite sign. -/
def neg : Binary64 → Binary64
  | nan => nan
  | infinite s => infinite (!s)
  | finite s a => finite (!s) a

/-- The product. -/
def mul : Binary64 → Binary64 → Binary64
  | nan, _ => nan
  | _, nan => nan
  | infinite s, infinite t => infinite (s ^^ t)
  | infinite s, finite t b => if b.val = 0 then nan else infinite (s ^^ t)
  | finite s a, infinite t => if a.val = 0 then nan else infinite (s ^^ t)
  | finite s a, finite t b => ofQuanta (s ^^ t) (quanta a * quanta b) unit

/-- The quotient. -/
def div : Binary64 → Binary64 → Binary64
  | nan, _ => nan
  | _, nan => nan
  | infinite _, infinite _ => nan
  | infinite s, finite t _ => infinite (s ^^ t)
  | finite s _, infinite t => zero (s ^^ t)
  | finite s a, finite t b =>
    if b.val = 0 then
      if a.val = 0 then nan else infinite (s ^^ t)
    else ofQuanta (s ^^ t) (unit * quanta a) (quanta b)

instance : Add Binary64 := ⟨add⟩
instance : Neg Binary64 := ⟨neg⟩
instance : Sub Binary64 := ⟨fun x y ↦ add x (neg y)⟩
instance : Mul Binary64 := ⟨mul⟩
instance : Div Binary64 := ⟨div⟩

/-- Equality of the numbers denoted: NaN differs from itself, and the two zeros are equal. -/
def sameNumber : Binary64 → Binary64 → Bool
  | nan, _ => false
  | _, nan => false
  | finite s a, finite t b => a == b && (s == t || a.val == 0)
  | x, y => x == y

/-! ## Whole numbers -/

/-- The number nearest to a whole number, if that number is finite. -/
def ofInt? (n : Int) : Option Binary64 :=
  match ofQuanta (decide (n < 0)) (unit * n.natAbs) 1 with
  | finite s a => some (finite s a)
  | _ => none

/-- The number nearest to `num / den`. -/
def ofRatio (num den : Nat) : Binary64 := ofQuanta false (unit * num) den

/-- A finite number without a fractional part. -/
def isIntegral : Binary64 → Bool
  | finite _ a => quanta a % unit == 0
  | _ => false

/-- A finite number with its fractional part dropped, and zero for any other. -/
def truncate : Binary64 → Int
  | finite s a =>
    let whole : Int := (quanta a / unit : Nat)
    if s then -whole else whole
  | _ => 0

/-! ## Small facts -/

@[simp] theorem isFinite_finite (s : Bool) (a : Fin rankBound) :
    (finite s a).isFinite = true := rfl

/-- Only a finite number is both not infinite and different from NaN. -/
theorem isFinite_iff {x : Binary64} : x.isFinite = true ↔ x.isInfinite = false ∧ x ≠ nan := by
  cases x <;> simp [isFinite, isInfinite]

/-- A finite result has the rank it was given. -/
theorem ofRank_of_lt {rank : Nat} (s : Bool) (h : rank < rankBound) :
    ofRank s rank = finite s ⟨rank, h⟩ := by
  rw [ofRank, dif_pos h]

/-- Rounding never gives NaN. -/
theorem ofRank_ne_nan (s : Bool) (rank : Nat) : ofRank s rank ≠ nan := by
  unfold ofRank
  split <;> simp

end Binary64

end UnitCalc
