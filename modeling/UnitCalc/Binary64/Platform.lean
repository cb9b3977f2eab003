import UnitCalc.Binary64.Basic

/-!
# The platform's power function

Sums, products and literals are rounded correctly, but powers are not: they are what the power
function of the platform answers, which is accurate only to about a unit in the last place. That
function is a parameter here. `Platform` has it together with what is relied on: the power of a
finite magnitude is no NaN, an exponent of one changes nothing, and a power that is at most one does
not round to more than one.

Programs make a platform out of the function they find, with `Platform.ofPow`.
-/

namespace UnitCalc

open Binary64

/-- A platform, as far as calculations depend on it. The laws are about finite bases without a sign
and about finite exponents. -/
class Platform where
  pow : Binary64 → Binary64 → Binary64
  pow_ne_nan (a b : Fin rankBound) (t : Bool) : pow (finite false a) (finite t b) ≠ nan
  pow_one (a : Fin rankBound) : pow (finite false a) (one false) = finite false a
  /-- No base up to one has a power above one, if the exponent is positive. -/
  pow_le_one (a b : Fin rankBound) (ha : a.val ≤ oneRank) :
    ∃ r : Fin rankBound, r.val ≤ oneRank ∧ pow (finite false a) (finite false b) = finite false r
  /-- No base from one on has a power above one, if the exponent is negative. -/
  neg_pow_le_one (a b : Fin rankBound) (ha : oneRank ≤ a.val) :
    ∃ r : Fin rankBound, r.val ≤ oneRank ∧ pow (finite false a) (finite true b) = finite false r

namespace Platform

/-! ## Platforms from functions -/

/-- The number itself if it lies between zero and one, and otherwise one. -/
def clamp : Binary64 → Binary64
  | finite false r => if r.val ≤ oneRank then finite false r else one false
  | _ => one false

theorem exists_one : ∃ r : Fin rankBound, r.val ≤ oneRank ∧ one false = finite false r :=
  ⟨⟨oneRank, by decide⟩, Nat.le_refl _, rfl⟩

theorem exists_clamp (x : Binary64) :
    ∃ r : Fin rankBound, r.val ≤ oneRank ∧ clamp x = finite false r := by
  unfold clamp
  split
  · split
    · next r h => exact ⟨r, h, rfl⟩
    · exact exists_one
  · exact exists_one

theorem clamp_ne_nan (x : Binary64) : clamp x ≠ nan := by
  obtain ⟨r, -, hr⟩ := exists_clamp x
  simp [hr]

/-- The number itself unless it is NaN. -/
def orInfinite (x : Binary64) : Binary64 := if x = nan then infinite false else x

theorem orInfinite_ne_nan (x : Binary64) : orInfinite x ≠ nan := by
  unfold orInfinite
  split
  · simp
  · assumption

/-- The power of finite numbers by a function, with other answers where they would break a law. -/
def lawful (f : Binary64 → Binary64 → Binary64) (a : Fin rankBound) :
    Bool → Fin rankBound → Binary64
  | false, b =>
    if b.val = oneRank then finite false a
    else if a.val ≤ oneRank then clamp (f (finite false a) (finite false b))
    else orInfinite (f (finite false a) (finite false b))
  | true, b =>
    if oneRank ≤ a.val then clamp (f (finite false a) (finite true b))
    else orInfinite (f (finite false a) (finite true b))

/-- The platform with a given power function, as far as that function keeps the laws. -/
@[reducible] def ofPow (f : Binary64 → Binary64 → Binary64) : Platform where
  pow
    | finite false a, finite t b => lawful f a t b
    | x, y => f x y
  pow_ne_nan a b t := by
    change lawful f a t b ≠ nan
    cases t <;> rw [lawful]
    · split
      · simp
      split
      · exact clamp_ne_nan _
      · exact orInfinite_ne_nan _
    · split
      · exact clamp_ne_nan _
      · exact orInfinite_ne_nan _
  pow_one _ := rfl
  pow_le_one a b ha := by
    change ∃ r : Fin rankBound, r.val ≤ oneRank ∧ lawful f a false b = finite false r
    rw [lawful, if_pos ha]
    split
    · exact ⟨a, ha, rfl⟩
    · exact exists_clamp _
  neg_pow_le_one a b ha := by
    change ∃ r : Fin rankBound, r.val ≤ oneRank ∧ lawful f a true b = finite false r
    rw [lawful, if_pos ha]
    exact exists_clamp _

end Platform

end UnitCalc
