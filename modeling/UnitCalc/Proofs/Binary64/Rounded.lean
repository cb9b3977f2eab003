import UnitCalc.Binary64.Power
import UnitCalc.Proofs.Binary64.Monotone

/-!
# A platform that rounds once

Powers with a whole exponent, rounded once: a platform that keeps the laws, with a power function
that can be computed. Examples are computed on it, once the namespace `Rounded` is open.
-/

namespace UnitCalc

open Binary64

variable {a n : Nat}

namespace Rounded

/-- The rank nearest to a power of a magnitude, or to its reciprocal. -/
def powerRank (reciprocal : Bool) (a n : Nat) : Nat :=
  if reciprocal then nearestRank (unit * unit ^ n) (quanta a ^ n)
  else nearestRank (unit * quanta a ^ n) (unit ^ n)

/-- The power of finite magnitudes. An exponent with a fractional part counts as zero. -/
def finitePow (a : Nat) (t : Bool) (b : Nat) : Binary64 :=
  if quanta b % unit = 0 then ofRank false (powerRank t a (quanta b / unit)) else one false

def pow : Binary64 → Binary64 → Binary64
  | finite _ a, finite t b => finitePow a t b
  | _, _ => one false

theorem powerRank_false_one (a : Nat) : powerRank false a 1 = a := by
  have hscale := nearestRank_mul_right (quanta a) 1 unit_pos
  rw [Nat.one_mul, nearestRank_quanta] at hscale
  rw [powerRank, if_neg Bool.false_ne_true, Nat.pow_one, Nat.pow_one, Nat.mul_comm, hscale]

theorem powerRank_false_le (h : a ≤ oneRank) : powerRank false a n ≤ oneRank := by
  have hpow : quanta a ^ n ≤ unit ^ n := Nat.pow_le_pow_left (quanta_one ▸ quanta_mono h) n
  have hpos : 0 < unit ^ n := Nat.pow_pos unit_pos
  rw [powerRank, if_neg Bool.false_ne_true, ← nearestRank_unit,
    ← nearestRank_mul_right unit 1 hpos, Nat.one_mul]
  exact nearestRank_mono hpos (Nat.mul_le_mul_left unit hpow)

theorem powerRank_true_le (h : oneRank ≤ a) : powerRank true a n ≤ oneRank := by
  have hle : unit ≤ quanta a := quanta_one ▸ quanta_mono h
  have hpos : 0 < quanta a ^ n := Nat.pow_pos (unit_pos.trans_le hle)
  rw [powerRank, if_pos rfl, ← nearestRank_unit, ← nearestRank_mul_right unit 1 hpos, Nat.one_mul]
  exact nearestRank_mono hpos (Nat.mul_le_mul_left unit (Nat.pow_le_pow_left hle n))

theorem finitePow_ne_nan (a : Nat) (t : Bool) (b : Nat) : finitePow a t b ≠ nan := by
  unfold finitePow
  split
  · exact ofRank_ne_nan _ _
  · exact Binary64.noConfusion

theorem finitePow_one (a : Fin rankBound) : finitePow a false oneRank = finite false a := by
  rw [finitePow, quanta_one, Nat.mod_self, if_pos rfl, Nat.div_self unit_pos, powerRank_false_one,
    ofRank_of_lt false a.isLt]

/-- A power whose rank is at most that of one is at most one. -/
theorem exists_finitePow_of_le {t : Bool} {b : Nat}
    (h : powerRank t a (quanta b / unit) ≤ oneRank) :
    ∃ r : Fin rankBound, r.val ≤ oneRank ∧ finitePow a t b = finite false r := by
  have hlt : powerRank t a (quanta b / unit) < rankBound := h.trans_lt (by decide)
  unfold finitePow
  split
  · exact ⟨⟨_, hlt⟩, h, ofRank_of_lt false hlt⟩
  · exact Platform.exists_one

scoped instance platform : Platform where
  pow := pow
  pow_ne_nan a b t := finitePow_ne_nan a t b
  pow_one := finitePow_one
  pow_le_one _ _ ha := exists_finitePow_of_le (powerRank_false_le ha)
  neg_pow_le_one _ _ ha := exists_finitePow_of_le (powerRank_true_le ha)

end Rounded

end UnitCalc
