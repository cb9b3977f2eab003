import UnitCalc.Binary64.Platform
import UnitCalc.Log

/-!
# The machine

What programs take from the machine that they run on: its power function, and the report of a line
that cannot be logged. The library itself says nothing about them but the laws of a `Platform`.
-/

namespace UnitCalc

namespace Machine

/-- The machine's number. Its bits are the sign and the rank, and infinity has the rank after the
last finite one. -/
def ofBinary64 : Binary64 → Float
  | .nan => Float.ofBits (UInt64.ofNat (Binary64.rankBound + 1))
  | .infinite negative => bits negative Binary64.rankBound
  | .finite negative rank => bits negative rank
where
  bits (negative : Bool) (rank : Nat) : Float :=
    Float.ofBits (UInt64.ofNat (if negative then 2 ^ 63 + rank else rank))

def toBinary64 (x : Float) : Binary64 :=
  let bits := x.toBits.toNat
  if bits % 2 ^ 63 ≤ Binary64.rankBound then .ofRank (decide (2 ^ 63 ≤ bits)) (bits % 2 ^ 63)
  else .nan

@[reducible] def platform : Platform :=
  .ofPow fun x y ↦ toBinary64 (Float.pow (ofBinary64 x) (ofBinary64 y))

/-- A line of the log that cannot be written is replaced by a note of the command. -/
@[reducible] def logFailure : LogFailure where
  report caller _ :=
    "--- Logging error ---\n" ++
      match caller with
      | .eval => "Call stack: eval\n"
      | .repl => "Call stack: repl\n"

end Machine

end UnitCalc
