/-!
# Powers of whole numbers

Throughout this library `x ^ n` for natural numbers and integers is the power by repeated
multiplication that comes with these types. Other instances of a power, such as that of a monoid,
may be in scope as well; the priorities below keep them from being chosen, so that a definition is
the same term whatever else is imported where it is read.
-/

namespace UnitCalc

attribute [scoped instance (10000)] instPowNat
attribute [default_instance (20000)] instPowNat

end UnitCalc
