/-!
# The binary form of a number

A finite non-zero double is `significand * 2 ^ exponent` with natural significand. The reals that
round to it form an interval around it: half a step on each side, but only a quarter step below a
power of two, where the next smaller double is closer. `Binary` keeps that interval in units of a
quarter of the last place, so that all later reasoning is about natural numbers.
-/

namespace RiskDecision.Decimal

/-- A positive double with the interval of reals that round to it. -/
structure Binary where
  /-- The value is `significand * 2 ^ exponent`. -/
  significand : Nat
  exponent : Int
  /-- How far the interval reaches below the value, in quarters of the last place. -/
  below : Nat
  deriving Repr, DecidableEq

namespace Binary

/-- The leading bit of a significand, which is not stored. -/
def hidden : Nat := 0x10000000000000

/-- The magnitude of a finite double, from its bit pattern. -/
def ofBits (bits : UInt64) : Binary :=
  let biased : Nat := bits.toNat / hidden % 2048
  let fraction : Nat := bits.toNat % hidden
  if biased = 0 then
    ⟨fraction, -1074, 2⟩
  else
    ⟨fraction + hidden, (biased : Int) - 1075, if fraction = 0 then 1 else 2⟩

/-- The ends of the interval round to the value exactly when the significand is even. -/
def endsIncluded (b : Binary) : Bool := b.significand % 2 == 0

end Binary

end RiskDecision.Decimal
