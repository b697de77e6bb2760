/-!
# Integers of a fixed width

Integers are stored in words of a fixed number of bits, with or without a sign. Which integers fit
is all that matters here; arithmetic is never done modulo the width.
-/

namespace RiskDecision.Decimal

/-- The natural number fits a word without sign. -/
def fitsNatural (bits n : Nat) : Bool := n < Nat.pow 2 bits

/-- The integer fits a word with a sign, which takes one of the bits. -/
def fitsSigned (bits : Nat) : Int → Bool
  | .ofNat n => fitsNatural (bits - 1) n
  | .negSucc n => fitsNatural (bits - 1) n

/-- The largest natural number of a word without sign. -/
def largestNatural (bits : Nat) : Nat := Nat.pow 2 bits - 1

end RiskDecision.Decimal
