import RiskDecision.Decimal.Binary

/-!
# The shortest decimal of a number

A number is written with the fewest digits that read back as the same number. The digits are found
on decimal grids, the multiples of `10 ^ p`: the coarsest grid that has a point in the rounding
interval of the number gives the fewest digits, and of two such points the one nearer to the number
is taken. All arithmetic is exact, on natural numbers.
-/

namespace RiskDecision.Decimal

/-- The value `digits * 10 ^ exponent`. -/
structure Shortest where
  digits : Nat
  exponent : Int
  deriving Repr, DecidableEq

/-- Which point is taken when the number lies half-way between two points of the grid. -/
inductive Tie
  | up
  | even
  deriving Repr, DecidableEq

/-- A rounding interval measured in steps of one decimal grid: the number is `value / unit` steps,
the interval reaches from `lower / unit` to `upper / unit`. -/
structure Scaled where
  lower : Nat
  value : Nat
  upper : Nat
  unit : Nat
  deriving Repr

namespace Scaled

/-- The interval of `b` on the grid of the multiples of `10 ^ p`. -/
def ofBinary (b : Binary) (p : Int) : Scaled :=
  let twos := b.exponent - 2
  let scale := Nat.pow 2 twos.toNat * Nat.pow 10 (-p).toNat
  { lower := (4 * b.significand - b.below) * scale
    value := 4 * b.significand * scale
    upper := (4 * b.significand + 2) * scale
    unit := Nat.pow 2 (-twos).toNat * Nat.pow 10 p.toNat }

/-- The `n`-th point of the grid lies in the interval. -/
def holds (s : Scaled) (ends : Bool) (n : Nat) : Bool :=
  if ends then s.lower ≤ n * s.unit && n * s.unit ≤ s.upper
  else s.lower < n * s.unit && n * s.unit < s.upper

/-- The point of the grid that stands for the number, if one lies in the interval. -/
def nearest? (s : Scaled) (tie : Tie) (ends : Bool) : Option Nat :=
  let n := s.value / s.unit
  let rest := 2 * (s.value % s.unit)
  match s.holds ends n, s.holds ends (n + 1) with
  | false, false => none
  | true, false => some n
  | false, true => some (n + 1)
  | true, true =>
    if rest < s.unit then some n
    else if s.unit < rest then some (n + 1)
    else match tie with
      | .up => some (n + 1)
      | .even => some (if n % 2 = 0 then n else n + 1)

end Scaled

/-- An exponent `p` with `b < 10 ^ p`. -/
def exponentAbove (b : Binary) : Int :=
  ((b.significand.log2 : Int) + b.exponent + 1) * 30103 / 100000 + 1

/-- Tries the grids from `10 ^ p` downwards. Seventeen digits always suffice, so the last grid tried
needs no test. -/
def searchGrid (b : Binary) (tie : Tie) (p : Int) : Nat → Shortest
  | 0 => let s := Scaled.ofBinary b p; ⟨s.value / s.unit, p⟩
  | fuel + 1 =>
    match (Scaled.ofBinary b p).nearest? tie b.endsIncluded with
    | some n => ⟨n, p⟩
    | none => searchGrid b tie (p - 1) fuel

/-- The shortest decimal of a positive double. -/
def Binary.shortest (b : Binary) (tie : Tie) : Shortest :=
  searchGrid b tie (exponentAbove b) 20

end RiskDecision.Decimal
