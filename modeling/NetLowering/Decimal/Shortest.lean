/-!
# Shortest decimals

A binary fraction is a finite decimal, so a positive number and the two ends of
the interval of numbers that read back as it are three naturals in one decimal
unit.  The shortest decimal of the interval is found by trying grids of powers
of ten from the coarsest down; the finest grid, the unit itself, holds the
number.
-/

namespace NetLowering

structure Decimal where
  digits : Nat
  exponent : Int
deriving DecidableEq, Repr

namespace Decimal

/-- A positive number between the ends of the interval that reads back as it,
all in units of `10 ^ exponent`. -/
structure Interval where
  low : Nat
  value : Nat
  high : Nat
  closed : Bool
  exponent : Int
deriving DecidableEq, Repr

namespace Interval

def contains (interval : Interval) (point : Nat) : Bool :=
  (interval.low < point && point < interval.high) ||
    (interval.closed && (point == interval.low || point == interval.high))

/-- The multiple of `grid` that stands for the number, if one of its two
neighbours on the grid reads back: the nearer of two, a tie upwards. -/
def onGrid? (interval : Interval) (grid : Nat) : Option Nat :=
  let below := interval.value / grid
  let above := below + 1
  match interval.contains (below * grid), interval.contains (above * grid) with
  | true, true => some (if 2 * interval.value < (below + above) * grid then below else above)
  | true, false => some below
  | false, true => some above
  | false, false => none

/-- Tries the grids `10 ^ power` and finer. -/
def shortestFrom (interval : Interval) : Nat → Decimal
  | 0 => ⟨interval.value, interval.exponent⟩
  | power + 1 =>
    match interval.onGrid? (Nat.pow 10 (power + 1)) with
    | some digits => ⟨digits, interval.exponent + (power + 1 : Nat)⟩
    | none => interval.shortestFrom power

def shortest (interval : Interval) : Decimal :=
  interval.shortestFrom (Nat.toDigits 10 interval.value).length

/-- The interval of `significand * 2 ^ exponent`: half a step to either side, or
a quarter below where the steps narrow, ends included when the significand is even. -/
def ofBinary (significand : Nat) (exponent : Int) (narrowBelow : Bool) : Interval :=
  let places := (2 - exponent).toNat
  let unit := Nat.pow 5 places <<< (exponent - 2 + places).toNat
  { low := (4 * significand - if narrowBelow then 1 else 2) * unit
    value := 4 * significand * unit
    high := (4 * significand + 2) * unit
    closed := significand % 2 == 0
    exponent := -places }

end Interval

end Decimal

end NetLowering
