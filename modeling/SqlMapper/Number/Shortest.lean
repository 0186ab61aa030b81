import SqlMapper.Number.Double
import SqlMapper.Text.Numeral
/-!
# Shortest — the fewest digits that read back

The decimal text of a double has the fewest digits that still round to it, and of those the digits nearest to it; a tie
goes to the larger.  The text is positional whatever the exponent, and a whole number has no point.

All numbers near the double are counted in quarters of its last place, so the bounds of the interval of reals that round
to it are whole numbers of quarters.
-/
namespace SqlMapper

/-- A positive decimal number `coefficient * 10 ^ exponent`. -/
structure Decimal where
  coefficient : Nat
  exponent : Int
  deriving DecidableEq, Repr

/-- The reals that round to the double of significand `m` and exponent `e`, in quarters of its last place. -/
structure RoundingInterval where
  low : Nat
  value : Nat
  high : Nat
  /-- The bounds themselves round to the double. -/
  closed : Bool
  /-- A quarter is `2 ^ exponent`. -/
  exponent : Int
  deriving DecidableEq, Repr

/-- Below a power of two, but for the smallest, the doubles lie twice as close. -/
def Double.interval (x : Double) : RoundingInterval :=
  let m := x.significand
  { low := 4 * m - (if x.fractionField = 0 ∧ 1 < x.exponentField then 1 else 2)
    value := 4 * m
    high := 4 * m + 2
    closed := m % 2 == 0
    exponent := x.exponent - 2 }

namespace RoundingInterval

/-- Numerator and denominator that turn a multiple of `10 ^ k` into quarters. -/
def scale (i : RoundingInterval) (k : Int) : Nat × Nat :=
  (Nat.pow 10 k.toNat <<< (-i.exponent).toNat, Nat.pow 10 (-k).toNat <<< i.exponent.toNat)

/-- Whether `d * 10 ^ k` rounds to the double. -/
def holds (i : RoundingInterval) (k : Int) (d : Nat) : Bool :=
  let (num, den) := i.scale k
  if i.closed then i.low * den ≤ d * num && d * num ≤ i.high * den
  else i.low * den < d * num && d * num < i.high * den

/-- The nearest multiple of `10 ^ k` that rounds to the double, if there is one; a tie goes up. -/
def nearest? (i : RoundingInterval) (k : Int) : Option Nat :=
  let (num, den) := i.scale k
  let below := i.value * den / num
  let above := below + 1
  match i.holds k below, i.holds k above with
  | true, true => some (if i.value * den - below * num < above * num - i.value * den then below else above)
  | true, false => some below
  | false, true => some above
  | false, false => none

/-- The coarsest of `fuel` grids, from spacing `10 ^ k` downwards, that meets the interval. -/
def search (i : RoundingInterval) (k : Int) : Nat → Decimal
  | 0 => ⟨0, 0⟩
  | fuel + 1 =>
    match i.nearest? k with
    | some d => ⟨d, k⟩
    | none => i.search (k - 1) fuel

end RoundingInterval

/-- The shortest decimal of a finite double other than zero.  No double has a value of `10 ^ 309` or more, and no two
have a decimal grid finer than `10 ^ (-340)` between them. -/
def Double.shortest (x : Double) : Decimal := x.interval.search 309 650

/-- Positional text of a decimal number. -/
def Decimal.text (d : Decimal) : List Char :=
  let ds := digits d.coefficient
  if 0 ≤ d.exponent then ds ++ List.replicate d.exponent.toNat '0'
  else
    let places := (-d.exponent).toNat
    if places < ds.length then ds.take (ds.length - places) ++ '.' :: ds.drop (ds.length - places)
    else '0' :: '.' :: List.replicate (places - ds.length) '0' ++ ds

/-- The text of a double: its sign and its shortest decimal, or the name of what is not a finite number. -/
def Double.text (x : Double) : List Char :=
  if x.isNaN then "NaN".toList else
  let sign := if x.isNegative then ['-'] else []
  if x.isInfinite then sign ++ "inf".toList
  else if x.significand = 0 then sign ++ ['0']
  else sign ++ x.shortest.text

end SqlMapper
