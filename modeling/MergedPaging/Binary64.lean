/-
Binary floating-point numbers of 64 bits, as exact integers: a magnitude is
`significand * 2 ^ exponent`.  Every operation rounds the exact result once, to the
nearest, ties to even.  A number is written with the fewest decimal digits that are
read back as the same number.
-/
import MergedPaging.Text.Numeral

namespace MergedPaging

/-- A finite number.  The significand has 53 bits, fewer only at the least exponent. -/
structure Binary64 where
  negative : Bool
  significand : Nat
  exponent : Int
  deriving DecidableEq

namespace Binary64

/-- The least significand of 53 bits. -/
def leastFull : Nat := 4503599627370496

/-- The least exponent, that of numbers too small for 53 bits. -/
def minExponent : Int := -1074

/-- The greatest exponent. -/
def maxExponent : Int := 971

/-- A quotient over a power of two, as a quotient of whole numbers. -/
def scaled (num den : Nat) (exponent : Int) : Nat × Nat :=
  if 0 ≤ exponent then (num, den * Nat.pow 2 exponent.toNat)
  else (num * Nat.pow 2 (-exponent).toNat, den)

/-- A quotient rounded to the nearest whole number, a half to the even one. -/
def roundEven (num den : Nat) : Nat :=
  let whole := num / den
  let twice := 2 * (num % den)
  if twice < den then whole
  else if den < twice then whole + 1
  else whole + whole % 2

/-- The exponent at which a positive quotient has 53 bits before the point, or the least. -/
def exponentFor (num den : Nat) : Int :=
  let estimate : Int := num.log2 - den.log2 - 53
  let estimate := if estimate < minExponent then minExponent else estimate
  let (n, d) := scaled num den estimate
  if 2 * leastFull ≤ n / d then estimate + 1 else estimate

/-- The number nearest to a quotient; none if that is beyond the greatest number. -/
def ofRatio (negative : Bool) (num den : Nat) : Option Binary64 :=
  if num = 0 then some ⟨negative, 0, minExponent⟩
  else
    let exponent := exponentFor num den
    let (n, d) := scaled num den exponent
    let rounded := roundEven n d
    let (significand, exponent) :=
      if rounded = 2 * leastFull then (leastFull, exponent + 1) else (rounded, exponent)
    if maxExponent < exponent then none else some ⟨negative, significand, exponent⟩

/-- The exact magnitude, as a quotient. -/
def ratio (x : Binary64) : Nat × Nat :=
  if 0 ≤ x.exponent then (x.significand * Nat.pow 2 x.exponent.toNat, 1)
  else (x.significand, Nat.pow 2 (-x.exponent).toNat)

/-- Zero, with a sign. -/
def zero (negative : Bool) : Binary64 :=
  ⟨negative, 0, minExponent⟩

/-- The product with the number nearest to a power of ten. -/
def timesTenPow (x : Binary64) (k : Nat) : Option Binary64 := do
  let power ← ofRatio false (Nat.pow 10 k) 1
  let (n, d) := x.ratio
  let (n', d') := power.ratio
  ofRatio x.negative (n * n') (d * d')

/-- The quotient by the number nearest to a power of ten. -/
def overTenPow (x : Binary64) (k : Nat) : Option Binary64 := do
  let power ← ofRatio false (Nat.pow 10 k) 1
  let (n, d) := x.ratio
  let (n', d') := power.ratio
  ofRatio x.negative (n * d') (d * n')

/-- A whole number below 2^64 times a power of ten, rounded at each step: the whole
number, then one product, or quotients by at most 10^308 each.  None if the result is
too large. -/
def ofDigits (negative : Bool) (significand : Nat) (exponent : Int) : Option Binary64 := do
  let whole ← ofRatio negative significand 1
  if whole.significand = 0 then some whole
  else if 308 < exponent then none
  else if 0 ≤ exponent then whole.timesTenPow exponent.toNat
  else if -308 ≤ exponent then whole.overTenPow (-exponent).toNat
  else if -616 ≤ exponent then
    let shifted ← whole.overTenPow 308
    shifted.overTenPow (-exponent - 308).toNat
  else some (zero negative)

/-- Whether a whole number times a power of ten is too large for any number. -/
def exceeds (significand : Nat) (exponent : Int) : Bool :=
  let digits : Int := (Nat.toDigits 10 significand).length
  if significand = 0 then false
  else if 400 < digits + exponent then true
  else if digits + exponent < 0 then false
  else
    let (n, d) :=
      if 0 ≤ exponent then (significand * Nat.pow 10 exponent.toNat, 1)
      else (significand, Nat.pow 10 (-exponent).toNat)
    (ofRatio false n d).isNone

/-- The interval of quotients that round to a number, as numerators over one
denominator, with the number itself in the middle.  The ends belong to it if the
significand is even. -/
structure Interval where
  low : Nat
  value : Nat
  high : Nat
  denominator : Nat
  closed : Bool

/-- The neighbour below is nearer where the exponent changes. -/
def interval (x : Binary64) : Interval :=
  let atEdge := x.significand = leastFull && minExponent < x.exponent
  let value := 4 * x.significand
  let low := if atEdge then value - 1 else value - 2
  let high := value + 2
  let closed := x.significand % 2 = 0
  if 2 ≤ x.exponent then
    let unit := Nat.pow 2 (x.exponent - 2).toNat
    ⟨low * unit, value * unit, high * unit, 1, closed⟩
  else ⟨low, value, high, Nat.pow 2 (2 - x.exponent).toNat, closed⟩

/-- Whether a quotient lies in an interval. -/
def Interval.contains (i : Interval) (num den : Nat) : Bool :=
  let position := num * i.denominator
  if i.closed then i.low * den ≤ position && position ≤ i.high * den
  else i.low * den < position && position < i.high * den

/-- The multiple of 10^place that lies in the interval and is nearest to its value, if
there is one; of two equally near the greater. -/
def Interval.onGrid (i : Interval) (place : Int) : Option Nat :=
  let up := if 0 ≤ place then Nat.pow 10 place.toNat else 1
  let down := if 0 ≤ place then 1 else Nat.pow 10 (-place).toNat
  let below := i.value * down / (i.denominator * up)
  let isIn := fun d => i.contains (d * up) down
  let nearerAbove :=
    (2 * below + 1) * up * i.denominator ≤ 2 * i.value * down
  if isIn below && isIn (below + 1) then some (if nearerAbove then below + 1 else below)
  else if isIn below then some below
  else if isIn (below + 1) then some (below + 1)
  else none

/-- The first grid with a hit, from a place downward. -/
def Interval.search (i : Interval) (place : Int) : Nat → Nat × Int
  | 0 => (0, 0)
  | tries + 1 =>
    match i.onGrid place with
    | some digits => (digits, place)
    | none => i.search (place - 1) tries

/-- A place above the first digit of a positive quotient. -/
def firstPlace (num den : Nat) : Int :=
  if den ≤ num then ((Nat.toDigits 10 (num / den)).length : Int)
  else 2 - ((Nat.toDigits 10 (den / num)).length : Int)

/-- The shortest decimal `digits * 10 ^ place` that is read back as the magnitude. -/
def shortest (x : Binary64) : Nat × Int :=
  if x.significand = 0 then (0, 0)
  else
    let i := x.interval
    i.search (firstPlace i.value i.denominator) 20

/-- Digits times a power of ten, written without exponent. -/
def positional (digits : Nat) (place : Int) : List Char :=
  if 0 ≤ place then
    Nat.toDigits 10 digits ++ (if digits = 0 then [] else List.replicate place.toNat '0')
  else
    let behind := (-place).toNat
    let all := Text.padded (behind + 1) digits
    all.take (all.length - behind) ++ '.' :: all.drop (all.length - behind)

/-- Writes a number with its shortest digits, without exponent. -/
def print (x : Binary64) : List Char :=
  let (digits, place) := x.shortest
  if x.negative then '-' :: positional digits place else positional digits place

end Binary64

end MergedPaging
