/-
Decimal numbers of 96 bits: a magnitude is a mantissa below 2^96 over a power of
ten of at most 28, and a number is a magnitude with a sign.  The scale is kept
(`1.50` stays apart from `1.5`), but comparison is of values.
-/

namespace MergedPaging

/-- A non-negative decimal number, `mantissa / 10 ^ scale`. -/
structure Magnitude where
  mantissa : Nat
  scale : Nat
  mantissa_lt : mantissa < 79228162514264337593543950336 := by omega
  scale_le : scale ≤ 28 := by omega
  deriving DecidableEq

/-- A decimal number.  A zero with a sign is one that a negative number was rounded to. -/
structure Decimal extends Magnitude where
  negative : Bool

namespace Decimal

/-- A magnitude with a sign; zero takes none. -/
def ofMagnitude (negative : Bool) (m : Magnitude) : Decimal :=
  { m with negative := negative && m.mantissa != 0 }

/-- The whole number `n`, if it fits 96 bits. -/
def ofInt? (n : Int) : Option Decimal :=
  if h : n.natAbs < 79228162514264337593543950336 then
    some (ofMagnitude (n < 0) { mantissa := n.natAbs, scale := 0 })
  else none

def zero : Decimal :=
  ofMagnitude false { mantissa := 0, scale := 0 }

/-- The greatest decimal number. -/
def max : Decimal :=
  ofMagnitude false { mantissa := 79228162514264337593543950335, scale := 0 }

/-- The numerator of the value over `10 ^ scale`. -/
def numerator (d : Decimal) : Int :=
  if d.negative then -(d.mantissa : Int) else d.mantissa

/-- Numbers compare by value: both numerators are brought over one power of ten. -/
instance : Ord Decimal where
  compare a b := compare (a.numerator * Nat.pow 10 b.scale) (b.numerator * Nat.pow 10 a.scale)

/-- Numbers are equal if their values are, so `1.5 == 1.50`, and both zeros are one. -/
instance : BEq Decimal where
  beq a b := compare a b == .eq

end Decimal

end MergedPaging
