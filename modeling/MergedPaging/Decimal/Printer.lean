/-
The text of a decimal number: a sign if it is negative, at least one digit before
the point, and exactly `scale` digits behind it.
-/
import MergedPaging.Decimal.Basic
import MergedPaging.Text.Numeral

namespace MergedPaging

/-- The digits of the mantissa, cut `scale` places before their end. -/
def Magnitude.digits (m : Magnitude) : List Char :=
  let all := Text.padded (m.scale + 1) m.mantissa
  if m.scale = 0 then all
  else all.take (all.length - m.scale) ++ '.' :: all.drop (all.length - m.scale)

namespace Decimal

def print (d : Decimal) : List Char :=
  if d.negative then '-' :: d.digits else d.digits

instance : ToString Decimal where
  toString d := String.ofList d.print

end Decimal

end MergedPaging
