/-
Decimal numerals with a bound.  A numeral is read from left to right and the
first fault wins: a character that is no ASCII digit, or the digit with which
the value passes the bound.
-/

namespace MergedPaging.Text

/-- What is wrong with a numeral. -/
inductive NumeralFault where
  | empty
  | invalidDigit
  | tooLarge
  | tooSmall
  deriving DecidableEq

/-- The wording of a fault, as it stands in error texts. -/
def NumeralFault.message : NumeralFault → String
  | empty => "cannot parse integer from empty string"
  | invalidDigit => "invalid digit found in string"
  | tooLarge => "number too large to fit in target type"
  | tooSmall => "number too small to fit in target type"

/-- The value of an ASCII digit. -/
def digitValue (c : Char) : Option Nat :=
  if c.isDigit then some (c.toNat - '0'.toNat) else none

/-- The value of a digit of base sixteen, in either case. -/
def hexValue (c : Char) : Option Nat :=
  if c.isDigit then some (c.toNat - 48)
  else if 'a' ≤ c ∧ c ≤ 'f' then some (c.toNat - 87)
  else if 'A' ≤ c ∧ c ≤ 'F' then some (c.toNat - 55)
  else none

/-- The number that digits of a base of at most sixteen stand for. -/
def valueOf (base : Nat) (digits : List Char) : Nat :=
  digits.foldl (fun n c => base * n + (hexValue c).getD 0) 0

/-- Reads digits on from the value `n`, keeping the value at most `bound`; `beyond`
is the fault of a value that passes it. -/
def readDigits (bound : Nat) (beyond : NumeralFault) (n : Nat) :
    List Char → Except NumeralFault Nat
  | [] => .ok n
  | c :: rest =>
    match digitValue c with
    | none => .error .invalidDigit
    | some d =>
      if 10 * n + d ≤ bound then readDigits bound beyond (10 * n + d) rest
      else .error beyond

/-- Signed 64-bit numbers are those from `-int64Limit` on and below `int64Limit`. -/
def int64Limit : Nat := 9223372036854775808

/-- A signed 64-bit numeral: at most one sign, then at least one digit. -/
def readInt64 : List Char → Except NumeralFault Int
  | [] => .error .empty
  | ['+'] => .error .invalidDigit
  | ['-'] => .error .invalidDigit
  | '-' :: digits => (readDigits int64Limit .tooSmall 0 digits).map fun n => -(n : Int)
  | '+' :: digits => (readDigits (int64Limit - 1) .tooLarge 0 digits).map fun n => (n : Int)
  | digits => (readDigits (int64Limit - 1) .tooLarge 0 digits).map fun n => (n : Int)

/-- An unsigned numeral of at most `bound`, with at most one `+` before it. -/
def readNat (bound : Nat) : List Char → Except NumeralFault Nat
  | [] => .error .empty
  | ['+'] => .error .invalidDigit
  | '+' :: digits => readDigits bound .tooLarge 0 digits
  | digits => readDigits bound .tooLarge 0 digits

/-- The digits of a number, filled up with zeros on the left to `width`. -/
def padded (width n : Nat) : List Char :=
  let digits := Nat.toDigits 10 n
  List.replicate (width - digits.length) '0' ++ digits

end MergedPaging.Text
