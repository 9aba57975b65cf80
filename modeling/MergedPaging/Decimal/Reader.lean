/-
Reading decimal numbers.  A plain numeral has an optional sign, digits with at
most one point, and underscores after the first digit.  Digits that no longer fit
(below scale 28, or beyond 96 bits behind the point) are dropped, and the first of
them rounds.  Text with an exponent is read as a plain numeral that is then shifted.
A plain zero has no sign; what a shift rounds to zero keeps the sign it had.
-/
import MergedPaging.Decimal.Basic
import MergedPaging.Text.Numeral
import MergedPaging.Text.Split

namespace MergedPaging.Decimal

open Text

/-- What is wrong with the text of a decimal number. -/
inductive Fault where
  | empty
  | noDigits
  | twoPoints
  | leadingUnderscore
  | unknownCharacter
  | tooManyDigits
  | roundedTooLarge
  | exponent
  | scale (requested : Nat)
  | tooLarge
  deriving DecidableEq

/-- The wording of a fault, as it stands in error texts. -/
def Fault.message : Fault → String
  | empty => "Invalid decimal: empty"
  | noDigits => "Invalid decimal: no digits found"
  | twoPoints => "Invalid decimal: two decimal points"
  | leadingUnderscore => "Invalid decimal: must start lead with a number"
  | unknownCharacter => "Invalid decimal: unknown character"
  | tooManyDigits => "Invalid decimal: overflow from too many digits"
  | roundedTooLarge => "Invalid decimal: overflow from mantissa after rounding"
  | exponent => "Failed to parse"
  | scale requested => s!"Scale exceeds the maximum precision allowed: {requested} > 28"
  | tooLarge => "Number exceeds maximum value that can be represented."

/-- The fault of a character that may not stand where it does. -/
def Fault.ofChar (c : Char) : Fault :=
  if c = '.' then .twoPoints else if c = '_' then .leadingUnderscore else .unknownCharacter

/-- One more in the last place.  A mantissa that leaves 96 bits by it gives up its
last digit, and with it one of the scale. -/
def bump (m : Magnitude) : Except Fault Magnitude :=
  if h : m.mantissa + 1 < 79228162514264337593543950336 then
    .ok { m with mantissa := m.mantissa + 1, mantissa_lt := h }
  else if m.scale = 0 then .error .roundedTooLarge
  else
    .ok
      { mantissa := (m.mantissa + 5) / 10
        scale := m.scale - 1
        mantissa_lt := by have := m.mantissa_lt; omega
        scale_le := by have := m.scale_le; omega }

/-- Digits count as wide from this value on, where one more could take them out of 64
bits; a margin of a byte is kept. -/
def wideMantissa : Nat := (UInt64.size - 1) / 10 - 255

/-- The first dropped digit, which rounds.  Underscores before it are skipped if the digits
before the last kept one are wide; else one in its place counts as zero. -/
def roundingDigit (m : Magnitude) (dropped : List Char) : Nat :=
  let dropped :=
    if wideMantissa ≤ m.mantissa / 10 then dropped.dropWhile (· = '_') else dropped
  (dropped.head?.bind digitValue).getD 0

/-- Ends a numeral behind the point where characters are dropped: a digit from five on
rounds up, and all of them must be digits and underscores. -/
def roundOff (m : Magnitude) (dropped : List Char) : Except Fault Magnitude :=
  match dropped.find? fun x => !(x.isDigit || x == '_') with
  | some stray => .error (.ofChar stray)
  | none => if 5 ≤ roundingDigit m dropped then bump m else .ok m

/-- A digit behind the point finds room in the scale, unless the scale is full. -/
theorem nextScale_le {m : Magnitude} {point : Bool} (hroom : ¬ (point = true ∧ m.scale = 28)) :
    (if point then m.scale + 1 else m.scale) ≤ 28 := by
  have hscale := m.scale_le
  cases point with
  | false => exact hscale
  | true =>
      have hne : m.scale ≠ 28 := fun hfull => hroom ⟨rfl, hfull⟩
      exact Nat.lt_of_le_of_ne hscale hne

/-- Reads on from the magnitude `m`; `point` and `digits` tell whether a point and a
digit have been read. -/
def scan (m : Magnitude) (point digits : Bool) : List Char → Except Fault Magnitude
  | [] => if digits then .ok m else .error .noDigits
  | c :: rest =>
    if hfull : point ∧ m.scale = 28 then roundOff m (c :: rest)
    else
      match digitValue c with
      | some d =>
        if hfit : 10 * m.mantissa + d < 79228162514264337593543950336 then
          scan
            { mantissa := 10 * m.mantissa + d
              scale := if point then m.scale + 1 else m.scale
              mantissa_lt := hfit
              scale_le := nextScale_le hfull }
            point true rest
        else if point then roundOff m (c :: rest)
        else .error .tooManyDigits
      | none =>
        if c = '.' ∧ point = false then scan m true digits rest
        else if c = '_' ∧ digits = true then scan m point digits rest
        else .error (.ofChar c)

/-- A plain numeral, without exponent. -/
def readPlain : List Char → Except Fault Decimal
  | [] => .error .empty
  | '-' :: rest => (scan zero.toMagnitude false false rest).map (ofMagnitude true)
  | '+' :: rest => (scan zero.toMagnitude false false rest).map (ofMagnitude false)
  | text => (scan zero.toMagnitude false false text).map (ofMagnitude false)

/-- Rounding a quotient by a power of ten to the nearest never makes it larger. -/
theorem roundDiv_le (m k : Nat) : (2 * m + Nat.pow 10 k) / (2 * Nat.pow 10 k) ≤ m := by
  have hpos : 0 < Nat.pow 10 k := Nat.pow_pos (by omega)
  generalize Nat.pow 10 k = p at hpos
  have hgrow : m * 1 ≤ m * p := Nat.mul_le_mul_left m hpos
  have hdouble : (m + 1) * (2 * p) = 2 * (m * p) + 2 * p := by
    rw [Nat.add_mul, Nat.mul_left_comm]
    omega
  apply Nat.le_of_lt_succ
  rw [Nat.div_lt_iff_lt_mul (by omega), Nat.succ_eq_add_one, hdouble]
  omega

/-- Drops `k` places, half a unit of the new last place away from zero. -/
def dropPlaces (m : Magnitude) (k : Nat) : Magnitude :=
  { mantissa := (2 * m.mantissa + Nat.pow 10 k) / (2 * Nat.pow 10 k)
    scale := m.scale - k
    mantissa_lt := Nat.lt_of_le_of_lt (roundDiv_le _ _) m.mantissa_lt
    scale_le := by have := m.scale_le; omega }

/-- Moves the point `x` places to the left, rounding what falls below scale 28. -/
def shiftDown (m : Magnitude) (x : Nat) : Except Fault Magnitude :=
  if 28 < x then .error (.scale x)
  else
    let kept := dropPlaces m (m.scale + x - 28)
    .ok
      { mantissa := kept.mantissa
        scale := Nat.min (m.scale + x) 28
        mantissa_lt := kept.mantissa_lt
        scale_le := Nat.min_le_right _ _ }

/-- Moves the point `x` places to the right. -/
def shiftUp (m : Magnitude) (x : Nat) : Except Fault Magnitude :=
  if x ≤ m.scale then
    .ok { m with scale := m.scale - x, scale_le := by have := m.scale_le; omega }
  else if 28 < x then .error (.scale x)
  else if h : m.mantissa * Nat.pow 10 (x - m.scale) < 79228162514264337593543950336 then
    .ok { mantissa := m.mantissa * Nat.pow 10 (x - m.scale), scale := 0, mantissa_lt := h }
  else .error .tooLarge

/-- Cuts text at its first `e` or `E`. -/
def splitExponent : List Char → Option (List Char × List Char)
  | [] => none
  | c :: rest =>
    if c = 'e' ∨ c = 'E' then some ([], rest)
    else (splitExponent rest).map fun (base, exponent) => (c :: base, exponent)

/-- The exponent of the scientific form, a 32-bit number. -/
def readExponent (text : List Char) : Except Fault Nat :=
  (readNat (UInt32.size - 1) text).mapError fun _ => .exponent

/-- A numeral in scientific form: a plain numeral and a power of ten. -/
def readScientific (base exponent : List Char) : Except Fault Decimal := do
  let number ← readPlain base
  let shifted ← match exponent with
    | '-' :: digits => readExponent digits >>= shiftDown number.toMagnitude
    | digits => readExponent digits >>= shiftUp number.toMagnitude
  return { shifted with negative := number.negative }

/-- Reads a decimal number, plain or, where that fails and there is an `e`, scientific. -/
def read (text : List Char) : Except Fault Decimal :=
  match readPlain text with
  | .ok number => .ok number
  | .error fault =>
    match splitExponent text with
    | some (base, exponent) => readScientific base exponent
    | none => .error fault

end MergedPaging.Decimal
