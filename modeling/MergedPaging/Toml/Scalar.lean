/-
TOML numbers, truth values and times.  The first characters decide what is read, and
whatever cannot go on is left to be refused by what comes next.
-/
import MergedPaging.Binary64
import MergedPaging.Time.Calendar
import MergedPaging.Toml.Basic

namespace MergedPaging.Toml

open Text

/-- Digits, with single underscores between them; `begun` tells whether a digit has been
read just before. -/
def readGroups (isDigit : Char → Bool) : (begun : Bool) → List Char →
    Option (List Char × List Char)
  | begun, [] => if begun then some ([], []) else none
  | begun, c :: rest =>
    if isDigit c then
      (readGroups isDigit true rest).map fun (digits, rest) => (c :: digits, rest)
    else if begun && c = '_' then readGroups isDigit false rest
    else if begun then some ([], c :: rest)
    else none

/-- Removes a word from the start. -/
def readWord (word text : List Char) : Option (List Char) :=
  if word.isPrefixOf text then some (text.drop word.length) else none

/-- A whole number of 64 bits. -/
def ofInteger (negative : Bool) (n : Nat) : Option Toml :=
  if negative then (if n ≤ int64Limit then some (.integer (-(n : Int))) else none)
  else if n < int64Limit then some (.integer n)
  else none

/-- A whole number in a base behind its mark. -/
def readRadix (base : Nat) (isDigit : Char → Bool) (text : List Char) :
    Option (Toml × List Char) := do
  let (digits, rest) ← readGroups isDigit false text
  return (← ofInteger false (valueOf base digits), rest)

/-- An exponent behind its mark. -/
def readExponent (text : List Char) : Option (Int × List Char) :=
  match text with
  | '-' :: text => do
    let (digits, rest) ← readGroups Char.isDigit false text
    return (-(valueOf 10 digits : Int), rest)
  | '+' :: text => do
    let (digits, rest) ← readGroups Char.isDigit false text
    return (valueOf 10 digits, rest)
  | text => do
    let (digits, rest) ← readGroups Char.isDigit false text
    return (valueOf 10 digits, rest)

/-- An exponent, if there is one. -/
def readExponent? : List Char → Option (Option Int × List Char)
  | c :: rest =>
    if c = 'e' ∨ c = 'E' then (readExponent rest).map fun (e, rest) => (some e, rest)
    else some (none, c :: rest)
  | [] => some (none, [])

/-- A floating-point number; only one that is not negative may be too large. -/
def ofFloat (negative : Bool) (digits : List Char) (exponent : Int) : Option Toml :=
  if !negative && Binary64.exceeds (valueOf 10 digits) exponent then none else some .float

/-- A decimal number behind its sign. -/
def readDecimal (negative : Bool) (text : List Char) : Option (Toml × List Char) := do
  let (whole, rest) ← readGroups Char.isDigit false text
  if whole.head? = some '0' ∧ whole ≠ ['0'] then none
  else
    match rest with
    | '.' :: rest =>
      let (fraction, rest) ← readGroups Char.isDigit false rest
      let (exponent, rest) ← readExponent? rest
      return (← ofFloat negative (whole ++ fraction) (exponent.getD 0 - fraction.length), rest)
    | rest =>
      match ← readExponent? rest with
      | (some exponent, rest) => return (← ofFloat negative whole exponent, rest)
      | (none, rest) => return (← ofInteger negative (valueOf 10 whole), rest)

/-- One of the words for numbers that are not finite. -/
def readNonFinite (text : List Char) : Option (Toml × List Char) :=
  (readWord ['i', 'n', 'f'] text <|> readWord ['n', 'a', 'n'] text).map (.float, ·)

/-- A number behind its sign. -/
def readSigned (negative : Bool) (text : List Char) : Option (Toml × List Char) :=
  readNonFinite text <|> readDecimal negative text

/-- A number. -/
def readNumber : List Char → Option (Toml × List Char)
  | '+' :: rest => readSigned false rest
  | '-' :: rest => readSigned true rest
  | '0' :: 'x' :: rest => readRadix 16 (fun c => (hexValue c).isSome) rest
  | '0' :: 'o' :: rest => readRadix 8 (fun c => '0' ≤ c && c ≤ '7') rest
  | '0' :: 'b' :: rest => readRadix 2 (fun c => c = '0' || c = '1') rest
  | text => readSigned false text

/-- A number of two digits between `low` and `high`. -/
def readTwo (low high : Nat) : List Char → Option (Nat × List Char)
  | a :: b :: rest => do
    let n := 10 * (← digitValue a) + (← digitValue b)
    if low ≤ n ∧ n ≤ high then some (n, rest) else none
  | _ => none

/-- A fraction of a second, if there is one. -/
def skipFraction : List Char → List Char
  | '.' :: c :: rest => if c.isDigit then rest.dropWhile Char.isDigit else '.' :: c :: rest
  | text => text

/-- A time of day; the rest is what follows it. -/
def readClock (text : List Char) : Option (List Char) := do
  let (_, rest) ← readTwo 0 23 text
  let (_, rest) ← readTwo 0 59 (← readWord [':'] rest)
  let (_, rest) ← readTwo 0 60 (← readWord [':'] rest)
  return skipFraction rest

/-- A distance from universal time. -/
def readOffset : List Char → Option (List Char)
  | 'Z' :: rest => some rest
  | 'z' :: rest => some rest
  | c :: rest => do
    if c = '+' ∨ c = '-' then
      let (_, rest) ← readTwo 0 23 rest
      let (_, rest) ← readTwo 0 59 (← readWord [':'] rest)
      return rest
    else none
  | [] => none

/-- A day of the calendar; the rest is what follows it. -/
def readDay (text : List Char) : Option (List Char) := do
  let (century, rest) ← readTwo 0 99 text
  let (year, rest) ← readTwo 0 99 rest
  let (month, rest) ← readTwo 1 12 (← readWord ['-'] rest)
  let (day, rest) ← readTwo 1 31 (← readWord ['-'] rest)
  let date : Calendar.Date := ⟨100 * century + year, month, day⟩
  if date.isValid then some rest else none

/-- A time of day and an offset behind a day, if they follow. -/
def skipClock : List Char → List Char
  | c :: rest =>
    if c = 'T' ∨ c = 't' ∨ c = ' ' then
      match readClock rest with
      | some rest => (readOffset rest).getD rest
      | none => c :: rest
    else c :: rest
  | [] => []

/-- A day, with or without a time, or a time of day alone. -/
def readTime (text : List Char) : Option (Toml × List Char) :=
  ((readDay text).map skipClock <|> readClock text).map (.time, ·)

/-- A value that is neither a string nor made of other values. -/
def readScalar (text : List Char) : Option (Toml × List Char) :=
  match text with
  | 't' :: _ => (readWord ['t', 'r', 'u', 'e'] text).map (.boolean true, ·)
  | 'f' :: _ => (readWord ['f', 'a', 'l', 's', 'e'] text).map (.boolean false, ·)
  | _ => readTime text <|> readNumber text

end MergedPaging.Toml
