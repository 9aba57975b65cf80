/-
Times as text: `YYYY-MM-DDTHH:MM:SS.fffZ`.  The reader is lenient: numbers may be
short, white space may stand between the parts, and any offset is brought to UTC.
The printer writes the fewest of 0, 3, 6 or 9 fraction digits that are exact.
-/
import MergedPaging.Text.Blank
import MergedPaging.Text.Numeral
import MergedPaging.Time.Calendar
import MergedPaging.Time.Instant

namespace MergedPaging.Timestamp

open Text

/-- At most `width` digits from the start, and what follows them. -/
def takeDigits : Nat → List Char → List Char × List Char
  | 0, text => ([], text)
  | _ + 1, [] => ([], [])
  | width + 1, c :: rest =>
    if c.isDigit then
      let (digits, rest) := takeDigits width rest
      (c :: digits, rest)
    else ([], c :: rest)

/-- A number of one to `width` digits, after white space. -/
def readNumber (width : Nat) (text : List Char) : Option (Nat × List Char) :=
  match takeDigits width (trimStart text) with
  | ([], _) => none
  | (digits, rest) => some (valueOf 10 digits, rest)

/-- A number of at most two digits between `low` and `high`. -/
def readPart (low high : Nat) (text : List Char) : Option (Nat × List Char) := do
  let (n, rest) ← readNumber 2 text
  if low ≤ n ∧ n ≤ high then some (n, rest) else none

/-- A year: with a sign of any length, without one of at most four digits. -/
def readYear (text : List Char) : Option (Int × List Char) :=
  match trimStart text with
  | '-' :: rest =>
    if rest.head?.any Char.isDigit then
      (readNumber rest.length rest).map fun (n, rest) => (-(n : Int), rest)
    else none
  | '+' :: rest =>
    if rest.head?.any Char.isDigit then
      (readNumber rest.length rest).map fun (n, rest) => ((n : Int), rest)
    else none
  | text => (readNumber 4 text).map fun (n, rest) => ((n : Int), rest)

/-- Skips white space and the character `c`. -/
def readMark (c : Char) (text : List Char) : Option (List Char) :=
  match trimStart text with
  | x :: rest => if x = c then some rest else none
  | [] => none

/-- The nanoseconds of a fraction, if there is one; digits beyond the ninth are cut. -/
def readFraction : List Char → Option (Nat × List Char)
  | '.' :: rest =>
    match takeDigits 9 rest with
    | ([], _) => none
    | (digits, rest) =>
      some (valueOf 10 digits * Nat.pow 10 (9 - digits.length), rest.dropWhile Char.isDigit)
  | text => some (0, text)

/-- The minutes of an offset, two digits below 60. -/
def readOffsetMinutes : List Char → Option (Nat × List Char)
  | a :: b :: rest =>
    if a.isDigit ∧ b.isDigit ∧ a.toNat ≤ '5'.toNat then some (valueOf 10 [a, b], rest) else none
  | _ => none

/-- An offset behind its sign, in seconds: hours and minutes, with colons or white space
between them or without. -/
def readOffsetAmount : List Char → Option (Int × List Char)
  | a :: b :: rest =>
    if a.isDigit ∧ b.isDigit then do
      let separated := rest.dropWhile fun c => c = ':' || isBlank c
      let (minutes, rest) ← readOffsetMinutes separated
      let seconds := valueOf 10 [a, b] * 3600 + minutes * 60
      if seconds < 86400 then some ((seconds : Int), rest) else none
    else none
  | _ => none

/-- An offset from UTC in seconds: `Z`, `UTC`, or a sign with hours and minutes. -/
def readOffset (text : List Char) : Option (Int × List Char) :=
  match trimStart text with
  | 'Z' :: rest => some (0, rest)
  | 'z' :: rest => some (0, rest)
  | '+' :: rest => readOffsetAmount rest
  | '-' :: rest => (readOffsetAmount rest).map fun (n, rest) => (-n, rest)
  | '\u2212' :: rest => (readOffsetAmount rest).map fun (n, rest) => (-n, rest)
  | a :: b :: c :: rest =>
    if a.toUpper = 'U' ∧ b.toUpper = 'T' ∧ c.toUpper = 'C' then some (0, rest) else none
  | _ => none

/-- The time at these local date and clock readings; second 60 is a leap second. -/
def assemble (date : Calendar.Date) (hour minute second nanos : Nat) (offset : Int) :
    Option Instant := do
  if !date.isValid then none
  else
    let whole := if second = 60 then 59 else second
    let extra := if second = 60 then 1000000000 else 0
    let localSeconds := date.toDays * 86400 + (hour * 3600 + minute * 60 + whole : Nat)
    let _ ← Instant.of? localSeconds (nanos + extra)
    Instant.of? (localSeconds - offset) (nanos + extra)

/-- Reads a time. -/
def read (text : List Char) : Option Instant := do
  let (year, text) ← readYear text
  let text ← readMark '-' text
  let (month, text) ← readPart 1 12 text
  let text ← readMark '-' text
  let (day, text) ← readPart 1 31 text
  let text ← match text with
    | c :: rest => if c = 'T' ∨ c = 't' ∨ c = ' ' then some rest else none
    | [] => none
  let (hour, text) ← readPart 0 23 text
  let text ← readMark ':' text
  let (minute, text) ← readPart 0 59 text
  let text ← readMark ':' text
  let (second, text) ← readPart 0 60 text
  let (nanos, text) ← readFraction text
  let (offset, text) ← readOffset text
  if trimStart text = [] then assemble ⟨year, month, day⟩ hour minute second nanos offset
  else none

/-- The fraction of a second: nothing, milliseconds, microseconds or nanoseconds. -/
def printFraction (nanos : Nat) : List Char :=
  if nanos = 0 then []
  else if nanos % 1000000 = 0 then '.' :: padded 3 (nanos / 1000000)
  else if nanos % 1000 = 0 then '.' :: padded 6 (nanos / 1000)
  else '.' :: padded 9 nanos

/-- Years outside 0 to 9999 carry a sign. -/
def printYear (year : Int) : List Char :=
  if 0 ≤ year ∧ year ≤ 9999 then padded 4 year.toNat
  else (if year < 0 then '-' else '+') :: padded 4 year.natAbs

/-- Writes a time in UTC; a leap second is written as second 60. -/
def print (t : Instant) : List Char :=
  let date := Calendar.Date.ofDays (t.seconds / 86400)
  let clock := (t.seconds % 86400).toNat
  let second := clock % 60 + t.nanos / 1000000000
  printYear date.year ++ '-' :: padded 2 date.month ++ '-' :: padded 2 date.day ++
    'T' :: padded 2 (clock / 3600) ++ ':' :: padded 2 (clock / 60 % 60) ++
    ':' :: padded 2 second ++ printFraction (t.nanos % 1000000000) ++ ['Z']

end MergedPaging.Timestamp
