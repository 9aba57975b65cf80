/-
Reading JSON text, strictly: no comments, no trailing commas, nothing after the
value.  A value whose text is of correct form but stands for nothing is read as
`Json.unreadable`, so that it does no harm where no one looks at it.
-/
import MergedPaging.Json.Basic

namespace MergedPaging.Json

open Text

/-- The text without the white space it starts with. -/
def skipSpace (text : List Char) : List Char :=
  text.dropWhile fun c => c = ' ' || c = '\n' || c = '\r' || c = '\t'

/-- A part of a string: a character, or a code unit of a surrogate pair. -/
inductive Piece where
  | char (c : Char)
  | surrogate (unit : Nat)

/-- The code unit of four hexadecimal digits. -/
def Piece.ofHex (a b c d : Char) : Option Piece := do
  let unit := (((← hexValue a) * 16 + (← hexValue b)) * 16 + (← hexValue c)) * 16 + (← hexValue d)
  if 0xD800 ≤ unit ∧ unit < 0xE000 then some (.surrogate unit) else some (.char (.ofNat unit))

/-- The character behind a backslash. -/
def unescape : Char → Option Char
  | '"' => some '"'
  | '\\' => some '\\'
  | '/' => some '/'
  | 'b' => some '\x08'
  | 'f' => some '\x0c'
  | 'n' => some '\n'
  | 'r' => some '\r'
  | 't' => some '\t'
  | _ => none

/-- Reads a string behind its opening quote. -/
def readPieces : List Char → Option (List Piece × List Char)
  | [] => none
  | '"' :: rest => some ([], rest)
  | '\\' :: 'u' :: a :: b :: c :: d :: rest => do
    let piece ← Piece.ofHex a b c d
    let (pieces, rest) ← readPieces rest
    return (piece :: pieces, rest)
  | '\\' :: e :: rest => do
    let c ← unescape e
    let (pieces, rest) ← readPieces rest
    return (.char c :: pieces, rest)
  | c :: rest =>
    if c.toNat < 0x20 ∨ c = '\\' then none
    else do
      let (pieces, rest) ← readPieces rest
      return (.char c :: pieces, rest)

/-- Joins surrogate pairs; half a pair stands for nothing. -/
def joinPieces : List Piece → Option (List Char)
  | [] => some []
  | .char c :: rest => (joinPieces rest).map (c :: ·)
  | .surrogate high :: .surrogate low :: rest =>
    if high < 0xDC00 ∧ 0xDC00 ≤ low then
      (joinPieces rest).map (.ofNat (0x10000 + (high - 0xD800) * 0x400 + (low - 0xDC00)) :: ·)
    else none
  | .surrogate _ :: _ => none

/-- Reads a string behind its opening quote; the inner `none` is a string that stands
for no text. -/
def readString (text : List Char) : Option (Option String × List Char) := do
  let (pieces, rest) ← readPieces text
  return ((joinPieces pieces).map String.ofList, rest)

/-- The parts of a number's text. -/
structure Numeral where
  negative : Bool
  whole : List Char
  fraction : Option (List Char)
  exponent : Option (Bool × List Char)

/-- One digit or more. -/
def readDigits1 (text : List Char) : Option (List Char × List Char) :=
  let digits := text.takeWhile Char.isDigit
  if digits = [] then none else some (digits, text.dropWhile Char.isDigit)

/-- The whole part of a number: no zero before other digits. -/
def readWhole (text : List Char) : Option (List Char × List Char) := do
  let (digits, rest) ← readDigits1 text
  if digits.head? = some '0' ∧ digits ≠ ['0'] then none else some (digits, rest)

def readFraction : List Char → Option (Option (List Char) × List Char)
  | '.' :: rest => (readDigits1 rest).map fun (digits, rest) => (some digits, rest)
  | text => some (none, text)

/-- An exponent: whether it is negative, and its digits. -/
def readExponent : List Char → Option (Option (Bool × List Char) × List Char)
  | c :: rest =>
    if c = 'e' ∨ c = 'E' then
      match rest with
      | '-' :: rest => (readDigits1 rest).map fun (digits, rest) => (some (true, digits), rest)
      | '+' :: rest => (readDigits1 rest).map fun (digits, rest) => (some (false, digits), rest)
      | rest => (readDigits1 rest).map fun (digits, rest) => (some (false, digits), rest)
    else some (none, c :: rest)
  | [] => some (none, [])

/-- Reads the parts of a number behind its sign. -/
def readNumeral (negative : Bool) (text : List Char) : Option (Numeral × List Char) := do
  let (whole, rest) ← readWhole text
  let (fraction, rest) ← readFraction rest
  let (exponent, rest) ← readExponent rest
  return (⟨negative, whole, fraction, exponent⟩, rest)

/-- Gathers digits on a significand while it has at most 64 bits; tells how many digits
were taken. -/
def gather (significand : Nat) : List Char → Nat × Nat
  | [] => (significand, 0)
  | c :: rest =>
    let next := 10 * significand + (digitValue c).getD 0
    if next < UInt64.size then
      let (gathered, taken) := gather next rest
      (gathered, taken + 1)
    else (significand, 0)

/-- The significand of a numeral, of at most 64 bits, and its power of ten.  Whole
digits that do not fit raise the power; digits of the fraction that do not fit are
dropped. -/
def Numeral.decimal (n : Numeral) : Nat × Int :=
  let (whole, taken) := gather 0 n.whole
  let (significand, behind) := gather whole (n.fraction.getD [])
  (significand, (n.whole.length : Int) - taken - behind)

/-- The value of the exponent. -/
def Numeral.exponentValue (n : Numeral) : Int :=
  match n.exponent with
  | none => 0
  | some (negative, digits) =>
    let value := valueOf 10 digits
    if negative then -(value : Int) else value

/-- The number of a numeral: whole if it is written so, fits 64 bits and is not the
negative zero, else floating-point; none if that is too large. -/
def Numeral.toNumber (n : Numeral) : Option Number :=
  let (significand, power) := n.decimal
  if n.fraction.isNone && n.exponent.isNone && power = 0 &&
      (!n.negative || (0 < significand && significand ≤ int64Limit)) then
    some (.int (if n.negative then -(significand : Int) else significand))
  else (Binary64.ofDigits n.negative significand (power + n.exponentValue)).map .float

/-- The value of a numeral. -/
def Numeral.toJson (n : Numeral) : Json :=
  match n.toNumber with
  | some value => .number value
  | none => .unreadable

/-- Reads a word. -/
def readWord (word : List Char) (value : Json) (text : List Char) : Option (Json × List Char) :=
  if word.isPrefixOf text then some (value, text.drop word.length) else none

/-- An object, unless one of its keys stands for no text. -/
def ofFields (fields : List (Option String × Json)) : Json :=
  match fields.mapM fun (key, value) => key.map (·, value) with
  | some fields => .object fields
  | none => .unreadable

mutual

/-- Reads a value.  `fuel` bounds the number of steps; the length of the text suffices. -/
def readValue : (fuel : Nat) → List Char → Option (Json × List Char)
  | 0, _ => none
  | fuel + 1, text =>
    match skipSpace text with
    | 'n' :: rest => readWord ['u', 'l', 'l'] .null rest
    | 't' :: rest => readWord ['r', 'u', 'e'] (.bool true) rest
    | 'f' :: rest => readWord ['a', 'l', 's', 'e'] (.bool false) rest
    | '"' :: rest => do
      let (text, rest) ← readString rest
      return ((text.map Json.string).getD .unreadable, rest)
    | '[' :: rest =>
      match skipSpace rest with
      | ']' :: rest => some (.array [], rest)
      | rest => do
        let (items, rest) ← readItems fuel rest
        return (.array items, rest)
    | '\x7b' :: rest =>
      match skipSpace rest with
      | '\x7d' :: rest => some (.object [], rest)
      | rest => do
        let (fields, rest) ← readFields fuel rest
        return (ofFields fields, rest)
    | '-' :: rest => (readNumeral true rest).map fun (n, rest) => (n.toJson, rest)
    | rest => (readNumeral false rest).map fun (n, rest) => (n.toJson, rest)

/-- Reads the items of an array up to its closing bracket; there is at least one. -/
def readItems : (fuel : Nat) → List Char → Option (List Json × List Char)
  | 0, _ => none
  | fuel + 1, text => do
    let (item, rest) ← readValue fuel text
    match skipSpace rest with
    | ',' :: rest =>
      let (items, rest) ← readItems fuel rest
      return (item :: items, rest)
    | ']' :: rest => return ([item], rest)
    | _ => none

/-- Reads the fields of an object up to its closing brace; there is at least one. -/
def readFields : (fuel : Nat) → List Char → Option (List (Option String × Json) × List Char)
  | 0, _ => none
  | fuel + 1, text =>
    match skipSpace text with
    | '"' :: rest => do
      let (key, rest) ← readString rest
      match skipSpace rest with
      | ':' :: rest =>
        let (value, rest) ← readValue fuel rest
        match skipSpace rest with
        | ',' :: rest =>
          let (fields, rest) ← readFields fuel rest
          return ((key, value) :: fields, rest)
        | '\x7d' :: rest => return ([(key, value)], rest)
        | _ => none
      | _ => none
    | _ => none

end

/-- Reads a JSON text. -/
def parse (text : String) : Option Json := do
  let (value, rest) ← readValue (2 * text.toList.length + 2) text.toList
  if skipSpace rest = [] then some value else none

end MergedPaging.Json
