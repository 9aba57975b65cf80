/-
TOML strings.  There are four forms: in double quotes, with escapes, or in single
quotes, without; and each on one line, or between three quotes over several lines.
Writing picks the first form that can hold the text without escapes, tabs aside, or
else escapes.
-/
import MergedPaging.Text.Numeral

namespace MergedPaging.Toml

open Text

/-- A space or tab. -/
def isBlank (c : Char) : Bool :=
  c = ' ' || c = '\t'

/-- Characters that may stand in strings and comments as they are. -/
def isPlain (c : Char) : Bool :=
  c = '\t' || (0x20 ≤ c.toNat && c.toNat != 0x7F)

/-- Where in a string the reader stands. -/
inductive Place where
  /-- In its text; with `skipping`, behind a line end that is not part of it, where more
  blanks and line ends may follow. -/
  | text (skipping : Bool)
  /-- Behind a backslash. -/
  | escape
  /-- In the digits of a code point; `awaited` more have to come. -/
  | code (awaited value : Nat)
  /-- In blanks behind a backslash, which a line end has to follow. -/
  | lineEnd

/-- The character behind a backslash. -/
def unescape : Char → Option Char
  | 'b' => some '\x08'
  | 't' => some '\t'
  | 'n' => some '\n'
  | 'f' => some '\x0c'
  | 'r' => some '\r'
  | '"' => some '"'
  | '\\' => some '\\'
  | _ => none

/-- The character of a code point. -/
def charOfCode (code : Nat) : Option Char :=
  if h : code.isValidChar then some (Char.ofNatAux code h) else none

/-- What is behind three quotes that close a string: up to two quotes before them
belong to the string. -/
def close (quote : Char) (rest : List Char) : List Char × List Char :=
  let inside := (rest.takeWhile (· = quote)).take 2
  (inside, rest.drop inside.length)

/-- Puts a character before the string that has been read. -/
def emit (c : Char) (read : Option (List Char × List Char)) : Option (List Char × List Char) :=
  read.map fun (text, rest) => (c :: text, rest)

/-- Reads on in a string in double quotes, which may have several lines if `long`. -/
def readBasic (long : Bool) : Place → List Char → Option (List Char × List Char)
  | _, [] => none
  | .text skipping, c :: rest =>
    if skipping && (isBlank c || c = '\n') then readBasic long (.text true) rest
    else if c = '"' then
      if !long then some ([], rest)
      else if ['"', '"'].isPrefixOf rest then some (close '"' (rest.drop 2))
      else emit c (readBasic long (.text false) rest)
    else if c = '\\' then readBasic long .escape rest
    else if isPlain c || (long && c = '\n') then emit c (readBasic long (.text false) rest)
    else none
  | .escape, c :: rest =>
    if c = 'u' then readBasic long (.code 4 0) rest
    else if c = 'U' then readBasic long (.code 8 0) rest
    else if long && isBlank c then readBasic long .lineEnd rest
    else if long && c = '\n' then readBasic long (.text true) rest
    else
      match unescape c with
      | some c => emit c (readBasic long (.text false) rest)
      | none => none
  | .code awaited value, c :: rest =>
    match hexValue c with
    | none => none
    | some digit =>
      if 1 < awaited then readBasic long (.code (awaited - 1) (16 * value + digit)) rest
      else
        match charOfCode (16 * value + digit) with
        | some c => emit c (readBasic long (.text false) rest)
        | none => none
  | .lineEnd, c :: rest =>
    if isBlank c then readBasic long .lineEnd rest
    else if c = '\n' then readBasic long (.text true) rest
    else none

/-- Reads on in a string in single quotes, which may have several lines if `long`. -/
def readLiteral (long : Bool) : List Char → Option (List Char × List Char)
  | [] => none
  | c :: rest =>
    if c = '\x27' then
      if !long then some ([], rest)
      else if ['\x27', '\x27'].isPrefixOf rest then some (close '\x27' (rest.drop 2))
      else emit c (readLiteral long rest)
    else if isPlain c || (long && c = '\n') then emit c (readLiteral long rest)
    else none

/-- The text of a long string without the line end that it may start with. -/
def dropLineEnd : List Char → List Char
  | '\n' :: rest => rest
  | text => text

/-- Reads a string on one line. -/
def readShort : List Char → Option (List Char × List Char)
  | '"' :: rest => readBasic false (.text false) rest
  | '\x27' :: rest => readLiteral false rest
  | _ => none

/-- Reads a string of any form. -/
def readQuoted : List Char → Option (List Char × List Char)
  | '"' :: '"' :: '"' :: rest => readBasic true (.text false) (dropLineEnd rest)
  | '\x27' :: '\x27' :: '\x27' :: rest => readLiteral true (dropLineEnd rest)
  | text => readShort text

/-- Characters other than tabs and line ends that need an escape. -/
def isControl (c : Char) : Bool :=
  c != '\n' && !isPlain c

/-- Whether a character stands three times in a row. -/
def hasTriple (c : Char) : List Char → Bool
  | a :: b :: d :: rest => (a = c && b = c && d = c) || hasTriple c (b :: d :: rest)
  | _ => false

/-- How a character other than a quote is written in a string in double quotes. -/
def escape (long : Bool) (c : Char) : List Char :=
  if c = '\\' then ['\\', '\\']
  else if c = '\x08' then ['\\', 'b']
  else if c = '\t' then ['\\', 't']
  else if c = '\n' then (if long then ['\n'] else ['\\', 'n'])
  else if c = '\x0c' then ['\\', 'f']
  else if c = '\r' then ['\\', 'r']
  else if isControl c then
    ['\\', 'u', '0', '0', (Nat.digitChar (c.toNat / 16)).toUpper,
      (Nat.digitChar (c.toNat % 16)).toUpper]
  else [c]

/-- The inside of a string in double quotes.  In a long one up to two quotes in a row
stand as they are, and the third is escaped; `quotes` counts those that stand. -/
def encode (long : Bool) (quotes : Nat) : List Char → List Char
  | [] => []
  | c :: rest =>
    if c = '"' then
      if long && quotes < 2 then c :: encode long (quotes + 1) rest
      else '\\' :: c :: encode long 0 rest
    else escape long c ++ encode long 0 rest

/-- Text between quotes, three on each side; text of several lines starts on a line of
its own. -/
def quoteLong (quote : Char) (lines : Bool) (text : List Char) : List Char :=
  [quote, quote, quote] ++ (if lines then ['\n'] else []) ++ text ++ [quote, quote, quote]

/-- Writes a string in double quotes. -/
def writeBasic (long lines : Bool) (text : List Char) : List Char :=
  if long then quoteLong '"' lines (encode true 0 text) else '"' :: encode false 0 text ++ ['"']

/-- Writes a string in single quotes. -/
def writeLiteral (long lines : Bool) (text : List Char) : List Char :=
  if long then quoteLong '\x27' lines text else '\x27' :: text ++ ['\x27']

/-- Writes a string. -/
def writeQuoted (text : List Char) : List Char :=
  let lines := text.contains '\n'
  let control := text.any isControl
  if !text.contains '"' && !text.contains '\\' && !control && !lines then
    writeBasic false lines text
  else if !text.contains '\x27' && !control && !lines then writeLiteral false lines text
  else if !text.contains '\\' && !control && !hasTriple '"' text then writeBasic true lines text
  else if !control && !hasTriple '\x27' text then writeLiteral true lines text
  else writeBasic lines lines text

end MergedPaging.Toml
