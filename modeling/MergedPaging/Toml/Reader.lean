/-
Reading TOML documents: values, keys and lines.  The lines are then put together into
tables by `Fields.build`.  A document that breaks any rule is refused as a whole.
-/
import MergedPaging.Toml.Quoted
import MergedPaging.Toml.Scalar

namespace MergedPaging.Toml

def skipBlanks (text : List Char) : List Char :=
  text.dropWhile isBlank

/-- The text behind a comment, at the end of its line. -/
def skipComment : List Char → List Char
  | '#' :: rest => rest.dropWhile isPlain
  | text => text

/-- Skips blanks, line ends and comments; `comment` tells whether the text starts in a
comment. -/
def skipSpace : (comment : Bool) → List Char → List Char
  | _, [] => []
  | comment, c :: rest =>
    if c = '\n' then skipSpace false rest
    else if comment then (if isPlain c then skipSpace true rest else c :: rest)
    else if c = '#' then skipSpace true rest
    else if isBlank c then skipSpace false rest
    else c :: rest

/-- What may follow on the line of a value or header: a comment. -/
def endLine (text : List Char) : Option (List Char) :=
  match skipComment (skipBlanks text) with
  | [] => some []
  | '\n' :: rest => some rest
  | _ => none

/-- Characters of keys without quotes. -/
def isBare (c : Char) : Bool :=
  c.isAlphanum || c = '-' || c = '_'

/-- Reads one part of a key. -/
def readPart (text : List Char) : Option (String × List Char) :=
  match text with
  | '"' :: _ => (readShort text).map fun (part, rest) => (String.ofList part, rest)
  | '\x27' :: _ => (readShort text).map fun (part, rest) => (String.ofList part, rest)
  | _ =>
    let part := text.takeWhile isBare
    if part.isEmpty then none else some (String.ofList part, text.dropWhile isBare)

/-- A key has less than 80 parts, and values are nested less than 80 deep. -/
def depthLimit : Nat := 79

/-- Reads a key of at most `room` parts. -/
def readKey : (room : Nat) → List Char → Option (Key × List Char)
  | 0, _ => none
  | room + 1, text => do
    let (part, rest) ← readPart (skipBlanks text)
    match skipBlanks rest with
    | '.' :: rest =>
      let (key, rest) ← readKey room rest
      return (⟨part, key.parts⟩, rest)
    | rest => return (⟨part, []⟩, rest)

/-- Reads a key and the sign behind it, up to the value. -/
def readEntryKey (text : List Char) : Option (Key × List Char) := do
  let (key, rest) ← readKey depthLimit text
  match rest with
  | '=' :: rest => return (key, skipBlanks rest)
  | _ => none

mutual

/-- Reads a value, nested at most `room` deep.  `fuel` bounds the number of steps. -/
def readValue : (fuel : Nat) → (room : Nat) → List Char → Option (Toml × List Char)
  | 0, _, _ => none
  | fuel + 1, room, text =>
    match text with
    | '"' :: _ => (readQuoted text).map fun (s, rest) => (.string (String.ofList s), rest)
    | '\x27' :: _ => (readQuoted text).map fun (s, rest) => (.string (String.ofList s), rest)
    | '[' :: rest =>
      match room with
      | 0 => none
      | room + 1 => (readItems fuel room rest).map fun (items, rest) => (.array items, rest)
    | '\x7b' :: rest =>
      match room, skipBlanks rest with
      | 0, _ => none
      | _ + 1, '\x7d' :: rest => some (.table .braces [], rest)
      | room + 1, rest =>
        (readEntries fuel room [] rest).map fun (fields, rest) => (.table .braces fields, rest)
    | text => readScalar text

/-- Reads the items of an array up to its closing bracket. -/
def readItems : (fuel : Nat) → (room : Nat) → List Char → Option (List Toml × List Char)
  | 0, _, _ => none
  | fuel + 1, room, text =>
    match skipSpace false text with
    | ']' :: rest => some ([], rest)
    | text => do
      let (item, rest) ← readValue fuel room text
      match skipSpace false rest with
      | ',' :: rest =>
        let (items, rest) ← readItems fuel room rest
        return (item :: items, rest)
      | ']' :: rest => return ([item], rest)
      | _ => none

/-- Reads entries up to a closing brace; there is at least one more. -/
def readEntries : (fuel : Nat) → (room : Nat) → Fields → List Char →
    Option (Fields × List Char)
  | 0, _, _, _ => none
  | fuel + 1, room, fields, text => do
    let (key, rest) ← readEntryKey text
    let (value, rest) ← readValue fuel room rest
    let fields ← fields.insert value key.first key.more
    match skipBlanks rest with
    | ',' :: rest => readEntries fuel room fields rest
    | '\x7d' :: rest => return (fields, rest)
    | _ => none

end

/-- Reads one line that says something, up to the line behind it. -/
def readLine (text : List Char) : Option (Line × List Char) :=
  match text with
  | '[' :: '[' :: rest => do
    let (key, rest) ← readKey depthLimit rest
    return (.element key, ← endLine (← readWord [']', ']'] rest))
  | '[' :: rest => do
    let (key, rest) ← readKey depthLimit rest
    return (.table key, ← endLine (← readWord [']'] rest))
  | text => do
    let (key, rest) ← readEntryKey text
    let (value, rest) ← readValue (2 * rest.length + 2) depthLimit rest
    return (.entry key value, ← endLine rest)

/-- Reads the lines of a document.  `fuel` bounds their number. -/
def readLines : (fuel : Nat) → List Char → Option (List Line)
  | 0, _ => none
  | fuel + 1, text =>
    match skipSpace false text with
    | [] => some []
    | text => do
      let (line, rest) ← readLine text
      return line :: (← readLines fuel rest)

/-- Turns line ends of two characters into those of one. -/
def joinLineEnds : List Char → List Char
  | '\r' :: '\n' :: rest => '\n' :: joinLineEnds rest
  | c :: rest => c :: joinLineEnds rest
  | [] => []

/-- The text without a byte order mark. -/
def dropMark : List Char → List Char
  | '\uFEFF' :: rest => rest
  | text => text

/-- Reads a document: the fields of its outermost table. -/
def parse (text : String) : Option Fields := do
  let text := joinLineEnds (dropMark text.toList)
  let lines ← readLines (text.length + 1) text
  Fields.build [] [] lines

end MergedPaging.Toml
