/-
Writing JSON text, on one line or indented by two spaces.  Only quotes, backslashes
and control characters are escaped.
-/
import MergedPaging.Json.Basic

namespace MergedPaging.Json

/-- How a character stands in a string. -/
def escape (c : Char) : List Char :=
  if c = '"' then ['\\', '"']
  else if c = '\\' then ['\\', '\\']
  else if c = '\x08' then ['\\', 'b']
  else if c = '\x0c' then ['\\', 'f']
  else if c = '\n' then ['\\', 'n']
  else if c = '\r' then ['\\', 'r']
  else if c = '\t' then ['\\', 't']
  else if c.toNat < 0x20 then
    ['\\', 'u', '0', '0', Nat.digitChar (c.toNat / 16), Nat.digitChar (c.toNat % 16)]
  else [c]

def quote (s : String) : String :=
  String.ofList ('"' :: s.toList.flatMap escape ++ ['"'])

def Number.print : Number → String
  | int n => toString n
  | float x => String.ofList x.print

/-- Parts with a separator between each two. -/
def separate (separator : String) : List String → String
  | [] => ""
  | [part] => part
  | part :: rest => part ++ separator ++ separate separator rest

mutual

/-- Writes a value on one line. -/
def compact : Json → String
  | .null => "null"
  | .bool b => toString b
  | .number n => n.print
  | .string s => quote s
  | .array items => "[" ++ separate "," (compactItems items) ++ "]"
  | .object fields => "\x7b" ++ separate "," (compactFields fields) ++ "\x7d"
  | .unreadable => "null"

def compactItems : List Json → List String
  | [] => []
  | item :: rest => compact item :: compactItems rest

def compactFields : List (String × Json) → List String
  | [] => []
  | (key, value) :: rest => (quote key ++ ":" ++ compact value) :: compactFields rest

end

/-- A line end and the indentation of a depth. -/
def newLine (depth : Nat) : String :=
  String.ofList ('\n' :: List.replicate (2 * depth) ' ')

/-- Parts between brackets, each on a line of its own. -/
def block (left right : String) (depth : Nat) (parts : List String) : String :=
  if parts.isEmpty then left ++ right
  else
    left ++ newLine (depth + 1) ++ separate ("," ++ newLine (depth + 1)) parts ++
      newLine depth ++ right

mutual

/-- Writes a value indented, inside brackets of the given depth. -/
def prettyAt (depth : Nat) : Json → String
  | .array items => block "[" "]" depth (prettyItems (depth + 1) items)
  | .object fields => block "\x7b" "\x7d" depth (prettyFields (depth + 1) fields)
  | .null => "null"
  | .bool b => toString b
  | .number n => n.print
  | .string s => quote s
  | .unreadable => "null"

def prettyItems (depth : Nat) : List Json → List String
  | [] => []
  | item :: rest => prettyAt depth item :: prettyItems depth rest

def prettyFields (depth : Nat) : List (String × Json) → List String
  | [] => []
  | (key, value) :: rest =>
    (quote key ++ ": " ++ prettyAt depth value) :: prettyFields depth rest

end

/-- Writes a value indented. -/
def pretty (value : Json) : String :=
  prettyAt 0 value

end MergedPaging.Json
