/-
TOML values, and the tables that a document builds line by line.  What may be added to
a table depends on how the table came to be: a header may take up a table that so far
only leads to others, and a dotted key may extend only tables made by dotted keys.
-/

namespace MergedPaging

/-- How a table came to be. -/
inductive Toml.Origin where
  /-- Under a header of its own. -/
  | header
  /-- On the way to another header. -/
  | path
  /-- On the way to the last part of a dotted key. -/
  | dotted
  /-- Written as a value, in braces. -/
  | braces
  deriving DecidableEq

/-- A TOML value.  Of floating-point numbers and times only the form is checked; no
setting has such a value.  A list of tables is written with a header per table. -/
inductive Toml where
  | string (s : String)
  | integer (n : Int)
  | boolean (b : Bool)
  | float
  | time
  | array (items : List Toml)
  | table (origin : Toml.Origin) (fields : List (String × Toml))
  | tables (elements : List (List (String × Toml)))

namespace Toml

/-- The fields of a table, in the order in which they first appear. -/
abbrev Fields := List (String × Toml)

namespace Fields

/-- Changes what stands under a key; a new key is put at the end. -/
def alter (key : String) (change : Option Toml → Option Toml) : Fields → Option Fields
  | [] => (change none).map fun value => [(key, value)]
  | (k, value) :: rest =>
    if k = key then (change (some value)).map fun value => (k, value) :: rest
    else (alter key change rest).map ((k, value) :: ·)

/-- Changes the last table of a list. -/
def alterLast (change : Fields → Option Fields) : List Fields → Option (List Fields)
  | [] => none
  | [last] => (change last).map ([·])
  | first :: rest => (alterLast change rest).map (first :: ·)

/-- Changes the table that the path of a header leads to, making the tables on the way
that are missing.  A list of tables leads to its last one. -/
def within (change : Fields → Option Fields) : (path : List String) → Fields → Option Fields
  | [], fields => change fields
  | key :: path, fields =>
    alter key (fun
      | none => (within change path []).map (.table .path)
      | some (.table .braces _) => none
      | some (.table origin child) => (within change path child).map (.table origin)
      | some (.tables elements) => (alterLast (within change path) elements).map .tables
      | some _ => none) fields

/-- Puts a value under a key, `key` alone or dotted with `more`; no value is replaced. -/
def insert (value : Toml) : (key : String) → (more : List String) → Fields → Option Fields
  | key, [], fields =>
    alter key (fun
      | none => some value
      | some _ => none) fields
  | key, next :: more, fields =>
    alter key (fun
      | none => (insert value next more []).map (.table .dotted)
      | some (.table .dotted child) => (insert value next more child).map (.table .dotted)
      | some (.table .path child) =>
        if more.isEmpty then none else (insert value next more child).map (.table .path)
      | some (.tables elements) =>
        if more.isEmpty then none
        else (alterLast (insert value next more) elements).map .tables
      | some _ => none) fields

/-- Opens the table of a header. -/
def openTable (key : String) : Fields → Option Fields :=
  alter key fun
    | none => some (.table .header [])
    | some (.table .path child) => some (.table .header child)
    | some _ => none

/-- Opens one more table of a list. -/
def openElement (key : String) : Fields → Option Fields :=
  alter key fun
    | none => some (.tables [[]])
    | some (.tables elements) => some (.tables (elements ++ [[]]))
    | some _ => none

end Fields

/-- A key: its first part, and the parts behind dots. -/
structure Key where
  first : String
  more : List String
  deriving DecidableEq

namespace Key

def parts (k : Key) : List String :=
  k.first :: k.more

/-- The parts before the last one, and the last one. -/
def splitLast (first : String) : List String → List String × String
  | [] => ([], first)
  | next :: more =>
    let (path, last) := splitLast next more
    (first :: path, last)

end Key

/-- A line of a document that says something. -/
inductive Line where
  | table (key : Key)
  | element (key : Key)
  | entry (key : Key) (value : Toml)

/-- Builds the tables of a document; `header` is the path of the table that entries
belong to. -/
def Fields.build (header : List String) (fields : Fields) : List Line → Option Fields
  | [] => some fields
  | .table key :: lines => do
    let (path, last) := Key.splitLast key.first key.more
    build key.parts (← fields.within (Fields.openTable last) path) lines
  | .element key :: lines => do
    let (path, last) := Key.splitLast key.first key.more
    build key.parts (← fields.within (Fields.openElement last) path) lines
  | .entry key value :: lines => do
    build header (← fields.within (Fields.insert value key.first key.more) header) lines

end Toml

end MergedPaging
