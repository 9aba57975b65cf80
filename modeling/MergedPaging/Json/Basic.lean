/-
JSON values.  Numbers keep what reading tells apart: whole numbers that fit 64 bits,
and binary floating-point numbers for all others.  Fields keep their order.
-/
import MergedPaging.Binary64

namespace MergedPaging

namespace Json

/-- A number: whole and of 64 bits, or floating-point. -/
inductive Number where
  | int (n : Int)
  | float (x : Binary64)
  deriving DecidableEq

end Json

/-- A JSON value.  `unreadable` is text of correct form that has no value: a string
with half a surrogate pair, a number that is too large, or an object with such a
string as a key. -/
inductive Json where
  | null
  | bool (b : Bool)
  | number (n : Json.Number)
  | string (s : String)
  | array (items : List Json)
  | object (fields : List (String × Json))
  | unreadable

namespace Json

def ofInt (n : Int) : Json := .number (.int n)

def ofNat (n : Nat) : Json := .number (.int n)

/-- A value that may be missing; a missing one is `null`. -/
def ofOption {α : Type} (encode : α → Json) (value : Option α) : Json :=
  (value.map encode).getD .null

def ofList {α : Type} (encode : α → Json) (values : List α) : Json :=
  .array (values.map encode)

/-- The value of the last field with a name. -/
def field? (name : String) : Json → Option Json
  | .object fields => (fields.reverse.find? fun f => f.1 = name).map Prod.snd
  | _ => none

end Json

end MergedPaging
