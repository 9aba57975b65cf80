/-
Reading records.  A record is an object with its fields by name, or an array with
its fields by position.  Fields that no one asks for are ignored; a field that is
asked for may stand only once.
-/
import MergedPaging.Decimal.Printer
import MergedPaging.Decimal.Reader
import MergedPaging.Json.Basic
import MergedPaging.Time.Timestamp

namespace MergedPaging

/-- Values that are written as JSON. -/
class ToJson (α : Type) where
  toJson : α → Json

namespace Json

/-- What a record holds in the place of one field. -/
inductive Slot where
  | value (v : Json)
  /-- An object without the field. -/
  | absent
  /-- An array that ends before the field. -/
  | cutOff

/-- What an object holds for a field; it may not hold it twice. -/
def slotOf (fields : List (String × Json)) (name : String) : Option Slot :=
  match fields.filter fun f => f.1 = name with
  | [] => some .absent
  | [(_, v)] => some (.value v)
  | _ => none

/-- What an array holds for fields in their order; it may not hold more. -/
def slotsByPosition : List String → List Json → Option (List (String × Slot))
  | [], [] => some []
  | [], _ :: _ => none
  | name :: names, [] => (slotsByPosition names []).map ((name, .cutOff) :: ·)
  | name :: names, v :: rest => (slotsByPosition names rest).map ((name, .value v) :: ·)

/-- The fields of a record, by name. -/
structure Record where
  slots : List (String × Slot)

/-- Reads a record with these fields. -/
def record? (names : List String) : Json → Option Record
  | .object fields => do
    let slots ← names.mapM fun name => (slotOf fields name).map (name, ·)
    return ⟨slots⟩
  | .array items => (slotsByPosition names items).map (⟨·⟩)
  | _ => none

namespace Record

variable {α : Type}

def slot (r : Record) (name : String) : Slot :=
  ((r.slots.find? fun s => s.1 = name).map Prod.snd).getD .absent

/-- A field that has to be there. -/
def required (r : Record) (name : String) (read : Json → Option α) : Option α :=
  match r.slot name with
  | .value v => read v
  | _ => none

/-- A field that may be missing, but not null. -/
def withDefault (r : Record) (name : String) (default : α) (read : Json → Option α) : Option α :=
  match r.slot name with
  | .value v => read v
  | _ => some default

end Record

variable {α : Type}

/-- A value or null. -/
def nullable (read : Json → Option α) : Json → Option (Option α)
  | .null => some none
  | v => (read v).map some

namespace Record

/-- A field that may be missing from an object, or null. -/
def optional (r : Record) (name : String) (read : Json → Option α) : Option (Option α) :=
  match r.slot name with
  | .value v => nullable read v
  | .absent => some none
  | .cutOff => none

end Record

def string? : Json → Option String
  | .string s => some s
  | _ => none

def bool? : Json → Option Bool
  | .bool b => some b
  | _ => none

def int? : Json → Option Int
  | .number (.int n) => some n
  | _ => none

/-- A whole number that is not negative. -/
def nat? : Json → Option Nat
  | .number (.int (.ofNat n)) => some n
  | _ => none

def list? (read : Json → Option α) : Json → Option (List α)
  | .array items => items.mapM read
  | _ => none

/-- A decimal number: text, a whole number, or a floating-point number by its shortest
digits. -/
def decimal? : Json → Option Decimal
  | .string s => (Decimal.read s.toList).toOption
  | .number (.int n) => Decimal.ofInt? n
  | .number (.float x) => (Decimal.readPlain x.print).toOption
  | _ => none

def instant? : Json → Option Instant
  | .string s => Timestamp.read s.toList
  | _ => none

/-- One of some names: its text, or an object with the name as its key and null. -/
def named? (ofName : String → Option α) : Json → Option α
  | .string s => ofName s
  | .object [(name, .null)] => ofName name
  | _ => none

def ofInstant (t : Instant) : Json :=
  .string (String.ofList (Timestamp.print t))

def ofDecimal (d : Decimal) : Json :=
  .string (toString d)

end Json

end MergedPaging
