/-
Cursors by price: a price, which may be missing, and an id.  A missing price is
written as an empty key.
-/
import MergedPaging.Cursor.Key
import MergedPaging.Decimal.Printer

namespace MergedPaging

/-- A position in a stream that is ordered by price, then id. -/
structure PriceCursor where
  price : Option Decimal
  id : String

namespace PriceCursor

def isPriced (c : PriceCursor) : Bool :=
  c.price.isSome

/-- Two missing prices are the same price; a missing one comes after every other. -/
def comparePrice : Option Decimal → Option Decimal → Ordering
  | some a, some b => compare a b
  | some _, none => .lt
  | none, some _ => .gt
  | none, none => .eq

/-- Price first, the missing price last, then id. -/
instance : Ord PriceCursor where
  compare a b := (comparePrice a.price b.price).then (compare a.id b.id)

/-- Cursors are equal when their prices are of one value, whatever the scale. -/
instance : BEq PriceCursor where
  beq a b := compare a b == .eq

instance : ToString PriceCursor where
  toString c := Cursor.joinKey ((c.price.map Decimal.print).getD []) c.id

/-- The key of a cursor by price: nothing, or a decimal number. -/
def readKey (key : List Char) : Except CursorFault (Option Decimal) :=
  if key = [] then .ok none
  else
    match Decimal.read key with
    | .ok price => .ok (some price)
    | .error fault => .error (.priceKey fault)

/-- Reads a cursor; `none` is the start of the stream. -/
def parse (text : Option String) : Except CursorError (Option PriceCursor) :=
  (Cursor.readKeyed readKey text).map fun read => read.map fun (price, id) => ⟨price, id⟩

end PriceCursor

end MergedPaging
