/-
Cursors by time: a point in time and an id.  In text the time is its milliseconds
since 1970, so a cursor made from a time is cut to the millisecond beforehand.
-/
import MergedPaging.Cursor.Key
import MergedPaging.Time.Instant

namespace MergedPaging

/-- A position in a stream that is ordered by time, then id. -/
structure DateCursor where
  date : Instant
  id : String
  deriving DecidableEq

namespace DateCursor

/-- The cursor of a time, to the millisecond. -/
def ofInstant (date : Instant) (id : String) : DateCursor :=
  ⟨date.truncate, id⟩

def ofMillis? (millis : Int) (id : String) : Option DateCursor :=
  (Instant.ofMillis? millis).map (⟨·, id⟩)

def millis (c : DateCursor) : Int :=
  c.date.millis

/-- Time first, then id. -/
instance : Ord DateCursor where
  compare a b := (compare a.date b.date).then (compare a.id b.id)

instance : ToString DateCursor where
  toString c := Cursor.joinKey (toString c.millis).toList c.id

/-- The key of a cursor by time: a 64-bit number of milliseconds within the range of
`Instant`. -/
def readKey (key : List Char) : Except CursorFault Instant :=
  match Text.readInt64 key with
  | .error fault => .error (.dateKey fault)
  | .ok millis =>
    match Instant.ofMillis? millis with
    | some date => .ok date
    | none => .error .dateOutOfRange

/-- Reads a cursor; `none` is the start of the stream. -/
def parse (text : Option String) : Except CursorError (Option DateCursor) :=
  (Cursor.readKeyed readKey text).map fun read => read.map fun (date, id) => ⟨date, id⟩

end DateCursor

end MergedPaging
