/-
Cursors by id alone: the whole text is the id.
-/
import MergedPaging.Cursor.Error

namespace MergedPaging

/-- A position in a stream that is ordered by id. -/
structure IdCursor where
  id : String
  deriving DecidableEq

namespace IdCursor

instance : Ord IdCursor where
  compare a b := compare a.id b.id

instance : ToString IdCursor where
  toString c := c.id

/-- Reads a cursor; the empty text is the start of the stream. -/
def parse (text : Option String) : Except CursorError (Option IdCursor) :=
  match text with
  | none => .ok none
  | some id => .ok (if id = "" then none else some ⟨id⟩)

end IdCursor

end MergedPaging
