/-
The common form of keyed cursors, `<key>_<id>`.  The text is cut at its first
underscore, so the id may hold more of them.  Text that is absent, or holds no
underscore, is no cursor at all and stands for the start of the stream.
-/
import MergedPaging.Cursor.Error
import MergedPaging.Text.Split

namespace MergedPaging.Cursor

/-- The key and the id of a cursor's text. -/
def splitKey (text : String) : Option (List Char × String) :=
  (Text.splitFirst '_' text.toList).map fun (key, id) => (key, String.ofList id)

/-- The text of a key and an id. -/
def joinKey (key : List Char) (id : String) : String :=
  String.ofList (key ++ '_' :: id.toList)

/-- Reads a keyed cursor, given how its key is read. -/
def readKeyed {κ : Type} (readKey : List Char → Except CursorFault κ) (text : Option String) :
    Except CursorError (Option (κ × String)) :=
  match text with
  | none => .ok none
  | some input =>
    match splitKey input with
    | none => .ok none
    | some (key, id) =>
      match readKey key with
      | .ok key => .ok (some (key, id))
      | .error fault => .error (.malformed input fault)

end MergedPaging.Cursor
