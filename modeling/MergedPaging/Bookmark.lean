/-
Progress through many sources in one text, `id1:cursor1;id2:cursor2`, sources in id
order.  The text is cut at every `;`, then each piece at its first `:`, so a cursor
may hold `:`.  Nothing is escaped: a bookmark whose ids or cursors would be cut
elsewhere, or whose cursor is spelled like the mark of a finished source, is not
wire safe.
-/
import MergedPaging.Cursor.Error
import MergedPaging.SortedMap
import MergedPaging.Text.Split

namespace MergedPaging

/-- How far a source has been read.  A source that has not been touched has no
progress; `completed` means that it must not be asked again. -/
inductive Progress where
  | active (cursor : String)
  | completed
  deriving DecidableEq

namespace Progress

/-- What stands for the cursor of a finished source. -/
def completedMark : String := "COMPLETED"

/-- The progress that a requested continuation stands for. -/
def ofRequested (requested : Option String) : Option Progress :=
  match requested with
  | none => none
  | some cursor =>
    if cursor = "" then none
    else if cursor = completedMark then some completed
    else some (active cursor)

/-- The text that asks a source to go on from here. -/
def toRequested : Progress → String
  | active cursor => cursor
  | completed => completedMark

/-- Whether the text of this progress is read back as itself. -/
def isWireSafe : Progress → Bool
  | active cursor => cursor != completedMark && !cursor.toList.contains ';'
  | completed => true

end Progress

/-- An id that a bookmark can carry: not empty, and free of both separators. -/
def isWireSafeId (id : String) : Bool :=
  id != "" && !id.toList.contains ';' && !id.toList.contains ':'

/-- The progress of every source that has been touched. -/
structure Bookmark where
  states : SortedMap String Progress
  cursor_ne_empty : ∀ entry ∈ states.entries, entry.2 ≠ .active ""

namespace Bookmark

/-- Nothing has been read. -/
def empty : Bookmark :=
  ⟨.empty, by simp [SortedMap.empty]⟩

/-- Sets the progress of a source.  A source without progress, or with an empty
cursor, counts as not touched. -/
def set (b : Bookmark) (id : String) (state : Option Progress) : Bookmark :=
  match state with
  | none => ⟨b.states.erase id, fun entry h => b.cursor_ne_empty entry (List.mem_filter.1 h).1⟩
  | some progress =>
    if hempty : progress = .active "" then
      ⟨b.states.erase id, fun entry h => b.cursor_ne_empty entry (List.mem_filter.1 h).1⟩
    else
      ⟨b.states.insert id progress, fun entry h => by
        rcases SortedMap.mem_insertEntry h with rfl | hold
        · exact hempty
        · exact b.cursor_ne_empty entry hold⟩

/-- The bookmark with these states, set one after the other. -/
def ofList (states : List (String × Option Progress)) : Bookmark :=
  states.foldl (fun b entry => b.set entry.1 entry.2) empty

/-- How far a source has been read. -/
def state (b : Bookmark) (id : String) : Option Progress :=
  b.states.get? id

/-- The sources that have been touched, in id order, and their progress. -/
def toList (b : Bookmark) : List (String × Progress) :=
  b.states.entries

def size (b : Bookmark) : Nat :=
  b.toList.length

def isEmpty (b : Bookmark) : Bool :=
  b.toList.isEmpty

def isCompleted (b : Bookmark) (id : String) : Bool :=
  b.state id == some .completed

def allCompleted (b : Bookmark) (ids : List String) : Bool :=
  ids.all b.isCompleted

/-- Whether one entry can be carried. -/
def isWireSafeEntry (entry : String × Progress) : Bool :=
  isWireSafeId entry.1 && entry.2.isWireSafe

/-- Whether the text of the bookmark is read back as the bookmark. -/
def isWireSafe (b : Bookmark) : Bool :=
  b.toList.all isWireSafeEntry

/-- The first source whose entry cannot be carried. -/
def offender? (b : Bookmark) : Option String :=
  (b.toList.find? fun entry => !isWireSafeEntry entry).map Prod.fst

instance : DecidableEq Bookmark := fun a b =>
  decidable_of_iff (a.states.entries = b.states.entries) <| by
    obtain ⟨⟨_, _⟩, _⟩ := a
    obtain ⟨⟨_, _⟩, _⟩ := b
    simp

/-- The text of one entry. -/
def printEntry (entry : String × Progress) : List Char :=
  entry.1.toList ++ ':' :: entry.2.toRequested.toList

/-- The text of entries, `;` between each two. -/
def printEntries : List (String × Progress) → List Char
  | [] => []
  | [entry] => printEntry entry
  | entry :: rest => printEntry entry ++ ';' :: printEntries rest

instance : ToString Bookmark where
  toString b := String.ofList (printEntries b.toList)

/-- Reads one piece of a bookmark's text. -/
def parsePiece (piece : List Char) : Except BookmarkFault (String × String) :=
  match Text.splitFirst ':' piece with
  | none => .error (.missingColon (String.ofList piece))
  | some (id, cursor) =>
    if id = [] then .error (.emptySource (String.ofList piece))
    else if cursor = [] then .error (.emptyCursor (String.ofList id))
    else .ok (String.ofList id, String.ofList cursor)

/-- Reads pieces from left to right; a later piece of a source overrules an earlier. -/
def parsePieces (b : Bookmark) : List (List Char) → Except BookmarkFault Bookmark
  | [] => .ok b
  | piece :: rest =>
    match parsePiece piece with
    | .error fault => .error fault
    | .ok (id, cursor) => parsePieces (b.set id (Progress.ofRequested (some cursor))) rest

/-- Reads a bookmark.  Absent text is the empty bookmark, and empty pieces are skipped. -/
def parse (text : Option String) : Except CursorError Bookmark :=
  match text with
  | none => .ok empty
  | some input =>
    let pieces := (Text.splitOn ';' input.toList).filter fun piece => !piece.isEmpty
    (parsePieces empty pieces).mapError (.malformedCombined input)

theorem state_set (b : Bookmark) (id id' : String) (state : Option Progress) :
    (b.set id state).state id' =
      if id' = id then state.filter (· ≠ .active "") else b.state id' := by
  unfold set Bookmark.state
  split
  · simp [SortedMap.get?_erase]
  · rename_i progress
    split
    · rename_i hempty
      simp [SortedMap.get?_erase, hempty, Option.filter]
    · rename_i hempty
      simp [SortedMap.get?_insert, hempty, Option.filter]

end Bookmark

end MergedPaging
