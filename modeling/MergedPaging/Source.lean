/-
Sources: backends that deliver one stream page by page, each in its own order.  A
source is known by its id and by how it answers; `StaticSource` answers from a fixed
collection of entities.
-/
import MergedPaging.Bookmark
import MergedPaging.Page
import MergedPaging.PartitionPoint

namespace MergedPaging

/-- Why a source did not deliver a page. -/
inductive SourceError where
  | unavailable (message : String)
  | rejected (message : String)
  | continuation (error : CursorError)
  deriving DecidableEq

def SourceError.message : SourceError → String
  | unavailable message => "source unavailable: " ++ message
  | rejected message => "source rejected request: " ++ message
  | continuation error => error.message

/-- A backend.  It is asked with a continuation (none at the start of the stream) and a
page size, and answers in the monad `m`. -/
structure Source (m : Type → Type) (α : Type) where
  id : String
  fetch : Option String → Nat → m (Except SourceError (Page α))

/-- A source whose entities are fixed; they are kept sorted. -/
structure StaticSource (α : Type) [Sortable α] where
  id : String
  order : SortOrder
  entities : List α
  wireSafe : isWireSafeId id = true
  sorted : ∃ rows, entities = order.sort rows

namespace StaticSource

variable {α : Type} [Sortable α]

/-- The source with these entities, unless its id cannot stand in a bookmark. -/
def ofEntities? (id : String) (order : SortOrder) (rows : List α) : Option (StaticSource α) :=
  if h : isWireSafeId id = true then some ⟨id, order, order.sort rows, h, rows, rfl⟩ else none

def size (s : StaticSource α) : Nat :=
  s.entities.length

/-- How many entities are not after a position, found by binary search; none at the start
of the stream. -/
def start (s : StaticSource α) : Option s.order.Cursor → Nat
  | none => 0
  | some cursor => partitionPoint (fun entity => !s.order.isAfter entity cursor) s.entities

/-- The entities after a position; all of them at the start of the stream. -/
def after (s : StaticSource α) (cursor : Option s.order.Cursor) : List α :=
  s.entities.drop (s.start cursor)

/-- One page.  One entity more than the page holds is looked at, to tell whether
another page exists. -/
def fetch (s : StaticSource α) (continuation : Option String) (size : Nat) :
    Except CursorError (Page α) := do
  let cursor ← s.order.parseCursor continuation
  let batch := (s.after cursor).take (Nat.max size 1 + 1)
  return .ofBatch s.order batch size

/-- A fixed collection as a backend. -/
def toSource {m : Type → Type} [Monad m] (s : StaticSource α) : Source m α where
  id := s.id
  fetch continuation size := pure ((s.fetch continuation size).mapError .continuation)

end StaticSource

end MergedPaging
