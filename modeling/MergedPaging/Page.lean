/-
Pages: a stretch of one stream and the text that resumes after it.  A page is cut
from a batch that may be longer than the page; a batch that is not longer is the end
of the stream.
-/
import MergedPaging.SortOrder

namespace MergedPaging

/-- Entities and the continuation that resumes after them; no continuation means that
the stream is exhausted. -/
structure Page (α : Type) where
  continuation : Option String
  entities : List α
  deriving DecidableEq

namespace Page

variable {α β : Type}

/-- The page of an exhausted stream with nothing left. -/
def empty : Page α :=
  ⟨none, []⟩

def isExhausted (p : Page α) : Bool :=
  p.continuation.isNone

def size (p : Page α) : Nat :=
  p.entities.length

def isEmpty (p : Page α) : Bool :=
  p.entities.isEmpty

/-- Converts the entities and keeps the continuation. -/
def map (f : α → β) (p : Page α) : Page β :=
  ⟨p.continuation, p.entities.map f⟩

/-- The first `size` entities of a batch in an order.  If that cuts the batch, the page
goes on after its last entity; otherwise the batch was the end.  A size of zero counts
as one, so that a stream always advances. -/
def ofBatch [Sortable α] (o : SortOrder) (batch : List α) (size : Nat) : Page α :=
  let sorted := o.sort batch
  let kept := sorted.take (Nat.max size 1)
  if sorted.length ≤ Nat.max size 1 then ⟨none, sorted⟩
  else ⟨kept.getLast?.map o.continuationOf, kept⟩

end Page

end MergedPaging
