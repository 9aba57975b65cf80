/-
Merging one page per source into one page.  The offers of all sources are sorted by
the merge order, equal ones by source id, and the first `size` of them win.

A source then goes on after its last winner.  Without a winner it keeps the progress
it was requested with.  It is finished when its page was its last and nothing of it
is left over.  The merged page has no continuation once every source is finished.
-/
import MergedPaging.SourcePage

namespace MergedPaging

/-- The order in which every source delivers, and the order in which they are merged. -/
structure Merge where
  sourceOrder : SortOrder
  mergeOrder : SortOrder
  deriving DecidableEq

/-- A merged page and the progress of every source after it. -/
structure MergedPage (α : Type) where
  page : Page α
  bookmark : Bookmark

namespace Merge

variable {α : Type} [Sortable α]

/-- The same order on both sides. -/
def single (order : SortOrder) : Merge :=
  ⟨order, order⟩

/-- Everything that the sources offer, each entity with the id of its source. -/
def pool (pages : List (SourcePage α)) : List (String × α) :=
  pages.flatMap fun p => p.supplied.map fun entity => (p.sourceId, entity)

/-- Merge order, then source id. -/
def rank (m : Merge) (a b : String × α) : Ordering :=
  (m.mergeOrder.compare a.2 b.2).then (compare a.1 b.1)

/-- The best `size` of the pool; equal entities of one source keep their order. -/
def winners (m : Merge) (pages : List (SourcePage α)) (size : Nat) : List (String × α) :=
  ((pool pages).mergeSort fun a b => (m.rank a b).isLE).take size

/-- The winners of one source. -/
def won (winners : List (String × α)) (sourceId : String) : List α :=
  (winners.filter fun w => w.1 = sourceId).map Prod.snd

/-- The progress of a source, given its winners. -/
def advance (m : Merge) (p : SourcePage α) (won : List α) : Option Progress :=
  match won.getLast? with
  | none =>
    if p.supplied.isEmpty && p.page.isExhausted then some .completed else p.requested
  | some last =>
    if won.length = p.supplied.length && p.page.isExhausted then some .completed
    else some (.active (m.sourceOrder.continuationOf last))

/-- The progress of every source after the winners have been taken. -/
def bookmark (m : Merge) (pages : List (SourcePage α)) (winners : List (String × α)) :
    Bookmark :=
  .ofList (pages.map fun p => (p.sourceId, m.advance p (won winners p.sourceId)))

/-- Merges one page per source into a page of at most `size` entities. -/
def merge (m : Merge) (pages : List (SourcePage α)) (size : Nat) : MergedPage α :=
  let winners := m.winners pages size
  let bookmark := m.bookmark pages winners
  let continuation :=
    if bookmark.allCompleted (pages.map (·.sourceId)) then none else some (toString bookmark)
  ⟨⟨continuation, winners.map Prod.snd⟩, bookmark⟩

end Merge

end MergedPaging
