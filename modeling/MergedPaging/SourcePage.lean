/-
One source's contribution to a merged page.  Beside its page it carries the
continuation with which the page was asked for: a source of which nothing is taken
has to be asked again with the same.
-/
import MergedPaging.Bookmark
import MergedPaging.Page

namespace MergedPaging

/-- A page, the id of its source, and the continuation it was requested with. -/
structure SourcePage (α : Type) where
  sourceId : String
  requestedContinuation : Option String
  page : Page α
  deriving DecidableEq

namespace SourcePage

variable {α : Type}

/-- Stands for a source that was drained before and is not asked. -/
def completed (sourceId : String) : SourcePage α :=
  ⟨sourceId, some Progress.completedMark, .empty⟩

/-- Whether the source had been drained before. -/
def isCompleted (p : SourcePage α) : Bool :=
  p.requestedContinuation == some Progress.completedMark

/-- The progress of the source at the time of the request. -/
def requested (p : SourcePage α) : Option Progress :=
  Progress.ofRequested p.requestedContinuation

/-- What the source offers: a drained source offers nothing. -/
def supplied (p : SourcePage α) : List α :=
  if p.isCompleted then [] else p.page.entities

end SourcePage

end MergedPaging
