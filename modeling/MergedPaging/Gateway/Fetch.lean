/-
Requests to a gateway.  A request is planned before any source is asked: its size,
its bookmark and its sources are checked, in this order.  Then every source that is
not finished is asked once, and the answers are merged.  A merged page whose progress
cannot be put into text is an error, never a page.

Sources are asked one after another, in id order, or at once.  `fetch` asks them one after
another, so that the first that fails ends the request.  If they are asked at once and
several fail, it is open which of them ends the request; `MayAnswer` says which answers
there may be.
-/
import MergedPaging.Gateway.Basic

namespace MergedPaging.Gateway

variable {m : Type → Type} {α : Type}

/-- A request that has passed all checks. -/
structure Plan (m : Type → Type) (α : Type) where
  size : Nat
  bookmark : Bookmark
  participants : List (Source m α)

/-- The first fault, in id order, among the cursors of a bookmark. -/
def cursorError? (o : SortOrder) (bookmark : Bookmark) : Option CursorError :=
  bookmark.toList.findSome? fun entry =>
    match entry.2 with
    | .completed => none
    | .active cursor =>
      match o.parseCursor (some cursor) with
      | .ok _ => none
      | .error error => some error

/-- Reads the continuation of a request, and every cursor in it. -/
def readBookmark (g : Gateway m α) (continuation : Option String) :
    Except GatewayError Bookmark := do
  let bookmark ← (Bookmark.parse continuation).mapError .badContinuation
  match cursorError? g.merge.sourceOrder bookmark with
  | some error => .error (.badContinuation error)
  | none => return bookmark

/-- Checks a request. -/
def plan (g : Gateway m α) (request : PageRequest) : Except GatewayError (Plan m α) := do
  let size ← g.resolveSize request.size
  let bookmark ← g.readBookmark request.continuation
  let participants ← g.participants request.sources
  return ⟨size, bookmark, participants⟩

/-- What a source's answer means for the request.  A failing source either ends the
request or contributes nothing this time; then its page is not its last, so that the
source is asked again. -/
def interpret (policy : FailurePolicy) (id : String) (requested : Option String) :
    Except SourceError (Page α) → Except GatewayError (SourcePage α)
  | .ok page => .ok ⟨id, requested, page⟩
  | .error (.continuation error) => .error (.badContinuation error)
  | .error error =>
    match policy with
    | .abort => .error (.sourceFailed id error)
    | .skipAsEmpty => .ok ⟨id, requested, ⟨some (requested.getD ""), []⟩⟩

variable [Monad m]

/-- Asks one source to go on from the bookmark, unless it is finished. -/
def fetchSource (g : Gateway m α) (bookmark : Bookmark) (size : Nat) (source : Source m α) :
    ExceptT GatewayError m (SourcePage α) :=
  match bookmark.state source.id with
  | some .completed => pure (.completed source.id)
  | state => do
    let requested := state.map Progress.toRequested
    let answer ← ExceptT.lift (source.fetch requested size)
    ExceptT.mk (pure (interpret g.config.failurePolicy source.id requested answer))

variable [Sortable α]

/-- Merges the answers, unless the progress after them cannot be put into text. -/
def mergePages (g : Gateway m α) (pages : List (SourcePage α)) (size : Nat) :
    Except GatewayError (MergedPage α) :=
  let merged := g.merge.merge pages size
  match merged.bookmark.offender? with
  | some id => .error (.unencodableCursor id)
  | none => .ok merged

/-- One merged page and the progress after it, from sources that are asked one after another. -/
def fetch (g : Gateway m α) (request : PageRequest) :
    ExceptT GatewayError m (MergedPage α) := do
  let plan ← ExceptT.mk (pure (g.plan request))
  let pages ← plan.participants.mapM (g.fetchSource plan.bookmark plan.size)
  ExceptT.mk (pure (g.mergePages pages plan.size))

section Answers

/-- What may become of several replies.  If all are results, these; otherwise an error: the
first if one reply is waited for after another, and any of them if all are asked for at once. -/
inductive Collects {ε β : Type} (parallel : Bool) (replies : List (Except ε β)) :
    Except ε (List β) → Prop
  | all {results : List β} (h : replies = results.map .ok) : Collects parallel replies (.ok results)
  | first {results : List β} {error : ε} {rest : List (Except ε β)} (hturn : parallel = false)
      (h : replies = results.map .ok ++ .error error :: rest) :
      Collects parallel replies (.error error)
  | any {error : ε} (honce : parallel = true) (h : .error error ∈ replies) :
      Collects parallel replies (.error error)

/-- What each source that takes part replies, in id order. -/
def replies (g : Gateway Id α) (plan : Plan Id α) : List (Except GatewayError (SourcePage α)) :=
  plan.participants.map fun source => (g.fetchSource plan.bookmark plan.size source).run

/-- The answers that a request may get, whichever way its sources are asked. -/
inductive MayAnswer (g : Gateway Id α) (request : PageRequest) :
    Except GatewayError (MergedPage α) → Prop
  | refused {error : GatewayError} (hplan : g.plan request = .error error) :
      MayAnswer g request (.error error)
  | failed {plan : Plan Id α} {error : GatewayError} (hplan : g.plan request = .ok plan)
      (hreplies : Collects g.parallel (g.replies plan) (.error error)) :
      MayAnswer g request (.error error)
  | merged {plan : Plan Id α} {pages : List (SourcePage α)}
      {answer : Except GatewayError (MergedPage α)} (hplan : g.plan request = .ok plan)
      (hreplies : Collects g.parallel (g.replies plan) (.ok pages))
      (hanswer : g.mergePages pages plan.size = answer) : MayAnswer g request answer

end Answers

/-- One merged page. -/
def fetchPage (g : Gateway m α) (request : PageRequest) : ExceptT GatewayError m (Page α) :=
  MergedPage.page <$> g.fetch request

/-- A page of one source from what the source delivered.  A page that is full although
the source has more goes on after its last entity, or as the source says if it has none. -/
def trim (o : SortOrder) (delivered : Page α) (size : Nat) : Page α :=
  let page := Page.ofBatch o delivered.entities size
  if page.isExhausted && !delivered.isExhausted then
    { page with
      continuation := (page.entities.getLast?.map o.continuationOf) <|> delivered.continuation }
  else page

/-- One page of one source.  The continuation is the source's own cursor, not a
bookmark, and a failing source always ends the request. -/
def fetchSingle (g : Gateway m α) (id : String) (continuation : Option String)
    (size : Option Nat) : ExceptT GatewayError m (Page α) := do
  let size ← ExceptT.mk (pure (g.resolveSize size))
  match g.source? id with
  | none => throw (.unknownSource id)
  | some source =>
    match g.merge.sourceOrder.parseCursor continuation with
    | .error error => throw (.badContinuation error)
    | .ok _ =>
      let answer ← ExceptT.lift (source.fetch continuation size)
      match interpret .abort id continuation answer with
      | .error error => throw error
      | .ok delivered => return trim g.merge.sourceOrder delivered.page size

/-- Follows continuations for at most `pages` pages, collecting entities; none is the
answer of a stream that does not end by then. -/
def follow (g : Gateway m α) (request : PageRequest) :
    (pages : Nat) → ExceptT GatewayError m (Option (List α))
  | 0 => return none
  | pages + 1 => do
    let page ← g.fetchPage request
    match page.continuation with
    | none => return some page.entities
    | some next =>
      let rest ← g.follow { request with continuation := some next } pages
      return rest.map (page.entities ++ ·)

/-- All entities from a request to the end of the stream. -/
def drain (g : Gateway m α) (request : PageRequest) : ExceptT GatewayError m (List α) := do
  match ← g.follow request g.config.paging.maxDrainPages with
  | some entities => return entities
  | none => throw (.drainLimit g.config.paging.maxDrainPages)

end MergedPaging.Gateway
