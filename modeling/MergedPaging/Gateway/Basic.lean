/-
A gateway: registered sources that share one source order and are merged by one
merge order, and the errors that a request to it can end in.
-/
import MergedPaging.Config
import MergedPaging.Merge
import MergedPaging.Source

namespace MergedPaging

/-- Why a gateway did not answer. -/
inductive GatewayError where
  | badContinuation (error : CursorError)
  | pageSizeTooLarge (requested max : Nat)
  | unknownSource (id : String)
  | sourceFailed (id : String) (error : SourceError)
  | unencodableCursor (id : String)
  | duplicateSource (id : String)
  | invalidSourceId (id : String)
  | drainLimit (pages : Nat)
  deriving DecidableEq

namespace GatewayError

def message : GatewayError → String
  | badContinuation error => "bad continuation: " ++ error.message
  | pageSizeTooLarge requested max => s!"page size {requested} exceeds maximum {max}"
  | unknownSource id => "unknown or disabled source '" ++ id ++ "'"
  | sourceFailed id error => "source '" ++ id ++ "' failed: " ++ error.message
  | unencodableCursor id =>
    "cursor for source '" ++ id ++ "' cannot be encoded in a combined continuation"
  | duplicateSource id => "source '" ++ id ++ "' registered twice"
  | invalidSourceId id => "source id '" ++ id ++ "' is empty or contains ':' or ';'"
  | drainLimit pages => s!"drain did not reach the end after {pages} pages"

/-- Whether the request was at fault and can never succeed as it is. -/
def isClientError : GatewayError → Bool
  | badContinuation _ | pageSizeTooLarge _ _ | unknownSource _ => true
  | _ => false

/-- The HTTP status that answers the request. -/
def status (e : GatewayError) : Nat :=
  if e.isClientError then 400
  else
    match e with
    | sourceFailed _ _ => 502
    | _ => 500

end GatewayError

/-- A request for one merged page.  Without a size the default size is taken; an empty
list of sources means all that are enabled. -/
structure PageRequest where
  continuation : Option String := none
  size : Option Nat := none
  sources : List String := []
  deriving DecidableEq

/-- Registered sources by id, the two orders, and the settings.  `parallel` tells whether the
sources of a request are asked at once; unless it is given, the settings decide. -/
structure Gateway (m : Type → Type) (α : Type) where
  merge : Merge
  config : Config
  parallel : Bool := config.parallel
  sources : SortedMap String (Source m α)
  id_eq : ∀ entry ∈ sources.entries, entry.2.id = entry.1
  wireSafe : ∀ entry ∈ sources.entries, isWireSafeId entry.1 = true

namespace Gateway

variable {m : Type → Type} {α : Type}

/-- A gateway without sources. -/
def new (merge : Merge) (config : Config) : Gateway m α where
  merge := merge
  config := config
  sources := .empty
  id_eq := by simp [SortedMap.empty]
  wireSafe := by simp [SortedMap.empty]

/-- The gateway that asks sources at once, or one after another, whatever the settings say. -/
def withParallelism (g : Gateway m α) (parallel : Bool) : Gateway m α :=
  { g with parallel := parallel }

/-- Registers a source under its id. -/
def add (g : Gateway m α) (source : Source m α) : Except GatewayError (Gateway m α) :=
  if hsafe : isWireSafeId source.id = true then
    if (g.sources.get? source.id).isSome then .error (.duplicateSource source.id)
    else
      .ok
        { g with
          sources := g.sources.insert source.id source
          id_eq := fun entry h => by
            rcases SortedMap.mem_insertEntry h with rfl | hold
            · rfl
            · exact g.id_eq entry hold
          wireSafe := fun entry h => by
            rcases SortedMap.mem_insertEntry h with rfl | hold
            · exact hsafe
            · exact g.wireSafe entry hold }
  else .error (.invalidSourceId source.id)

/-- The sources that are registered and enabled, in id order. -/
def available (g : Gateway m α) : List (Source m α) :=
  g.sources.values.filter fun source => g.config.sources.isEnabled source.id

def sourceIds (g : Gateway m α) : List String :=
  g.available.map (·.id)

/-- The source of an id, if it is registered and enabled. -/
def source? (g : Gateway m α) (id : String) : Option (Source m α) :=
  (g.sources.get? id).filter fun _ => g.config.sources.isEnabled id

/-- The page size of a request. -/
def resolveSize (g : Gateway m α) (size : Option Nat) : Except GatewayError Nat :=
  match size with
  | none => .ok g.config.paging.defaultSize
  | some requested =>
    if g.config.paging.maxSize < requested then
      .error (.pageSizeTooLarge requested g.config.paging.maxSize)
    else .ok (Nat.max requested 1)

/-- The sources that take part in a request, in id order, each once. -/
def participants (g : Gateway m α) (ids : List String) :
    Except GatewayError (List (Source m α)) :=
  match ids.find? fun id => (g.source? id).isNone with
  | some id => .error (.unknownSource id)
  | none => .ok (g.available.filter fun source => ids.isEmpty || ids.contains source.id)

end Gateway

end MergedPaging
