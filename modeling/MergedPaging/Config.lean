/-
The settings of a gateway.  Every setting has a default; `Config.check` lists the
conditions on them in the order in which they are looked at.
-/
import MergedPaging.Bookmark

namespace MergedPaging

/-- What becomes of a request when a source fails. -/
inductive FailurePolicy where
  | abort
  | skipAsEmpty
  deriving DecidableEq

namespace FailurePolicy

def name : FailurePolicy → String
  | abort => "ABORT"
  | skipAsEmpty => "SKIP_AS_EMPTY"

def ofName? (text : String) : Option FailurePolicy :=
  [abort, skipAsEmpty].find? fun p => p.name = text

end FailurePolicy

/-- Limits on pages. -/
structure PagingConfig where
  defaultSize : Nat := 50
  maxSize : Nat := 1000
  maxDrainPages : Nat := 10000
  deriving DecidableEq

/-- Which sources take part; an empty list means all. -/
structure SourcesConfig where
  enabled : List String := []
  deriving DecidableEq

def SourcesConfig.isEnabled (c : SourcesConfig) (id : String) : Bool :=
  c.enabled.isEmpty || c.enabled.contains id

/-- The settings of a gateway.  `parallel` asks for concurrent requests to the sources; it
changes no page, but if several sources fail it is open whose error is given. -/
structure Config where
  failurePolicy : FailurePolicy := .abort
  parallel : Bool := true
  paging : PagingConfig := {}
  sources : SourcesConfig := {}
  deriving DecidableEq

/-- Why settings are refused. -/
inductive ConfigFault where
  | defaultSizeZero
  | defaultSizeExceeds (defaultSize maxSize : Nat)
  | maxDrainPagesZero
  | unsafeSource (id : String)
  | repeatedSource (id : String)
  deriving DecidableEq

def ConfigFault.message : ConfigFault → String
  | defaultSizeZero => "paging.default_size must be > 0"
  | defaultSizeExceeds defaultSize maxSize =>
    s!"paging.default_size ({defaultSize}) exceeds paging.max_size ({maxSize})"
  | maxDrainPagesZero => "paging.max_drain_pages must be > 0"
  | unsafeSource id => "source id '" ++ id ++ "' is empty or contains ':' or ';'"
  | repeatedSource id => "source id '" ++ id ++ "' listed twice"

namespace Config

/-- The first fault among listed source ids, given those listed before. -/
def checkSources (seen : List String) : List String → Except ConfigFault Unit
  | [] => .ok ()
  | id :: rest =>
    if !isWireSafeId id then .error (.unsafeSource id)
    else if seen.contains id then .error (.repeatedSource id)
    else checkSources (id :: seen) rest

/-- The first fault of the settings. -/
def check (c : Config) : Except ConfigFault Unit :=
  if c.paging.defaultSize = 0 then .error .defaultSizeZero
  else if c.paging.maxSize < c.paging.defaultSize then
    .error (.defaultSizeExceeds c.paging.defaultSize c.paging.maxSize)
  else if c.paging.maxDrainPages = 0 then .error .maxDrainPagesZero
  else checkSources [] c.sources.enabled

end Config

/-- Settings that cannot be loaded. -/
inductive ConfigError where
  | unreadable
  | invalid (fault : ConfigFault)
  deriving DecidableEq

def ConfigError.message : ConfigError → String
  | unreadable => "parse config TOML"
  | invalid fault => "invalid config: " ++ fault.message

end MergedPaging
