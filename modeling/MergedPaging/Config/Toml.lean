/-
Settings as TOML text.  A setting stands in its table by name; a list in the place of
a table holds the settings by position.  Settings that are not known are ignored.
What is read is checked, so settings that break a condition are refused although their
text is well formed.
-/
import MergedPaging.Config
import MergedPaging.Toml.Reader

namespace MergedPaging

namespace Toml

variable {α : Type}

/-- What a group of settings holds for one of them, by name or by position; the outer
`none` is a value that is no group.  A time has no settings. -/
def setting? (name : String) (position : Nat) : Toml → Option (Option Toml)
  | .table _ fields => some (fields.lookup name)
  | .array items => some items[position]?
  | .tables elements => some (elements[position]?.map (.table .header))
  | .time => some none
  | _ => none

/-- A setting that may be missing. -/
def setting (name : String) (position : Nat) (default : α) (read : Toml → Option α)
    (group : Toml) : Option α := do
  match ← group.setting? name position with
  | some value => read value
  | none => return default

def string? : Toml → Option String
  | .string s => some s
  | _ => none

def bool? : Toml → Option Bool
  | .boolean b => some b
  | _ => none

/-- A whole number that is not negative. -/
def nat? : Toml → Option Nat
  | .integer (.ofNat n) => some n
  | _ => none

def list? (read : Toml → Option α) : Toml → Option (List α)
  | .array items => items.mapM read
  | _ => none

def isEmpty : Toml → Bool
  | .array items => items.isEmpty
  | .table _ fields => fields.isEmpty
  | _ => false

/-- One of some names: its text, or a table with the name as its only key and nothing
in it. -/
def named? (ofName : String → Option α) : Toml → Option α
  | .string s => ofName s
  | .table _ [(name, value)] => if value.isEmpty then ofName name else none
  | _ => none

/-- A word as a document writes it. -/
def ofString (s : String) : String :=
  String.ofList (writeQuoted s.toList)

/-- A list of words, on one line if there is at most one. -/
def ofStrings : List String → String
  | [] => "[]"
  | [s] => "[" ++ ofString s ++ "]"
  | strings => "[\n" ++ String.join (strings.map fun s => "    " ++ ofString s ++ ",\n") ++ "]"

end Toml

def PagingConfig.ofToml? (v : Toml) : Option PagingConfig := do
  let default : PagingConfig := {}
  return {
    defaultSize := ← v.setting "default_size" 0 default.defaultSize Toml.nat?
    maxSize := ← v.setting "max_size" 1 default.maxSize Toml.nat?
    maxDrainPages := ← v.setting "max_drain_pages" 2 default.maxDrainPages Toml.nat? }

def SourcesConfig.ofToml? (v : Toml) : Option SourcesConfig := do
  return { enabled := ← v.setting "enabled" 0 [] (Toml.list? Toml.string?) }

namespace Config

def ofToml? (v : Toml) : Option Config := do
  let default : Config := {}
  return {
    failurePolicy := ←
      v.setting "failure_policy" 0 default.failurePolicy (Toml.named? FailurePolicy.ofName?)
    parallel := ← v.setting "parallel" 1 default.parallel Toml.bool?
    paging := ← v.setting "paging" 2 default.paging PagingConfig.ofToml?
    sources := ← v.setting "sources" 3 default.sources SourcesConfig.ofToml? }

/-- Reads settings and checks them. -/
def parse (text : String) : Except ConfigError Config :=
  match Toml.parse text >>= fun fields => ofToml? (.table .header fields) with
  | none => .error .unreadable
  | some c =>
    match c.check with
    | .ok () => .ok c
    | .error fault => .error (.invalid fault)

/-- Whether TOML has whole numbers for all sizes. -/
def isWritable (c : Config) : Bool :=
  c.paging.defaultSize < Text.int64Limit && c.paging.maxSize < Text.int64Limit &&
    c.paging.maxDrainPages < Text.int64Limit

/-- The document that holds the settings. -/
def document (c : Config) : String :=
  "failure_policy = " ++ Toml.ofString c.failurePolicy.name ++ "\n" ++
  "parallel = " ++ toString c.parallel ++ "\n" ++
  "\n[paging]\n" ++
  "default_size = " ++ toString c.paging.defaultSize ++ "\n" ++
  "max_size = " ++ toString c.paging.maxSize ++ "\n" ++
  "max_drain_pages = " ++ toString c.paging.maxDrainPages ++ "\n" ++
  "\n[sources]\n" ++
  "enabled = " ++ Toml.ofStrings c.sources.enabled ++ "\n"

/-- Writes settings, unless a size is too large for TOML. -/
def toToml? (c : Config) : Option String :=
  if c.isWritable then some c.document else none

end Config

end MergedPaging
