/-
Settings as JSON records.  Every field has a default and may be missing, but none may
be null.
-/
import MergedPaging.Config
import MergedPaging.Json.Record

namespace MergedPaging

namespace PagingConfig

def ofJson? (v : Json) : Option PagingConfig := do
  let r ← Json.record? ["default_size", "max_size", "max_drain_pages"] v
  let default : PagingConfig := {}
  return {
    defaultSize := ← r.withDefault "default_size" default.defaultSize Json.nat?
    maxSize := ← r.withDefault "max_size" default.maxSize Json.nat?
    maxDrainPages := ← r.withDefault "max_drain_pages" default.maxDrainPages Json.nat? }

instance : ToJson PagingConfig where
  toJson c := .object [
    ("default_size", Json.ofNat c.defaultSize),
    ("max_size", Json.ofNat c.maxSize),
    ("max_drain_pages", Json.ofNat c.maxDrainPages)]

end PagingConfig

namespace SourcesConfig

def ofJson? (v : Json) : Option SourcesConfig := do
  let r ← Json.record? ["enabled"] v
  return { enabled := ← r.withDefault "enabled" [] (Json.list? Json.string?) }

instance : ToJson SourcesConfig where
  toJson c := .object [("enabled", Json.ofList Json.string c.enabled)]

end SourcesConfig

namespace Config

def ofJson? (v : Json) : Option Config := do
  let r ← Json.record? ["failure_policy", "parallel", "paging", "sources"] v
  let default : Config := {}
  return {
    failurePolicy := ←
      r.withDefault "failure_policy" default.failurePolicy (Json.named? FailurePolicy.ofName?)
    parallel := ← r.withDefault "parallel" default.parallel Json.bool?
    paging := ← r.withDefault "paging" default.paging PagingConfig.ofJson?
    sources := ← r.withDefault "sources" default.sources SourcesConfig.ofJson? }

instance : ToJson Config where
  toJson c := .object [
    ("failure_policy", .string c.failurePolicy.name),
    ("parallel", .bool c.parallel),
    ("paging", ToJson.toJson c.paging),
    ("sources", ToJson.toJson c.sources)]

end Config

end MergedPaging
