/-
Pages as JSON records: a page is its continuation, which may be null, and its
entities; a source's page adds the source and the requested continuation.
-/
import MergedPaging.Json.Record
import MergedPaging.SourcePage

namespace MergedPaging

variable {α : Type}

def Page.toJson (encode : α → Json) (p : Page α) : Json :=
  .object [
    ("continuation", Json.ofOption Json.string p.continuation),
    ("entities", Json.ofList encode p.entities)]

def Page.ofJson? (read : Json → Option α) (v : Json) : Option (Page α) := do
  let r ← Json.record? ["continuation", "entities"] v
  return {
    continuation := ← r.optional "continuation" Json.string?
    entities := ← r.required "entities" (Json.list? read) }

def SourcePage.toJson (encode : α → Json) (p : SourcePage α) : Json :=
  .object [
    ("source_id", .string p.sourceId),
    ("requested_continuation", Json.ofOption Json.string p.requestedContinuation),
    ("slice", p.page.toJson encode)]

def SourcePage.ofJson? (read : Json → Option α) (v : Json) : Option (SourcePage α) := do
  let r ← Json.record? ["source_id", "requested_continuation", "slice"] v
  return {
    sourceId := ← r.required "source_id" Json.string?
    requestedContinuation := ← r.optional "requested_continuation" Json.string?
    page := ← r.required "slice" (Page.ofJson? read) }

end MergedPaging
