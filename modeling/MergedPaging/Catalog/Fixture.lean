/-
Fixtures: sets of entities that stand in for live backends.  A fixture is split into
one source per blockchain, or, for orders, one per currency.
-/
import MergedPaging.Catalog.Entity
import MergedPaging.Json.Printer
import MergedPaging.Json.Reader
import MergedPaging.Source

namespace MergedPaging

/-- Entities of every kind. -/
structure Fixture where
  items : List Item := []
  ownerships : List Ownership := []
  orders : List Order := []
  activities : List Activity := []
  deriving BEq

/-- Why a fixture is of no use. -/
inductive FixtureError where
  | unreadable
  | invalidSourceId (id : String)
  deriving DecidableEq

def FixtureError.message : FixtureError → String
  | unreadable => "parse fixture JSON"
  | invalidSourceId id => "'" ++ id ++ "' cannot be used as a source id"

namespace Fixture

def ofJson? (v : Json) : Option Fixture := do
  let r ← Json.record? ["items", "ownerships", "orders", "activities"] v
  return {
    items := ← r.withDefault "items" [] (Json.list? Item.ofJson?)
    ownerships := ← r.withDefault "ownerships" [] (Json.list? Ownership.ofJson?)
    orders := ← r.withDefault "orders" [] (Json.list? Order.ofJson?)
    activities := ← r.withDefault "activities" [] (Json.list? Activity.ofJson?) }

/-- Reads a fixture from JSON text. -/
def parse (text : String) : Except FixtureError Fixture :=
  match Json.parse text >>= ofJson? with
  | some fixture => .ok fixture
  | none => .error .unreadable

instance : ToJson Fixture where
  toJson f := .object [
    ("items", Json.ofList ToJson.toJson f.items),
    ("ownerships", Json.ofList ToJson.toJson f.ownerships),
    ("orders", Json.ofList ToJson.toJson f.orders),
    ("activities", Json.ofList ToJson.toJson f.activities)]

end Fixture

variable {α : Type}

/-- The entities of each blockchain that has any, in the order of the blockchains. -/
def groupByBlockchain [OnChain α] (entities : List α) : List (Blockchain × List α) :=
  (Blockchain.all.map fun b => (b, entities.filter fun e => OnChain.blockchain e = b)).filter
    fun group => !group.2.isEmpty

/-- The orders in each currency, in the order of the currencies' names. -/
def groupByCurrency (orders : List Order) : SortedMap String (List Order) :=
  .group Order.currency orders

/-- One source per group; a group whose name cannot be an id is an error. -/
def sourcesOf [Sortable α] (order : SortOrder) (groups : List (String × List α)) :
    Except FixtureError (List (StaticSource α)) :=
  groups.mapM fun (id, entities) =>
    match StaticSource.ofEntities? id order entities with
    | some source => .ok source
    | none => .error (.invalidSourceId id)

/-- One source per blockchain. -/
def blockchainSources [Sortable α] [OnChain α] (order : SortOrder) (entities : List α) :
    Except FixtureError (List (StaticSource α)) :=
  sourcesOf order ((groupByBlockchain entities).map fun group => (group.1.name, group.2))

/-- One source per currency. -/
def currencySources (order : SortOrder) (orders : List Order) :
    Except FixtureError (List (StaticSource Order)) :=
  sourcesOf order (groupByCurrency orders).entries

end MergedPaging
