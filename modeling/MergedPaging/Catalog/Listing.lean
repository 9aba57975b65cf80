/-
Listings: which entities of a fixture are paged, and in which order.  Items,
ownerships and orders are listed newest first, offers to sell from the cheapest, bids
from the dearest, activities in either direction.
-/
import MergedPaging.Catalog.Fixture
import MergedPaging.Merge

namespace MergedPaging

inductive Listing where
  | items
  | ownerships
  | orders
  | sellOrders
  | bids
  | activities (direction : Direction)
  deriving DecidableEq

namespace Listing

/-- The order of a listing, of its sources and of the merged pages alike. -/
def order : Listing → SortOrder
  | items | ownerships | orders => ⟨.updated, .desc⟩
  | sellOrders => ⟨.price, .asc⟩
  | bids => ⟨.price, .desc⟩
  | activities direction => ⟨.updated, direction⟩

def merge (l : Listing) : Merge :=
  .single l.order

/-- The kinds of entities. -/
inductive Kind where
  | items
  | ownerships
  | orders
  | activities
  deriving DecidableEq

def kind : Listing → Kind
  | items => .items
  | ownerships => .ownerships
  | orders | sellOrders | bids => .orders
  | activities _ => .activities

end Listing

/-- Splits the entities of one kind into sources in an order, orders by currency if
that is asked for, and hands the sources on. -/
def Fixture.withSources {β : Type} (f : Fixture) (kind : Listing.Kind) (order : SortOrder)
    (byCurrency : Bool)
    (use : {α : Type} → [Sortable α] → [ToJson α] → List (StaticSource α) → β) :
    Except FixtureError β :=
  match kind with
  | .items => (blockchainSources order f.items).map fun sources => use sources
  | .ownerships => (blockchainSources order f.ownerships).map fun sources => use sources
  | .activities => (blockchainSources order f.activities).map fun sources => use sources
  | .orders =>
    if byCurrency then (currencySources order f.orders).map fun sources => use sources
    else (blockchainSources order f.orders).map fun sources => use sources

end MergedPaging
