/-
A small gateway to try results on: items with times within a minute, an eastern and a western
source of them, and the gateway of both.  The library is imported whole here, and only here:
runs on the gateway are evaluated by the equations of whatever they call.
-/
import MergedPaging.Catalog.Entity
import MergedPaging.Gateway.Basic
import MergedPaging.Proofs.Streams
import Mathlib

namespace MergedPaging

namespace Sample

/-- An item with a time within the first minute of 1970. -/
def item (id : String) (second : Nat) : Item where
  id := id
  blockchain := .ethereum
  lastUpdatedAt := ⟨(second % 60 : Nat), 0, by omega, by omega, by omega, by omega⟩
  supply := 1
  deleted := false

/-- A gateway with two sources and the default settings but for the failure policy. -/
def gateway {m : Type → Type} (order : SortOrder) (policy : FailurePolicy)
    (east west : Source m Item) (heast : east.id = "east" := by rfl)
    (hwest : west.id = "west" := by rfl) : Gateway m Item where
  merge := .single order
  config := { failurePolicy := policy }
  sources := ⟨[("east", east), ("west", west)], by simp [List.pairwise_cons]; decide⟩
  id_eq := by simp [heast, hwest]
  wireSafe := by simp; decide

theorem east_isWireSafe : isWireSafeId "east" = true := by
  decide

theorem west_isWireSafe : isWireSafeId "west" = true := by
  decide

/-- A source of items that are sorted as they stand. -/
def source (id : String) (order : SortOrder) (items : List Item) (hid : isWireSafeId id = true)
    (hsorted : items.Pairwise fun a b => (order.compare a b).isLE := by decide) :
    StaticSource Item :=
  ⟨id, order, items, hid, items, (sortBy_of_pairwise hsorted).symm⟩

def byTime : SortOrder :=
  ⟨.updated, .asc⟩

def east : StaticSource Item :=
  source "east" byTime [item "1" 1, item "3" 3] east_isWireSafe

def west : StaticSource Item :=
  source "west" byTime [item "2" 2] west_isWireSafe

theorem id_east : (east.toSource : Source Id Item).id = "east" :=
  rfl

theorem id_west : (west.toSource : Source Id Item).id = "west" :=
  rfl

def eastAndWest : Gateway Id Item :=
  gateway byTime .abort east.toSource west.toSource id_east id_west

end Sample

end MergedPaging
