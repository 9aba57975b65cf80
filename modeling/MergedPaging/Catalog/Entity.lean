/-
The entities of a marketplace: items, their ownerships, orders and activities.  Each
can be sorted by id and time, orders also by price, and each is read and written as a
JSON record with its fields in a fixed order.
-/
import MergedPaging.Catalog.Blockchain
import MergedPaging.SortOrder

namespace MergedPaging

/-- Entities that live on a blockchain. -/
class OnChain (α : Type) where
  blockchain : α → Blockchain

structure Item where
  id : String
  blockchain : Blockchain
  lastUpdatedAt : Instant
  supply : Nat
  deleted : Bool
  deriving DecidableEq

structure Ownership where
  id : String
  blockchain : Blockchain
  itemId : String
  owner : String
  value : Nat
  lastUpdatedAt : Instant
  deriving DecidableEq

/-- An offer to sell or buy an item, with its price in its own currency and in dollars. -/
structure Order where
  id : String
  blockchain : Blockchain
  itemId : String
  currency : String
  makePrice : Option Decimal
  makePriceUsd : Option Decimal
  lastUpdatedAt : Instant
  deriving BEq

inductive ActivityKind where
  | mint
  | burn
  | transfer
  | list
  | bid
  | sell
  | cancelList
  | cancelBid
  deriving DecidableEq

namespace ActivityKind

def all : List ActivityKind :=
  [mint, burn, transfer, list, bid, sell, cancelList, cancelBid]

def name : ActivityKind → String
  | mint => "MINT"
  | burn => "BURN"
  | transfer => "TRANSFER"
  | list => "LIST"
  | bid => "BID"
  | sell => "SELL"
  | cancelList => "CANCEL_LIST"
  | cancelBid => "CANCEL_BID"

def ofName? (text : String) : Option ActivityKind :=
  all.find? fun k => k.name = text

end ActivityKind

structure Activity where
  id : String
  blockchain : Blockchain
  kind : ActivityKind
  date : Instant
  itemId : Option String
  deriving DecidableEq

namespace Item

instance : Sortable Item where
  id := Item.id
  updatedAt := Item.lastUpdatedAt

instance : OnChain Item := ⟨Item.blockchain⟩

def ofJson? (v : Json) : Option Item := do
  let r ← Json.record? ["id", "blockchain", "last_updated_at", "supply", "deleted"] v
  return {
    id := ← r.required "id" Json.string?
    blockchain := ← r.required "blockchain" Blockchain.ofJson?
    lastUpdatedAt := ← r.required "last_updated_at" Json.instant?
    supply := ← r.withDefault "supply" 0 Json.nat?
    deleted := ← r.withDefault "deleted" false Json.bool? }

instance : ToJson Item where
  toJson e := .object [
    ("id", .string e.id),
    ("blockchain", e.blockchain.toJson),
    ("last_updated_at", Json.ofInstant e.lastUpdatedAt),
    ("supply", Json.ofNat e.supply),
    ("deleted", .bool e.deleted)]

end Item

namespace Ownership

instance : Sortable Ownership where
  id := Ownership.id
  updatedAt := Ownership.lastUpdatedAt

instance : OnChain Ownership := ⟨Ownership.blockchain⟩

def ofJson? (v : Json) : Option Ownership := do
  let r ← Json.record? ["id", "blockchain", "item_id", "owner", "value", "last_updated_at"] v
  return {
    id := ← r.required "id" Json.string?
    blockchain := ← r.required "blockchain" Blockchain.ofJson?
    itemId := ← r.required "item_id" Json.string?
    owner := ← r.required "owner" Json.string?
    value := ← r.required "value" Json.nat?
    lastUpdatedAt := ← r.required "last_updated_at" Json.instant? }

instance : ToJson Ownership where
  toJson e := .object [
    ("id", .string e.id),
    ("blockchain", e.blockchain.toJson),
    ("item_id", .string e.itemId),
    ("owner", .string e.owner),
    ("value", Json.ofNat e.value),
    ("last_updated_at", Json.ofInstant e.lastUpdatedAt)]

end Ownership

namespace Order

instance : Sortable Order where
  id := Order.id
  updatedAt := Order.lastUpdatedAt
  priceUsd := Order.makePriceUsd
  priceNative := Order.makePrice

instance : OnChain Order := ⟨Order.blockchain⟩

def ofJson? (v : Json) : Option Order := do
  let r ← Json.record? ["id", "blockchain", "item_id", "currency", "make_price",
    "make_price_usd", "last_updated_at"] v
  return {
    id := ← r.required "id" Json.string?
    blockchain := ← r.required "blockchain" Blockchain.ofJson?
    itemId := ← r.required "item_id" Json.string?
    currency := ← r.required "currency" Json.string?
    makePrice := ← r.withDefault "make_price" none (Json.nullable Json.decimal?)
    makePriceUsd := ← r.withDefault "make_price_usd" none (Json.nullable Json.decimal?)
    lastUpdatedAt := ← r.required "last_updated_at" Json.instant? }

instance : ToJson Order where
  toJson e := .object [
    ("id", .string e.id),
    ("blockchain", e.blockchain.toJson),
    ("item_id", .string e.itemId),
    ("currency", .string e.currency),
    ("make_price", Json.ofOption Json.ofDecimal e.makePrice),
    ("make_price_usd", Json.ofOption Json.ofDecimal e.makePriceUsd),
    ("last_updated_at", Json.ofInstant e.lastUpdatedAt)]

end Order

namespace Activity

instance : Sortable Activity where
  id := Activity.id
  updatedAt := Activity.date

instance : OnChain Activity := ⟨Activity.blockchain⟩

def ofJson? (v : Json) : Option Activity := do
  let r ← Json.record? ["id", "blockchain", "kind", "date", "item_id"] v
  return {
    id := ← r.required "id" Json.string?
    blockchain := ← r.required "blockchain" Blockchain.ofJson?
    kind := ← r.required "kind" (Json.named? ActivityKind.ofName?)
    date := ← r.required "date" Json.instant?
    itemId := ← r.withDefault "item_id" none (Json.nullable Json.string?) }

instance : ToJson Activity where
  toJson e := .object [
    ("id", .string e.id),
    ("blockchain", e.blockchain.toJson),
    ("kind", .string e.kind.name),
    ("date", Json.ofInstant e.date),
    ("item_id", Json.ofOption Json.string e.itemId)]

end Activity

end MergedPaging
