/-
Orders of entities.  An order is a key (time of update, price or id) and a direction;
entities are compared by their cursors.  Entities without a price come last in both
directions of the order by price.
-/
import MergedPaging.Cursor.Date
import MergedPaging.Cursor.Id
import MergedPaging.Cursor.Price

namespace MergedPaging

inductive Direction where
  | asc
  | desc
  deriving DecidableEq

namespace Direction

/-- Turns an ascending comparison into one of this direction. -/
def apply : Direction → Ordering → Ordering
  | asc, o => o
  | desc, o => o.swap

def name : Direction → String
  | asc => "ASC"
  | desc => "DESC"

def ofName? (text : String) : Option Direction :=
  [asc, desc].find? fun d => d.name = text

end Direction

inductive SortKey where
  | updated
  | price
  | id
  deriving DecidableEq

/-- What a position in a stream with this key is. -/
abbrev SortKey.Cursor : SortKey → Type
  | .updated => DateCursor
  | .price => PriceCursor
  | .id => IdCursor

/-- A key and a direction. -/
structure SortOrder where
  key : SortKey
  direction : Direction := .asc
  deriving DecidableEq

/-- What an order may ask of an entity.  Entities that are not for sale have no price. -/
class Sortable (α : Type) where
  id : α → String
  updatedAt : α → Instant
  priceUsd : α → Option Decimal := fun _ => none
  priceNative : α → Option Decimal := fun _ => none

/-- The price of an entity: in dollars if it is known, else in its own currency. -/
def Sortable.price {α : Type} [Sortable α] (entity : α) : Option Decimal :=
  priceUsd entity <|> priceNative entity

namespace SortOrder

abbrev Cursor (o : SortOrder) : Type := o.key.Cursor

/-- The price that stands in for a missing one among missing ones. -/
def sentinel : Direction → Decimal
  | .asc => Decimal.zero
  | .desc => Decimal.max

/-- The price by which a cursor is sorted. -/
def sortValue (d : Direction) (c : PriceCursor) : Decimal :=
  c.price.getD (sentinel d)

/-- Price cursors in one direction, those without a price last in either. -/
def comparePrices (d : Direction) (a b : PriceCursor) : Ordering :=
  (compare a.price.isNone b.price.isNone).then
    (d.apply ((compare (sortValue d a) (sortValue d b)).then (compare a.id b.id)))

/-- Compares two positions. -/
def compareCursors : (o : SortOrder) → o.Cursor → o.Cursor → Ordering
  | ⟨.updated, d⟩, a, b => d.apply (compare (a : DateCursor) b)
  | ⟨.price, d⟩, a, b => comparePrices d a b
  | ⟨.id, d⟩, a, b => d.apply (compare (a : IdCursor) b)

/-- The text of a position. -/
def cursorText : (o : SortOrder) → o.Cursor → String
  | ⟨.updated, _⟩, c => toString (c : DateCursor)
  | ⟨.price, _⟩, c => toString (c : PriceCursor)
  | ⟨.id, _⟩, c => toString (c : IdCursor)

/-- Reads a position; `none` is the start of the stream. -/
def parseCursor : (o : SortOrder) → Option String → Except CursorError (Option o.Cursor)
  | ⟨.updated, _⟩, text => DateCursor.parse text
  | ⟨.price, _⟩, text => PriceCursor.parse text
  | ⟨.id, _⟩, text => IdCursor.parse text

variable {α : Type} [Sortable α]

/-- The position of an entity. -/
def cursorOf : (o : SortOrder) → α → o.Cursor
  | ⟨.updated, _⟩, entity => DateCursor.ofInstant (Sortable.updatedAt entity) (Sortable.id entity)
  | ⟨.price, _⟩, entity => ⟨Sortable.price entity, Sortable.id entity⟩
  | ⟨.id, _⟩, entity => ⟨Sortable.id entity⟩

/-- Entities compare as their positions do. -/
def compare (o : SortOrder) (a b : α) : Ordering :=
  o.compareCursors (o.cursorOf a) (o.cursorOf b)

/-- Whether `a` may stand before `b`. -/
def le (o : SortOrder) (a b : α) : Bool :=
  (o.compare a b).isLE

/-- The text of an entity's position. -/
def continuationOf (o : SortOrder) (entity : α) : String :=
  o.cursorText (o.cursorOf entity)

/-- Whether an entity comes strictly after a position. -/
def isAfter (o : SortOrder) (entity : α) (cursor : o.Cursor) : Bool :=
  o.compareCursors (o.cursorOf entity) cursor == .gt

/-- Sorts stably: entities that compare equal keep their order. -/
def sort (o : SortOrder) (entities : List α) : List α :=
  entities.mergeSort o.le

/-- Whether each entity may stand before the next. -/
def isSorted (o : SortOrder) : List α → Bool
  | a :: b :: rest => o.le a b && isSorted o (b :: rest)
  | _ => true

end SortOrder

end MergedPaging
