/-
A static source against a plain backend.  The plain backend keeps its rows as they come; at
every request it looks through all of them, keeps those after the cursor and cuts a page.  A
static source sorts once, finds the cursor by binary search and looks one row beyond the page,
and still answers every request as the plain backend does.
-/
import MergedPaging.Proofs.Request

namespace MergedPaging

open Std

variable {α : Type} [Sortable α]

namespace SortOrder

/-- The answer of the plain backend. -/
def plainPage (o : SortOrder) (rows : List α) (continuation : Option String) (size : Nat) :
    Except CursorError (Page α) :=
  match o.parseCursor continuation with
  | .error error => .error error
  | .ok none => .ok (.ofBatch o rows size)
  | .ok (some cursor) => .ok (.ofBatch o (rows.filter fun row => o.isAfter row cursor) size)

/-- Rows are kept in the same order, whether they are sorted before or after. -/
theorem filter_sort (o : SortOrder) (p : α → Bool) (rows : List α) :
    (o.sort rows).filter p = o.sort (rows.filter p) :=
  filter_sortBy p rows

end SortOrder

namespace Page

/-- Sorting a batch before it is cut makes no difference. -/
theorem ofBatch_sort (o : SortOrder) (rows : List α) (n : Nat) :
    ofBatch o (o.sort rows) n = ofBatch o rows n := by
  have hsorted : o.sort (o.sort rows) = o.sort rows :=
    sortBy_of_pairwise (pairwise_sortBy rows)
  rw [ofBatch, ofBatch, hsorted]

end Page

namespace StaticSource

/-- Addition of numbers up to `top`, which stays there. -/
def saturatingAdd (top a b : Nat) : Nat :=
  min (a + b) top

/-- The rows that a page is cut from, with places in the list counted up to `top` only. -/
def window (s : StaticSource α) (top : Nat) (cursor : Option s.order.Cursor) (size : Nat) :
    List α :=
  let stop := min s.size (saturatingAdd top (saturatingAdd top (s.start cursor) (max size 1)) 1)
  (s.entities.take stop).drop (s.start cursor)

/-- Places that the list does not have are never missed. -/
theorem window_eq {s : StaticSource α} {top : Nat} (htop : s.size ≤ top)
    (cursor : Option s.order.Cursor) (n : Nat) :
    s.window top cursor n = (s.after cursor).take (max n 1 + 1) := by
  rw [window, after, List.take_drop, List.take_eq_take_iff.2]
  rw [size] at htop ⊢
  unfold saturatingAdd
  omega

variable {id : String} {order : SortOrder} {rows : List α} {s : StaticSource α}

/-- A static source that is made from rows, in whatever order they come, answers every
request as the plain backend over these rows does: with the same page, or with the same error
if the continuation cannot be read.  Counting up to `top` only makes no difference, as long as
there are no more rows than that. -/
theorem fetch_eq_plainPage (hs : ofEntities? id order rows = some s)
    (continuation : Option String) (size : Nat) :
    s.fetch continuation size = order.plainPage rows continuation size ∧
      ∀ top, rows.length ≤ top → ∀ cursor,
        s.window top cursor size = (s.after cursor).take (max size 1 + 1) := by
  obtain ⟨hid, hmade⟩ := Option.dite_none_right_eq_some.1 hs
  obtain rfl := Option.some.inj hmade
  constructor
  · rw [SortOrder.plainPage]
    cases hread : order.parseCursor continuation with
    | error error =>
        rw [fetch, hread]
        rfl
    | ok cursor =>
        rw [fetch_of_parseCursor hread]
        cases cursor with
        | none => exact congrArg Except.ok (Page.ofBatch_sort order rows size)
        | some cursor =>
            have hkept := order.filter_sort (fun row => order.isAfter row cursor) rows
            rw [after_some, hkept, Page.ofBatch_sort]
  · intro top htop cursor
    apply window_eq
    rw [StaticSource.size, order.length_sort]
    exact htop

end StaticSource

namespace Sample

/-- Three items in no order, two of them at one position. -/
def shuffled : List Item :=
  [item "3" 3, item "1" 1, { item "1" 1 with supply := 2 }]

/-- A page of the greatest size from behind the two, and a cursor that cannot be read. -/
theorem shuffled_plainPage : ∃ s, StaticSource.ofEntities? "east" byTime shuffled = some s ∧
    s.fetch (some "1000_1") 18446744073709551615 =
      byTime.plainPage shuffled (some "1000_1") 18446744073709551615 ∧
    s.fetch (some "x_1") 0 = byTime.plainPage shuffled (some "x_1") 0 ∧
    shuffled.length ≤ 18446744073709551615 ∧ ∀ cursor,
      s.window 18446744073709551615 cursor 18446744073709551615 =
      (s.after cursor).take (max 18446744073709551615 1 + 1) := by
  have hmade : StaticSource.ofEntities? "east" byTime shuffled = some _ :=
    dif_pos east_isWireSafe
  have hpage := StaticSource.fetch_eq_plainPage hmade (some "1000_1") 18446744073709551615
  have hunread := StaticSource.fetch_eq_plainPage hmade (some "x_1") 0
  exact ⟨_, hmade, hpage.1, hunread.1, by decide, hpage.2 _ (by decide)⟩

end Sample

end MergedPaging
