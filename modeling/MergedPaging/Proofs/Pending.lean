/-
What a source has still to deliver.  A source that goes on from a cursor delivers the
rows strictly after it, however far into its rows the cursor lies; cutting its batch
one row beyond the page loses nothing.  When the cursor is that of the last row taken
from it, what is left is exactly what was not taken.
-/
import MergedPaging.Proofs.Trimming
import MergedPaging.Source

namespace MergedPaging

open Std

variable {α : Type} [Sortable α]

namespace SortOrder

theorem parseCursor_none (o : SortOrder) : o.parseCursor none = .ok none := by
  obtain ⟨key, d⟩ := o
  cases key <;> rfl

theorem parseCursor_empty (o : SortOrder) : o.parseCursor (some "") = .ok none := by
  obtain ⟨key, d⟩ := o
  cases key <;> rfl

/-- The text of a row's position stands for that position when it is read. -/
def Restores (o : SortOrder) (row : α) : Prop :=
  ∃ cursor, o.parseCursor (some (o.continuationOf row)) = .ok (some cursor) ∧
    o.compareCursors cursor (o.cursorOf row) = .eq

instance (o : SortOrder) (row : α) : Decidable (o.Restores row) :=
  match hread : o.parseCursor (some (o.continuationOf row)) with
  | .ok (some cursor) =>
    decidable_of_iff (o.compareCursors cursor (o.cursorOf row) = .eq)
      ⟨fun h => ⟨cursor, hread, h⟩, fun ⟨_, hparse, h⟩ => by
        cases hread.symm.trans hparse
        exact h⟩
  | .ok none => .isFalse fun ⟨_, hparse, _⟩ => nomatch hread.symm.trans hparse
  | .error _ => .isFalse fun ⟨_, hparse, _⟩ => nomatch hread.symm.trans hparse

theorem Restores.continuationOf_ne_empty {o : SortOrder} {row : α} (h : o.Restores row) :
    o.continuationOf row ≠ "" := by
  obtain ⟨cursor, hparse, -⟩ := h
  intro hempty
  rw [hempty, parseCursor_empty] at hparse
  cases hparse

/-- The text of a row's position can be put into a bookmark, and stands for that
position when it is read. -/
structure Carries (o : SortOrder) (row : α) : Prop where
  noSeparator : ';' ∉ (o.continuationOf row).toList
  notCompleted : o.continuationOf row ≠ Progress.completedMark
  restores : o.Restores row

instance (o : SortOrder) (row : α) : Decidable (o.Carries row) :=
  decidable_of_iff (';' ∉ (o.continuationOf row).toList ∧
      o.continuationOf row ≠ Progress.completedMark ∧ o.Restores row)
    ⟨fun h => ⟨h.1, h.2.1, h.2.2⟩, fun h => ⟨h.noSeparator, h.notCompleted, h.restores⟩⟩

/-- In rows that are in order, a row that is not after a position has none after it in
front. -/
theorem pairwise_isAfter {o : SortOrder} {rows : List α}
    (hrows : rows.Pairwise fun a b => (o.compare a b).isLE) (cursor : o.Cursor) :
    rows.Pairwise fun a b => !o.isAfter b cursor → !o.isAfter a cursor := by
  refine hrows.imp ?_
  intro a b hle hbefore
  rw [Bool.not_eq_true', isAfter, beq_eq_false_iff_ne] at hbefore ⊢
  intro hafter
  have hle' : (o.compareCursors (o.cursorOf a) (o.cursorOf b)).isLE := hle
  exact hbefore (TransCmp.gt_of_isGE_of_gt (OrientedCmp.isGE_of_isLE hle') hafter)

end SortOrder

namespace Page

/-- One row beyond the page tells as much as all rows. -/
theorem ofBatch_take {o : SortOrder} {rows : List α}
    (hrows : rows.Pairwise fun a b => (o.compare a b).isLE) (n : Nat) :
    ofBatch o (rows.take (max n 1 + 1)) n = ofBatch o rows n := by
  have hsorted : o.sort rows = rows := sortBy_of_pairwise hrows
  have hsorted' : o.sort (rows.take (max n 1 + 1)) = rows.take (max n 1 + 1) :=
    sortBy_of_pairwise (hrows.sublist (List.take_sublist _ _))
  by_cases hshort : rows.length ≤ max n 1
  · rw [List.take_of_length_le (by omega)]
  · have hlong : ¬ (rows.take (max n 1 + 1)).length ≤ max n 1 := by
      rw [List.length_take]
      omega
    rw [ofBatch, ofBatch, hsorted, hsorted']
    change (if _ ≤ max n 1 then _ else _) = if _ ≤ max n 1 then _ else _
    rw [if_neg hlong, if_neg hshort]
    change (⟨((rows.take (max n 1 + 1)).take (max n 1)).getLast?.map _,
      (rows.take (max n 1 + 1)).take (max n 1)⟩ : Page α) = _
    rw [List.take_take, Nat.min_eq_left (Nat.le_succ _)]

end Page

namespace StaticSource

variable {s : StaticSource α}

theorem pairwise_entities (s : StaticSource α) :
    s.entities.Pairwise fun a b => (s.order.compare a b).isLE := by
  obtain ⟨rows, hrows⟩ := s.sorted
  rw [hrows]
  exact pairwise_sortBy rows

/-- The rows that a source has still to deliver when it goes on from some progress:
all of them at the start, those strictly after a cursor, and none when it is finished
or refuses the cursor. -/
def pending (s : StaticSource α) : Option Progress → List α
  | none => s.entities
  | some .completed => []
  | some (.active text) =>
    match s.order.parseCursor (some text) with
    | .ok none => s.entities
    | .ok (some cursor) => s.entities.filter fun row => s.order.isAfter row cursor
    | .error _ => []

theorem after_some (s : StaticSource α) (cursor : s.order.Cursor) :
    s.after (some cursor) = s.entities.filter fun row => s.order.isAfter row cursor := by
  have hsplit := drop_partitionPoint (SortOrder.pairwise_isAfter s.pairwise_entities cursor)
  rw [after, start, hsplit]
  simp only [Bool.not_not]

/-- A page of what is after a position. -/
theorem fetch_of_parseCursor {continuation : Option String} {cursor : Option s.order.Cursor}
    (hcursor : s.order.parseCursor continuation = .ok cursor) (n : Nat) :
    s.fetch continuation n = .ok (Page.ofBatch s.order (s.after cursor) n) := by
  have hafter : (s.after cursor).Pairwise fun a b => (s.order.compare a b).isLE :=
    s.pairwise_entities.sublist (List.drop_sublist _ _)
  rw [fetch, hcursor]
  change Except.ok (Page.ofBatch s.order ((s.after cursor).take (max n 1 + 1)) n) = _
  rw [Page.ofBatch_take hafter]

/-- What is pending ends where the rows end. -/
theorem pending_suffix (s : StaticSource α) (state : Option Progress) :
    s.pending state <:+ s.entities := by
  match state with
  | none => exact List.suffix_rfl
  | some .completed => exact List.nil_suffix
  | some (.active text) =>
      rw [pending]
      split
      · exact List.suffix_rfl
      · rename_i cursor _
        rw [← after_some]
        exact List.drop_suffix _ _
      · exact List.nil_suffix

theorem pairwise_pending (s : StaticSource α) (state : Option Progress) :
    (s.pending state).Pairwise fun a b => (s.order.compare a b).isLE :=
  s.pairwise_entities.sublist (s.pending_suffix state).sublist

/-- A page of what is pending. -/
theorem fetch_eq_ofBatch {state : Option Progress} (hstate : state ≠ some .completed)
    {cursor : Option s.order.Cursor}
    (hcursor : s.order.parseCursor (state.map Progress.toRequested) = .ok cursor) (n : Nat) :
    s.fetch (state.map Progress.toRequested) n =
      .ok (Page.ofBatch s.order (s.pending state) n) := by
  have hafter : s.after cursor = s.pending state := by
    match state with
    | none =>
        rw [Option.map_none, SortOrder.parseCursor_none] at hcursor
        cases hcursor
        rfl
    | some .completed => exact absurd rfl hstate
    | some (.active text) =>
        rw [Option.map_some, Progress.toRequested] at hcursor
        cases cursor with
        | none =>
            rw [pending, hcursor]
            rfl
        | some cursor => rw [pending, hcursor, after_some]
  rw [fetch_of_parseCursor hcursor, hafter]

/-- Going on from the cursor of a row, the rows strictly after it are pending.  Rows before
it in the list are not, as they are no later. -/
theorem pending_active_eq_filter {front rest : List α} {row : α}
    (hsplit : s.entities = front ++ row :: rest) {text : String} {cursor : s.order.Cursor}
    (hparse : s.order.parseCursor (some text) = .ok (some cursor))
    (hcursor : s.order.compareCursors cursor (s.order.cursorOf row) = .eq) :
    s.pending (some (.active text)) = rest.filter (s.order.compare · row == .gt) := by
  have hafter (other : α) : s.order.isAfter other cursor = (s.order.compare other row == .gt) := by
    rw [SortOrder.isAfter, TransCmp.congr_right hcursor]
    rfl
  have hsorted := s.pairwise_entities
  rw [pending, hparse]
  simp only [hafter]
  rw [hsplit] at hsorted ⊢
  have hbefore : ∀ other ∈ front, ¬ (s.order.compare other row == .gt) = true := by
    intro other hother hgt
    have hle := (List.pairwise_append.1 hsorted).2.2 other hother row List.mem_cons_self
    rw [beq_iff_eq.1 hgt] at hle
    cases hle
  rw [List.filter_append, List.filter_eq_nil_iff.2 hbefore, List.nil_append,
    List.filter_cons_of_neg (by simp [ReflCmp.compare_self])]

/-- When no two rows are equal, these are exactly the rows behind it. -/
theorem pending_active (hrows : s.entities.Pairwise fun a b => s.order.compare a b ≠ .eq)
    {front rest : List α} {row : α} (hsplit : s.entities = front ++ row :: rest)
    {text : String} {cursor : s.order.Cursor}
    (hparse : s.order.parseCursor (some text) = .ok (some cursor))
    (hcursor : s.order.compareCursors cursor (s.order.cursorOf row) = .eq) :
    s.pending (some (.active text)) = rest := by
  have hstrict := s.pairwise_entities.and hrows
  rw [hsplit] at hstrict
  rw [pending_active_eq_filter hsplit hparse hcursor, List.filter_eq_self]
  intro other hother
  have hbehind := List.rel_of_pairwise_cons (List.pairwise_append.1 hstrict).2.1 hother
  have hne : s.order.compare other row ≠ .eq := fun h => hbehind.2 (OrientedCmp.eq_symm h)
  exact beq_iff_eq.2 ((gt_or_eq_of_isLE hbehind.1).resolve_right hne)

end StaticSource

end MergedPaging
