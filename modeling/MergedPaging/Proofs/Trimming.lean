/-
One page per source is enough.  What a source holds back beyond the page size can
never win, and whether a source is finished after the merge does not depend on the
reason why it is not: rows that it held back or rows that lost.
-/
import MergedPaging.Proofs.Winners
import MergedPaging.Proofs.Sample

namespace MergedPaging

open Std

variable {α : Type} [Sortable α]

namespace SortOrder

theorem length_sort (o : SortOrder) (rows : List α) : (o.sort rows).length = rows.length :=
  (sortBy_perm rows).length_eq

end SortOrder

namespace Page

theorem entities_ofBatch (o : SortOrder) (batch : List α) (n : Nat) :
    (ofBatch o batch n).entities = (o.sort batch).take (max n 1) := by
  rw [ofBatch]
  split
  · rename_i hshort
    exact (List.take_of_length_le hshort).symm
  · rfl

theorem continuation_ofBatch (o : SortOrder) (batch : List α) (n : Nat) :
    (ofBatch o batch n).continuation =
      if batch.length ≤ max n 1 then none
      else ((o.sort batch).take (max n 1)).getLast?.map o.continuationOf := by
  rw [ofBatch, o.length_sort]
  split <;> rfl

theorem isExhausted_ofBatch (o : SortOrder) (batch : List α) (n : Nat) :
    (ofBatch o batch n).isExhausted = decide (batch.length ≤ max n 1) := by
  rw [isExhausted, ofBatch, o.length_sort]
  split
  · rename_i hshort
    exact (decide_eq_true hshort).symm
  · rename_i hlong
    change ¬ batch.length ≤ max n 1 at hlong
    have hkept : (o.sort batch).take (max n 1) ≠ [] := by
      apply List.ne_nil_of_length_pos
      rw [List.length_take, o.length_sort]
      omega
    change (((o.sort batch).take (max n 1)).getLast?.map o.continuationOf).isNone = _
    rw [List.getLast?_eq_some_getLast hkept]
    simp [hlong]

end Page

namespace SourcePage

omit [Sortable α] in
theorem requested_of_isCompleted {p : SourcePage α} (h : p.isCompleted = true) :
    p.requested = some .completed := by
  rw [isCompleted, beq_iff_eq] at h
  rw [requested, h]
  rfl

end SourcePage

namespace Merge

variable {m : Merge}

/-- The pages cut to a size, in the order in which the sources deliver. -/
def trimmed (m : Merge) (n : Nat) (p : SourcePage α) : SourcePage α :=
  { p with page := .ofBatch m.sourceOrder p.page.entities n }

theorem supplied_trimmed (m : Merge) (n : Nat) (p : SourcePage α) :
    (m.trimmed n p).supplied = (m.sourceOrder.sort p.supplied).take (max n 1) := by
  have hcompleted : (m.trimmed n p).isCompleted = p.isCompleted := rfl
  rw [SourcePage.supplied, SourcePage.supplied, hcompleted]
  split
  · simp [SortOrder.sort]
  · exact Page.entities_ofBatch _ _ _

/-- Rows that a source holds back do not win. -/
theorem winners_trimmed {pages : List (SourcePage α)} {n : Nat}
    (hids : (pages.map (·.sourceId)).Nodup)
    (hagree : ∀ p ∈ pages, ∀ a ∈ p.supplied, ∀ b ∈ p.supplied,
      m.sourceOrder.compare a b = m.mergeOrder.compare a b) :
    m.winners (pages.map (m.trimmed n)) n = m.winners pages n := by
  have hids' : (pages.map (m.trimmed n)).map (·.sourceId) = pages.map (·.sourceId) := by
    rw [List.map_map]
    rfl
  rw [winners_eq, winners_eq]
  apply take_eq_take_of_won (m.pairwise_inOrder _) (m.pairwise_inOrder _)
  intro id
  rw [won_inOrder, won_inOrder]
  by_cases hid : id ∈ pages.map (·.sourceId)
  · obtain ⟨p, hp, rfl⟩ := List.mem_map.1 hid
    have hheld : won (pool (pages.map (m.trimmed n))) p.sourceId = (m.trimmed n p).supplied :=
      won_pool (hids'.symm ▸ hids) (List.mem_map_of_mem hp)
    have hsame : m.sourceOrder.sort p.supplied = sortBy m.mergeOrder.compare p.supplied :=
      sortBy_congr (hagree p hp)
    rw [won_pool hids hp, hheld, supplied_trimmed, hsame,
      sortBy_of_pairwise ((pairwise_sortBy p.supplied).sublist (List.take_sublist _ _)),
      List.take_take, Nat.min_eq_left (Nat.le_max_left n 1)]
  · rw [won_pool_of_notMem hid, won_pool_of_notMem (hids'.symm ▸ hid)]

/-- A source makes the same progress whether it held rows back or lost them. -/
theorem advance_trimmed {p : SourcePage α} {n : Nat} (hwhole : p.page.continuation = none)
    {won : List α} (hpage : won.length ≤ n) (hwon : won.length ≤ p.supplied.length) :
    m.advance (m.trimmed n p) won = m.advance p won := by
  have hrequested : (m.trimmed n p).requested = p.requested := rfl
  have hexhausted : p.page.isExhausted = true := by simp [Page.isExhausted, hwhole]
  have hexhausted' : (m.trimmed n p).page.isExhausted =
      decide (p.page.entities.length ≤ max n 1) :=
    Page.isExhausted_ofBatch _ _ _
  have hlength : (m.trimmed n p).supplied.length = min (max n 1) p.supplied.length := by
    rw [supplied_trimmed, List.length_take, SortOrder.length_sort]
  rw [advance, advance, hrequested, hexhausted, hexhausted']
  cases hcompleted : p.isCompleted with
  | true =>
      have hnone : won = [] := by
        rw [SourcePage.supplied, if_pos hcompleted] at hwon
        exact List.length_eq_zero_iff.1 (Nat.le_zero.1 hwon)
      simp [hnone, SourcePage.requested_of_isCompleted hcompleted]
  | false =>
      have hsupplied : p.supplied = p.page.entities := by simp [SourcePage.supplied, hcompleted]
      rw [hsupplied] at hlength hwon ⊢
      cases hlast : won.getLast? with
      | none =>
          have hempty : ((m.trimmed n p).supplied.isEmpty &&
              decide (p.page.entities.length ≤ max n 1)) = (p.page.entities.isEmpty && true) := by
            rw [Bool.eq_iff_iff]
            simp only [Bool.and_eq_true, List.isEmpty_iff_length_eq_zero, decide_eq_true_eq,
              hlength, and_true]
            omega
          simp only [hempty]
      | some last =>
          have hsome : 0 < won.length := by
            cases won with
            | nil => simp at hlast
            | cons row rows => simp
          have hall : (decide (won.length = (m.trimmed n p).supplied.length) &&
              decide (p.page.entities.length ≤ max n 1)) =
                (decide (won.length = p.page.entities.length) && true) := by
            rw [Bool.eq_iff_iff]
            simp only [Bool.and_eq_true, decide_eq_true_eq, hlength, and_true]
            omega
          simp only [hall]

/-- Merging pages that every source has cut to the page size gives the page, the
continuation and the progress of every source that merging whole sources gives. -/
theorem merge_trimmed {pages : List (SourcePage α)} {n : Nat}
    (hids : (pages.map (·.sourceId)).Nodup)
    (hwhole : ∀ p ∈ pages, p.page.continuation = none)
    (hagree : ∀ p ∈ pages, ∀ a ∈ p.page.entities, ∀ b ∈ p.page.entities,
      m.sourceOrder.compare a b = m.mergeOrder.compare a b) :
    m.merge (pages.map fun p => { p with page := .ofBatch m.sourceOrder p.page.entities n }) n =
      m.merge pages n := by
  have hmem (p : SourcePage α) (row : α) (hrow : row ∈ p.supplied) : row ∈ p.page.entities := by
    rw [SourcePage.supplied] at hrow
    split at hrow
    · exact absurd hrow List.not_mem_nil
    · exact hrow
  have hwinners : m.winners (pages.map (m.trimmed n)) n = m.winners pages n :=
    winners_trimmed hids fun p hp a ha b hb => hagree p hp a (hmem p a ha) b (hmem p b hb)
  have hbookmark : m.bookmark (pages.map (m.trimmed n)) (m.winners pages n) =
      m.bookmark pages (m.winners pages n) := by
    rw [bookmark, bookmark, List.map_map]
    congr 1
    apply List.map_congr_left
    intro p hp
    have hadvance : m.advance (m.trimmed n p) (won (m.winners pages n) p.sourceId) =
        m.advance p (won (m.winners pages n) p.sourceId) := by
      apply advance_trimmed (hwhole p hp)
      · exact (length_won_le _ _).trans (List.length_take_le _ _)
      · exact length_won_winners_le hids hp n
    exact congrArg (Prod.mk p.sourceId) hadvance
  have hids' : (pages.map (m.trimmed n)).map (·.sourceId) = pages.map (·.sourceId) := by
    rw [List.map_map]
    rfl
  change m.merge (pages.map (m.trimmed n)) n = m.merge pages n
  rw [merge, merge, hwinners, hbookmark, hids']

end Merge

/-- One source that is asked from the start, and one that goes on. -/
def Sample.pages : List (SourcePage Item) :=
  [⟨"east", none, ⟨none, [item "3" 3, item "1" 1, item "4" 4]⟩⟩,
    ⟨"west", some "0_", ⟨none, [item "2" 2]⟩⟩]

theorem Merge.merge_trimmed_pages :
    (single ⟨.updated, .asc⟩).merge (Sample.pages.map fun p =>
        { p with page := .ofBatch ⟨.updated, .asc⟩ p.page.entities 2 }) 2 =
      (single ⟨.updated, .asc⟩).merge Sample.pages 2 :=
  merge_trimmed (by decide) (by decide) (by decide)

end MergedPaging
