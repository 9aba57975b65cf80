/-
The order in which pages are handed to the merge.  Offers are ranked by key and then by
source, and every source keeps its own rows in order, so a merge of the same pages in another
order gives the same page and leaves every source where it was.
-/
import MergedPaging.Proofs.BookmarkText
import MergedPaging.Proofs.Trimming

namespace MergedPaging

namespace Bookmark

/-- States under keys of their own may be set in any order. -/
theorem ofList_perm {states states' : List (String × Option Progress)}
    (hkeys : (states.map Prod.fst).Nodup) (hperm : states.Perm states') :
    ofList states = ofList states' := by
  have hkeys' : (states'.map Prod.fst).Nodup := (hperm.map Prod.fst).nodup_iff.1 hkeys
  apply ext_state
  intro id
  by_cases hid : id ∈ states.map Prod.fst
  · obtain ⟨entry, hentry, rfl⟩ := List.mem_map.1 hid
    rw [state_ofList hkeys hentry, state_ofList hkeys' (hperm.mem_iff.1 hentry)]
  · have hid' : id ∉ states'.map Prod.fst := fun h => hid ((hperm.map Prod.fst).mem_iff.2 h)
    rw [state_ofList_of_notMem hid, state_ofList_of_notMem hid']

end Bookmark

namespace Merge

variable {α : Type} {pages pages' : List (SourcePage α)}

theorem won_pool_perm (hids : (pages.map (·.sourceId)).Nodup) (hperm : pages.Perm pages')
    (id : String) : won (pool pages) id = won (pool pages') id := by
  have hids' : (pages'.map (·.sourceId)).Nodup := (hperm.map _).nodup_iff.1 hids
  by_cases hid : id ∈ pages.map (·.sourceId)
  · obtain ⟨p, hp, rfl⟩ := List.mem_map.1 hid
    rw [won_pool hids hp, won_pool hids' (hperm.mem_iff.1 hp)]
  · have hid' : id ∉ pages'.map (·.sourceId) := fun h => hid ((hperm.map _).mem_iff.2 h)
    rw [won_pool_of_notMem hid, won_pool_of_notMem hid']

variable [Sortable α] {m : Merge}

/-- The order of offers is known from what each source offers. -/
theorem inOrder_congr {offers offers' : List (String × α)}
    (hwon : ∀ id, won offers id = won offers' id) : m.inOrder offers = m.inOrder offers' := by
  apply eq_of_won (m.pairwise_inOrder _) (m.pairwise_inOrder _)
  intro id
  rw [won_inOrder, won_inOrder, hwon]

theorem winners_perm (hids : (pages.map (·.sourceId)).Nodup) (hperm : pages.Perm pages')
    (n : Nat) : m.winners pages n = m.winners pages' n := by
  rw [winners_eq, winners_eq, inOrder_congr (won_pool_perm hids hperm)]

/-- Pages of sources with ids of their own may be merged in any order: the merged page, its
continuation and the progress of every source are the same. -/
theorem merge_perm (m : Merge) (hids : (pages.map (·.sourceId)).Nodup)
    (hperm : pages.Perm pages') (n : Nat) : m.merge pages n = m.merge pages' n := by
  have hwinners := winners_perm (m := m) hids hperm n
  have hbookmark : m.bookmark pages (m.winners pages' n) =
      m.bookmark pages' (m.winners pages' n) := by
    apply Bookmark.ofList_perm
    · simpa [Function.comp_def] using hids
    · exact hperm.map _
  have hall (b : Bookmark) : b.allCompleted (pages.map (·.sourceId)) =
      b.allCompleted (pages'.map (·.sourceId)) := by
    rw [Bool.eq_iff_iff, Bookmark.allCompleted, Bookmark.allCompleted, List.all_eq_true,
      List.all_eq_true]
    simp only [(hperm.map _).mem_iff]
  rw [merge, merge, hwinners, hbookmark, hall]

end Merge

namespace Sample

/-- Three sources with items at one position, two of one source. -/
def tied : List (SourcePage Item) :=
  [⟨"west", some "0_", ⟨none, [item "1" 1, { item "1" 1 with supply := 2 }]⟩⟩,
    ⟨"east", none, ⟨none, [{ item "1" 1 with supply := 3 }]⟩⟩,
    ⟨"north", none, ⟨some "1000_1", [{ item "1" 1 with supply := 4 }]⟩⟩]

/-- The page ends among the tied items. -/
theorem merge_tied :
    ((Merge.single ⟨.updated, .desc⟩).merge tied 3).page.entities.map Item.supply = [3, 4, 1] ∧
      (Merge.single ⟨.updated, .desc⟩).merge tied 3 =
        (Merge.single ⟨.updated, .desc⟩).merge tied.reverse 3 := by
  constructor
  · cbv
  · exact Merge.merge_perm _ (by decide) (List.reverse_perm tied).symm 3

end Sample

end MergedPaging
