/-
Merged offers seen source by source.  The offers of one source are a stream of the
merged list: sorting all offers sorts each stream, and two lists in order whose
streams agree up to a page agree up to that page.  The bookmark after a merge holds,
for every source, what became of that source alone.
-/
import MergedPaging.Proofs.Streams

namespace MergedPaging

open Std

namespace Bookmark

theorem state_empty (id : String) : empty.state id = none :=
  rfl

theorem state_foldl_set_of_notMem {states : List (String × Option Progress)} {id : String}
    (hid : id ∉ states.map Prod.fst) (b : Bookmark) :
    (states.foldl (fun b entry => b.set entry.1 entry.2) b).state id = b.state id := by
  induction states generalizing b with
  | nil => rfl
  | cons entry states ih =>
      simp only [List.map_cons, List.mem_cons, not_or] at hid
      rw [List.foldl_cons, ih hid.2, state_set, if_neg hid.1]

theorem state_ofList_of_notMem {states : List (String × Option Progress)} {id : String}
    (hid : id ∉ states.map Prod.fst) : (ofList states).state id = none := by
  rw [ofList, state_foldl_set_of_notMem hid, state_empty]

/-- Setting many states leaves each source with its own, unless its cursor is empty. -/
theorem state_ofList {states : List (String × Option Progress)}
    (hnodup : (states.map Prod.fst).Nodup) {entry : String × Option Progress}
    (hentry : entry ∈ states) :
    (ofList states).state entry.1 = entry.2.filter (· ≠ .active "") := by
  unfold ofList
  generalize empty = b
  induction states generalizing b with
  | nil => simp at hentry
  | cons head states ih =>
      rw [List.map_cons, List.nodup_cons] at hnodup
      rw [List.foldl_cons]
      rcases List.mem_cons.1 hentry with rfl | hrest
      · rw [state_foldl_set_of_notMem hnodup.1, state_set, if_pos rfl]
      · exact ih hnodup.2 hrest _

end Bookmark

namespace Merge

variable {α : Type}

theorem won_append (left right : List (String × α)) (id : String) :
    won (left ++ right) id = won left id ++ won right id := by
  simp [won]

theorem length_won_le (offers : List (String × α)) (id : String) :
    (won offers id).length ≤ offers.length := by
  rw [won, List.length_map]
  exact List.length_filter_le _ _

theorem mem_won_iff {offers : List (String × α)} {id : String} {row : α} :
    row ∈ won offers id ↔ (id, row) ∈ offers := by
  simp [won]

theorem won_filter (offers : List (String × α)) (p : String × α → Bool) (id : String) :
    won (offers.filter p) id = (won offers id).filter fun row => p (id, row) := by
  induction offers with
  | nil => rfl
  | cons offer offers ih =>
      obtain ⟨source, row⟩ := offer
      by_cases hid : source = id <;> by_cases hp : p (source, row) = true <;>
        simp_all [won]

/-- The offers of a source are its rows under its id. -/
theorem filter_eq_map_won (offers : List (String × α)) (id : String) :
    offers.filter (fun w => w.1 = id) = (won offers id).map (id, ·) := by
  induction offers with
  | nil => rfl
  | cons offer offers ih =>
      by_cases h : offer.1 = id
      · rw [List.filter_cons_of_pos (by simpa using h), ih]
        simp [won, ← h]
      · rw [List.filter_cons_of_neg (by simpa using h), ih]
        simp [won, h]

/-- Of the first offers, a source has its own first ones. -/
theorem won_take (offers : List (String × α)) (n : Nat) (id : String) :
    won (offers.take n) id = (won offers id).take (won (offers.take n) id).length := by
  have hsplit := won_append (offers.take n) (offers.drop n) id
  rw [List.take_append_drop] at hsplit
  rw [hsplit, List.take_left']
  rfl

theorem won_drop (offers : List (String × α)) (n : Nat) (id : String) :
    won (offers.drop n) id = (won offers id).drop (won (offers.take n) id).length := by
  have hsplit := won_append (offers.take n) (offers.drop n) id
  rw [List.take_append_drop] at hsplit
  rw [hsplit, List.drop_left']
  rfl

@[simp] theorem won_map_mk (rows : List α) (id : String) :
    won (rows.map (id, ·)) id = rows := by
  simp [won, List.filter_map, Function.comp_def]

theorem won_map_mk_of_ne (rows : List α) {id id' : String} (hne : id ≠ id') :
    won (rows.map (id, ·)) id' = [] := by
  simp [won, hne]

theorem won_flatMap_of_notMem {γ : Type} (key : γ → String) (rows : γ → List α)
    {items : List γ} {id : String} (hid : id ∉ items.map key) :
    won (items.flatMap fun x => (rows x).map (key x, ·)) id = [] := by
  induction items with
  | nil => rfl
  | cons x items ih =>
      simp only [List.map_cons, List.mem_cons, not_or] at hid
      rw [List.flatMap_cons, won_append, ih hid.2, won_map_mk_of_ne _ (Ne.symm hid.1),
        List.append_nil]

/-- When every source offers under an id of its own, its stream is what it offers. -/
theorem won_flatMap {γ : Type} (key : γ → String) (rows : γ → List α) {items : List γ}
    (hkeys : (items.map key).Nodup) {x : γ} (hx : x ∈ items) :
    won (items.flatMap fun y => (rows y).map (key y, ·)) (key x) = rows x := by
  induction items with
  | nil => simp at hx
  | cons y items ih =>
      rw [List.map_cons, List.nodup_cons] at hkeys
      rw [List.flatMap_cons, won_append]
      rcases List.mem_cons.1 hx with rfl | hrest
      · rw [won_map_mk, won_flatMap_of_notMem key rows hkeys.1, List.append_nil]
      · have hne : key y ≠ key x := by
          intro heq
          exact hkeys.1 (heq ▸ List.mem_map_of_mem hrest)
        rw [ih hkeys.2 hrest, won_map_mk_of_ne _ hne, List.nil_append]

theorem won_pool {pages : List (SourcePage α)} (hids : (pages.map (·.sourceId)).Nodup)
    {p : SourcePage α} (hp : p ∈ pages) : won (pool pages) p.sourceId = p.supplied :=
  won_flatMap SourcePage.sourceId SourcePage.supplied hids hp

theorem won_pool_of_notMem {pages : List (SourcePage α)} {id : String}
    (hid : id ∉ pages.map (·.sourceId)) : won (pool pages) id = [] :=
  won_flatMap_of_notMem SourcePage.sourceId SourcePage.supplied hid

variable [Sortable α] (m : Merge)

/-- Offers in merge order, equal ones by source. -/
def inOrder (offers : List (String × α)) : List (String × α) :=
  sortBy m.rank offers

theorem winners_eq (pages : List (SourcePage α)) (n : Nat) :
    m.winners pages n = (m.inOrder (pool pages)).take n :=
  rfl

theorem inOrder_perm (offers : List (String × α)) : (m.inOrder offers).Perm offers :=
  sortBy_perm offers

theorem pairwise_inOrder (offers : List (String × α)) :
    (m.inOrder offers).Pairwise fun a b => (m.rank a b).isLE :=
  pairwise_sortBy offers

/-- The offers of one source are ranked as its rows are ordered. -/
theorem inOrder_map_mk (rows : List α) (id : String) :
    m.inOrder (rows.map (id, ·)) = (sortBy m.mergeOrder.compare rows).map (id, ·) := by
  have hsort := List.map_mergeSort (f := fun row : α => (id, row))
    (r := fun a b => (m.mergeOrder.compare a b).isLE)
    (s := fun a b => (m.rank a b).isLE) (l := rows)
    fun a _ b _ => by rw [rank_same_source]
  exact hsort.symm

/-- Merging sorts each source's own offers by the merge order. -/
theorem won_inOrder (offers : List (String × α)) (id : String) :
    won (m.inOrder offers) id = sortBy m.mergeOrder.compare (won offers id) := by
  rw [won, inOrder, filter_sortBy, filter_eq_map_won, ← inOrder, inOrder_map_mk]
  simp

variable {m}

/-- Offers of equal rank share the stream of their source. -/
theorem rank_cover (a b : String × α) (h : m.rank a b = .eq) :
    ∃ id, decide (a.1 = id) ∧ decide (b.1 = id) :=
  ⟨a.1, by simp, by simp [fst_eq_of_rank_eq h]⟩

theorem take_eq_take_of_won {left right : List (String × α)}
    (hleft : left.Pairwise fun a b => (m.rank a b).isLE)
    (hright : right.Pairwise fun a b => (m.rank a b).isLE) {n : Nat}
    (hwon : ∀ id, (won left id).take n = (won right id).take n) :
    left.take n = right.take n := by
  apply take_eq_take_of_streams rank_cover hleft hright
  intro id
  rw [filter_eq_map_won, filter_eq_map_won, ← List.map_take, ← List.map_take, hwon]

theorem eq_of_won {left right : List (String × α)}
    (hleft : left.Pairwise fun a b => (m.rank a b).isLE)
    (hright : right.Pairwise fun a b => (m.rank a b).isLE)
    (hwon : ∀ id, won left id = won right id) : left = right := by
  apply eq_of_streams rank_cover hleft hright
  intro id
  rw [filter_eq_map_won, filter_eq_map_won, hwon]

/-- What a source wins is the beginning of what it offers, in merge order. -/
theorem won_winners {pages : List (SourcePage α)} (hids : (pages.map (·.sourceId)).Nodup)
    {p : SourcePage α} (hp : p ∈ pages) (n : Nat) :
    won (m.winners pages n) p.sourceId = (sortBy m.mergeOrder.compare p.supplied).take
      (won (m.winners pages n) p.sourceId).length := by
  have htake := won_take (m.inOrder (pool pages)) n p.sourceId
  rwa [won_inOrder, won_pool hids hp] at htake

theorem length_won_winners_le {pages : List (SourcePage α)}
    (hids : (pages.map (·.sourceId)).Nodup) {p : SourcePage α} (hp : p ∈ pages) (n : Nat) :
    (won (m.winners pages n) p.sourceId).length ≤ p.supplied.length := by
  rw [won_winners hids hp n, List.length_take, (sortBy_perm p.supplied).length_eq]
  exact Nat.min_le_right _ _

/-- A merge says nothing of a source that has no page in it. -/
theorem state_bookmark_of_notMem {pages : List (SourcePage α)} {winners : List (String × α)}
    {id : String} (hid : id ∉ pages.map (·.sourceId)) :
    (m.bookmark pages winners).state id = none := by
  apply Bookmark.state_ofList_of_notMem
  rwa [List.map_map]

/-- After a merge a source has the progress that it made, unless its cursor is empty. -/
theorem state_bookmark {pages : List (SourcePage α)}
    (hids : (pages.map (·.sourceId)).Nodup) (winners : List (String × α))
    {p : SourcePage α} (hp : p ∈ pages) :
    (m.bookmark pages winners).state p.sourceId =
      (m.advance p (won winners p.sourceId)).filter (· ≠ .active "") := by
  have hkeys : ((pages.map fun p =>
      (p.sourceId, m.advance p (won winners p.sourceId))).map Prod.fst).Nodup := by
    simpa [Function.comp_def] using hids
  exact Bookmark.state_ofList hkeys (List.mem_map_of_mem hp)

end Merge

end MergedPaging
