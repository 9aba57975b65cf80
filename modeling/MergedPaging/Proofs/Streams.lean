/-
Lists in order and the streams that they are made of.  A stream picks some of the
items of a list; when items that compare equal always share a stream, a list in order
is known from its streams, and its first items from theirs.  Stable sorting keeps every
stream of equal items as it was.
-/
import MergedPaging.Proofs.Order
import Mathlib.Data.List.Basic

namespace MergedPaging

open Std

variable {β ι : Type} {cmp : β → β → Ordering}

/-- Stable sorting by a comparison. -/
def sortBy (cmp : β → β → Ordering) (items : List β) : List β :=
  items.mergeSort fun a b => (cmp a b).isLE

@[simp] theorem sortBy_nil (cmp : β → β → Ordering) : sortBy cmp [] = [] :=
  List.mergeSort_nil

theorem sortBy_perm (items : List β) : (sortBy cmp items).Perm items :=
  List.mergeSort_perm items _

theorem sortBy_of_pairwise {items : List β}
    (hitems : items.Pairwise fun a b => (cmp a b).isLE) : sortBy cmp items = items :=
  List.mergeSort_of_pairwise hitems

/-- Comparisons that agree on a list sort it alike. -/
theorem sortBy_congr {cmp' : β → β → Ordering} {items : List β}
    (hagree : ∀ a ∈ items, ∀ b ∈ items, cmp a b = cmp' a b) :
    sortBy cmp items = sortBy cmp' items := by
  have hsort := List.map_mergeSort (f := id) (r := fun a b => (cmp a b).isLE)
    (s := fun a b => (cmp' a b).isLE) (l := items)
    fun a ha b hb => by rw [hagree a ha b hb]; rfl
  simpa [sortBy] using hsort

variable [TransCmp cmp]

theorem isLE_or_isLE (a b : β) : (cmp a b).isLE || (cmp b a).isLE := by
  have hswap : cmp b a = (cmp a b).swap := OrientedCmp.eq_swap
  rw [hswap]
  cases cmp a b <;> rfl

theorem pairwise_sortBy (items : List β) :
    (sortBy cmp items).Pairwise fun a b => (cmp a b).isLE :=
  List.pairwise_mergeSort (fun _ _ _ => TransCmp.isLE_trans) isLE_or_isLE items

/-- Two lists in order whose streams agree in their first `n` items agree in their own
first `n` items.  Items that compare equal have to share a stream. -/
theorem take_eq_take_of_streams {stream : ι → β → Bool}
    (hcover : ∀ a b, cmp a b = .eq → ∃ i, stream i a ∧ stream i b)
    {left right : List β} (hleft : left.Pairwise fun a b => (cmp a b).isLE)
    (hright : right.Pairwise fun a b => (cmp a b).isLE) {n : Nat}
    (hstreams : ∀ i, (left.filter (stream i)).take n = (right.filter (stream i)).take n) :
    left.take n = right.take n := by
  -- A head is the head of each of its streams, so it is also in the other list.
  have hmem {items others : List β} {head : β} {k : Nat}
      (hsame : ∀ i, ((head :: items).filter (stream i)).take (k + 1) =
        (others.filter (stream i)).take (k + 1)) : head ∈ others := by
    obtain ⟨i, hhead, -⟩ := hcover head head ReflCmp.compare_self
    have hfirst := hsame i
    rw [List.filter_cons_of_pos hhead, List.take_succ_cons] at hfirst
    have htaken : head ∈ (others.filter (stream i)).take (k + 1) :=
      hfirst ▸ List.mem_cons_self
    exact (List.mem_filter.1 (List.mem_of_mem_take htaken)).1
  induction n generalizing left right with
  | zero => simp
  | succ n ih =>
      cases left with
      | nil =>
          cases right with
          | nil => rfl
          | cons b right => exact absurd (hmem fun i => (hstreams i).symm) List.not_mem_nil
      | cons a left =>
          cases right with
          | nil => exact absurd (hmem hstreams) List.not_mem_nil
          | cons b right =>
              have hab : (cmp a b).isLE := by
                rcases List.mem_cons.1 (hmem fun i => (hstreams i).symm) with rfl | hb
                · exact ReflCmp.isLE_rfl
                · exact List.rel_of_pairwise_cons hleft hb
              have hba : (cmp b a).isLE := by
                rcases List.mem_cons.1 (hmem hstreams) with rfl | ha
                · exact ReflCmp.isLE_rfl
                · exact List.rel_of_pairwise_cons hright ha
              obtain ⟨i, hia, hib⟩ := hcover a b (OrientedCmp.isLE_antisymm hab hba)
              have heads := hstreams i
              rw [List.filter_cons_of_pos hia, List.filter_cons_of_pos hib,
                List.take_succ_cons, List.take_succ_cons] at heads
              obtain rfl : a = b := (List.cons.inj heads).1
              have htails : ∀ j, (left.filter (stream j)).take n =
                  (right.filter (stream j)).take n := by
                intro j
                have hj := hstreams j
                by_cases hja : stream j a
                · rw [List.filter_cons_of_pos hja, List.filter_cons_of_pos hja,
                    List.take_succ_cons, List.take_succ_cons] at hj
                  exact (List.cons.inj hj).2
                · rw [List.filter_cons_of_neg hja, List.filter_cons_of_neg hja] at hj
                  have hless := congrArg (List.take n) hj
                  simpa only [List.take_take, Nat.min_eq_left (Nat.le_succ n)] using hless
              rw [List.take_succ_cons, List.take_succ_cons,
                ih hleft.of_cons hright.of_cons htails]

theorem eq_of_streams {stream : ι → β → Bool}
    (hcover : ∀ a b, cmp a b = .eq → ∃ i, stream i a ∧ stream i b)
    {left right : List β} (hleft : left.Pairwise fun a b => (cmp a b).isLE)
    (hright : right.Pairwise fun a b => (cmp a b).isLE)
    (hstreams : ∀ i, left.filter (stream i) = right.filter (stream i)) : left = right := by
  have htake := take_eq_take_of_streams (n := max left.length right.length) hcover hleft
    hright fun i => by rw [hstreams i]
  rwa [List.take_of_length_le (Nat.le_max_left _ _),
    List.take_of_length_le (Nat.le_max_right _ _)] at htake

/-- Sorting is stable: the items equal to one item keep their order. -/
theorem filter_eq_sortBy (a : β) (items : List β) :
    (sortBy cmp items).filter (cmp a · == .eq) = items.filter (cmp a · == .eq) := by
  let equal := items.filter (cmp a · == .eq)
  have hequal : equal.Pairwise fun b c => (cmp b c).isLE := by
    rw [List.pairwise_iff_forall_sublist]
    intro b c hsub
    have hb := (List.mem_filter.1 (hsub.subset (by simp : b ∈ [b, c]))).2
    have hc := (List.mem_filter.1 (hsub.subset (by simp : c ∈ [b, c]))).2
    rw [beq_iff_eq] at hb hc
    rw [← TransCmp.congr_left hb, hc]
    rfl
  have hsub : equal.Sublist (sortBy cmp items) :=
    List.sublist_mergeSort (fun _ _ _ => TransCmp.isLE_trans) isLE_or_isLE hequal
      List.filter_sublist
  have hfiltered := hsub.filter (cmp a · == .eq)
  rw [List.filter_filter] at hfiltered
  simp only [Bool.and_self] at hfiltered
  exact (hfiltered.eq_of_length
    (((sortBy_perm items).filter _).length_eq.symm)).symm

/-- Sorting commutes with picking items out. -/
theorem filter_sortBy (p : β → Bool) (items : List β) :
    (sortBy cmp items).filter p = sortBy cmp (items.filter p) := by
  have hcover (a b : β) (hab : cmp a b = .eq) :
      ∃ c, (cmp c a == .eq) = true ∧ (cmp c b == .eq) = true :=
    ⟨a, by simp [ReflCmp.compare_self], by simpa using hab⟩
  apply eq_of_streams hcover
  · exact (pairwise_sortBy items).filter p
  · exact pairwise_sortBy _
  · intro a
    rw [filter_eq_sortBy, List.filter_comm, filter_eq_sortBy, List.filter_comm]

end MergedPaging
