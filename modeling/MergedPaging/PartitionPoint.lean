/-
Binary search.  A list in which a test holds up to some point and fails from there on is
halved until that point is found.
-/

namespace MergedPaging

variable {α : Type} {test : α → Bool} {items : List α}

/-- How many items there are up to the point at which the test begins to fail. -/
def partitionPoint (test : α → Bool) (items : List α) : Nat :=
  match h : items.drop (items.length / 2) with
  | [] => 0
  | probe :: behind =>
    if test probe then items.length / 2 + 1 + partitionPoint test behind
    else partitionPoint test (items.take (items.length / 2))
termination_by items.length
decreasing_by
  all_goals
    have hlength := congrArg List.length h
    simp only [List.length_drop, List.length_cons, List.length_take] at hlength ⊢
    omega

theorem partitionPoint_le_length (test : α → Bool) (items : List α) :
    partitionPoint test items ≤ items.length := by
  fun_induction partitionPoint test items with
  | case1 items h => exact Nat.zero_le _
  | case2 items probe behind h _ ih =>
      have hlength := congrArg List.length h
      simp only [List.length_drop, List.length_cons] at hlength
      omega
  | case3 items probe behind h _ ih =>
      rw [List.length_take] at ih
      omega

/-- Behind the point are the items of which the test fails, if it fails of all items behind
one of which it fails. -/
theorem drop_partitionPoint (hsplit : items.Pairwise fun a b => test b → test a) :
    items.drop (partitionPoint test items) = items.filter fun item => !test item := by
  fun_induction partitionPoint test items with
  | case1 items h =>
      have hnone : items = [] := by
        have hlength := List.drop_eq_nil_iff.1 h
        rw [← List.length_eq_zero_iff]
        omega
      rw [hnone]
      rfl
  | case2 items probe behind h hholds ih =>
      have hitems := List.take_append_drop (items.length / 2) items
      have hdrop (k : Nat) : items.drop (items.length / 2 + 1 + k) = behind.drop k := by
        rw [Nat.add_assoc, ← List.drop_drop, h, Nat.add_comm, List.drop_succ_cons]
      rw [h] at hitems
      generalize items.take (items.length / 2) = front at *
      rw [← hitems, List.pairwise_append] at hsplit
      obtain ⟨-, hback, hacross⟩ := hsplit
      have hfront : front.filter (fun item => !test item) = [] := by
        rw [List.filter_eq_nil_iff]
        intro item hitem
        simp [hacross item hitem probe List.mem_cons_self hholds]
      rw [hdrop, ih hback.of_cons, ← hitems, List.filter_append, hfront, List.nil_append,
        List.filter_cons_of_neg (by simp [hholds])]
  | case3 items probe behind h hfails ih =>
      have hitems := List.take_append_drop (items.length / 2) items
      rw [h] at hitems
      generalize items.take (items.length / 2) = front at *
      rw [← hitems, List.pairwise_append] at hsplit
      obtain ⟨hfront, hback, -⟩ := hsplit
      have hlast : (probe :: behind).filter (fun item => !test item) = probe :: behind := by
        rw [List.filter_eq_self]
        intro item hitem
        rcases List.mem_cons.1 hitem with rfl | hitem
        · simpa using hfails
        · simpa using fun hholds => hfails (List.rel_of_pairwise_cons hback hitem hholds)
      rw [← hitems, List.drop_append_of_le_length (partitionPoint_le_length test front),
        ih hfront, List.filter_append, hlast]

end MergedPaging
