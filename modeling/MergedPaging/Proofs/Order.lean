/-
The laws of the orders.  Every comparison of positions is oriented and transitive, in
both directions, and so is the rank by which offers of several sources are merged.
Decimal numbers compare as the numbers that they stand for, whatever their scales.
-/
import MergedPaging.Merge
import Mathlib.Algebra.Order.Field.Rat
import Mathlib.Tactic.Positivity
import Mathlib.Order.Compare

namespace MergedPaging

open Std

/-- Comparing after a common map keeps the laws of the comparison. -/
theorem transCmp_comap {α β : Type} (f : α → β) (cmp : β → β → Ordering) [TransCmp cmp] :
    TransCmp fun a b => cmp (f a) (f b) where
  eq_swap := OrientedCmp.eq_swap
  isLE_trans := TransCmp.isLE_trans

/-- Of two items in order, the second is greater or equal. -/
theorem gt_or_eq_of_isLE {α : Type} {cmp : α → α → Ordering} [OrientedCmp cmp] {a b : α}
    (h : (cmp a b).isLE) : cmp b a = .gt ∨ cmp b a = .eq := by
  rcases Ordering.isLE_iff_eq_lt_or_eq_eq.1 h with hlt | heq
  · exact Or.inl (OrientedCmp.gt_of_lt hlt)
  · exact Or.inr (OrientedCmp.eq_symm heq)

namespace Decimal

/-- The number that a decimal stands for. -/
def value (d : Decimal) : ℚ :=
  d.numerator / 10 ^ d.scale

/-- Decimals compare as the numbers that they stand for. -/
theorem compare_eq_compare_value (a b : Decimal) : compare a b = compare a.value b.value := by
  have hlt (a b : Decimal) : a.numerator * ((10 ^ b.scale : Nat) : Int) <
      b.numerator * ((10 ^ a.scale : Nat) : Int) ↔ a.value < b.value := by
    rw [value, value, div_lt_div_iff₀ (by positivity) (by positivity)]
    norm_cast
  change compare (a.numerator * ((10 ^ b.scale : Nat) : Int))
    (b.numerator * ((10 ^ a.scale : Nat) : Int)) = _
  rcases Int.lt_trichotomy (a.numerator * ((10 ^ b.scale : Nat) : Int))
    (b.numerator * ((10 ^ a.scale : Nat) : Int)) with hless | hsame | hmore
  · rw [compare_lt_iff_lt.2 hless, compare_lt_iff_lt.2 ((hlt a b).1 hless)]
  · have hle : a.value ≤ b.value := le_of_not_gt fun h => ((hlt b a).2 h).ne' hsame
    have hge : b.value ≤ a.value := le_of_not_gt fun h => ((hlt a b).2 h).ne hsame
    rw [hsame, hle.antisymm hge, ReflOrd.compare_self, ReflOrd.compare_self]
  · rw [compare_gt_iff_gt.2 hmore, compare_gt_iff_gt.2 ((hlt b a).1 hmore)]

theorem compare_eq_eq_iff {a b : Decimal} : compare a b = .eq ↔ a.value = b.value := by
  rw [compare_eq_compare_value, LawfulEqOrd.compare_eq_iff_eq]

instance : TransOrd Decimal := by
  have heq : (compare : Decimal → Decimal → Ordering) = compareOn value := by
    funext a b
    exact compare_eq_compare_value a b
  rw [TransOrd, heq]
  infer_instance

end Decimal

instance : TransOrd Instant :=
  inferInstanceAs (TransCmp (compareLex (compareOn Instant.seconds) (compareOn Instant.nanos)))

instance : TransOrd DateCursor :=
  inferInstanceAs (TransCmp (compareLex (compareOn DateCursor.date) (compareOn DateCursor.id)))

instance : TransOrd IdCursor :=
  inferInstanceAs (TransCmp (compareOn IdCursor.id))

theorem Direction.transCmp_apply {α : Type} (d : Direction) (cmp : α → α → Ordering)
    [TransCmp cmp] : TransCmp fun a b => d.apply (cmp a b) := by
  cases d with
  | asc => exact inferInstanceAs (TransCmp cmp)
  | desc =>
      have hswap : (fun a b => Direction.desc.apply (cmp a b)) = fun a b => cmp b a := by
        funext a b
        exact OrientedCmp.eq_swap.symm
      rw [hswap]
      infer_instance

namespace SortOrder

instance (d : Direction) : TransCmp (comparePrices d) := by
  have := d.transCmp_apply
    (compareLex (compareOn (sortValue d)) (compareOn PriceCursor.id))
  exact inferInstanceAs (TransCmp (compareLex (compareOn fun c : PriceCursor => c.price.isNone)
    fun a b => d.apply (compareLex (compareOn (sortValue d)) (compareOn PriceCursor.id) a b)))

instance (o : SortOrder) : TransCmp o.compareCursors := by
  obtain ⟨key, d⟩ := o
  cases key with
  | updated => exact d.transCmp_apply (Ord.compare : DateCursor → DateCursor → Ordering)
  | price => exact inferInstanceAs (TransCmp (comparePrices d))
  | id => exact d.transCmp_apply (Ord.compare : IdCursor → IdCursor → Ordering)

variable {α : Type} [Sortable α]

instance (o : SortOrder) : TransCmp (o.compare : α → α → Ordering) :=
  transCmp_comap o.cursorOf o.compareCursors

end SortOrder

namespace Merge

variable {α : Type} [Sortable α]

instance (m : Merge) : TransCmp (m.rank : String × α → String × α → Ordering) := by
  have := transCmp_comap (Prod.snd : String × α → α) m.mergeOrder.compare
  exact inferInstanceAs (TransCmp (compareLex
    (fun a b : String × α => m.mergeOrder.compare a.2 b.2) (compareOn Prod.fst)))

/-- Offers of one rank are of one source. -/
theorem fst_eq_of_rank_eq {m : Merge} {a b : String × α} (h : m.rank a b = .eq) :
    a.1 = b.1 := by
  rw [rank, Ordering.then_eq_eq] at h
  exact LawfulEqOrd.eq_of_compare h.2

/-- Within one source the rank is the merge order. -/
theorem rank_same_source (m : Merge) (id : String) (a b : α) :
    m.rank (id, a) (id, b) = m.mergeOrder.compare a b := by
  simp [rank]

end Merge

end MergedPaging
