/-
The comparison of positions is a strict total order, for every key and in both directions.
Positions that compare equal are equal, prices by their values and whatever their scales.
Positions without a price come last in both directions, though no price is too high or too
low to be compared with the value that stands in for a missing one.
-/
import MergedPaging.Proofs.Order

namespace MergedPaging

open Std

/-- A comparison under which all items are in one strict order, but for those that are the
same. -/
structure StrictTotal {γ : Type} (cmp : γ → γ → Ordering) (same : γ → γ → Bool) : Prop where
  eq_swap : ∀ a b, cmp a b = (cmp b a).swap
  lt_trans : ∀ a b c, cmp a b = .lt → cmp b c = .lt → cmp a c = .lt
  isLE_trans : ∀ a b c, (cmp a b).isLE → (cmp b c).isLE → (cmp a c).isLE
  eq_iff : ∀ a b, cmp a b = .eq ↔ same a b = true

theorem strictTotal_of_transCmp {γ : Type} {cmp : γ → γ → Ordering} [TransCmp cmp]
    {same : γ → γ → Bool} (heq : ∀ a b, cmp a b = .eq ↔ same a b = true) :
    StrictTotal cmp same where
  eq_swap _ _ := OrientedCmp.eq_swap
  lt_trans _ _ _ := TransCmp.lt_trans
  isLE_trans _ _ _ := TransCmp.isLE_trans
  eq_iff := heq

theorem Direction.apply_eq_eq_iff {d : Direction} {o : Ordering} : d.apply o = .eq ↔ o = .eq := by
  cases d with
  | asc => exact Iff.rfl
  | desc => exact Ordering.swap_eq_eq

instance : LawfulEqOrd Instant where
  eq_of_compare {a b} h := by
    obtain ⟨hseconds, hnanos⟩ := Ordering.then_eq_eq.1 h
    have hseconds := LawfulEqOrd.eq_of_compare hseconds
    have hnanos := LawfulEqOrd.eq_of_compare hnanos
    cases a
    cases b
    simp_all

instance : LawfulEqOrd DateCursor where
  eq_of_compare {a b} h := by
    obtain ⟨hdate, hid⟩ := Ordering.then_eq_eq.1 h
    have hdate := LawfulEqOrd.eq_of_compare hdate
    have hid := LawfulEqOrd.eq_of_compare hid
    cases a
    cases b
    simp_all

instance : LawfulEqOrd IdCursor where
  eq_of_compare {a b} h := by
    have hid : a.id = b.id := LawfulEqOrd.eq_of_compare h
    cases a
    cases b
    simp_all

namespace PriceCursor

variable {a b : PriceCursor}

theorem compare_of_unpriced (ha : a.price = none) (hb : b.price ≠ none) : compare a b = .gt := by
  obtain ⟨price, hprice⟩ := Option.ne_none_iff_exists'.1 hb
  change (comparePrice a.price b.price).then _ = .gt
  rw [ha, hprice]
  rfl

/-- Cursors by price are equal when their prices have one value, or are both missing, and
their ids are equal. -/
theorem beq_iff : (a == b) = true ↔
    a.price.map Decimal.value = b.price.map Decimal.value ∧ a.id = b.id := by
  have hprice : comparePrice a.price b.price = .eq ↔
      a.price.map Decimal.value = b.price.map Decimal.value := by
    cases a.price <;> cases b.price <;> simp [comparePrice, Decimal.compare_eq_eq_iff]
  change ((comparePrice a.price b.price).then (compare a.id b.id) == .eq) = true ↔ _
  rw [beq_iff_eq, Ordering.then_eq_eq, hprice, LawfulEqOrd.compare_eq_iff_eq]

end PriceCursor

namespace SortOrder

/-- Equality of positions. -/
def sameCursor : (o : SortOrder) → o.Cursor → o.Cursor → Bool
  | ⟨.updated, _⟩, a, b => (a : DateCursor) == b
  | ⟨.price, _⟩, a, b => (a : PriceCursor) == b
  | ⟨.id, _⟩, a, b => (a : IdCursor) == b

/-- The direction turns the natural order of cursors by price, except between one with and
one without a price. -/
theorem comparePrices_eq (d : Direction) (a b : PriceCursor) :
    comparePrices d a b =
      if a.isPriced = b.isPriced then d.apply (Ord.compare a b) else Ord.compare a b := by
  obtain ⟨priceA, idA⟩ := a
  obtain ⟨priceB, idB⟩ := b
  cases priceA with
  | none =>
      cases priceB with
      | none =>
          have hsame : Ord.compare (sentinel d) (sentinel d) = .eq := ReflCmp.compare_self
          change d.apply ((Ord.compare (sentinel d) (sentinel d)).then (Ord.compare idA idB)) =
            d.apply (Ord.compare idA idB)
          rw [hsame, Ordering.eq_then]
      | some q => rfl
  | some p => cases priceB <;> rfl

theorem comparePrices_eq_eq_iff {d : Direction} {a b : PriceCursor} :
    comparePrices d a b = .eq ↔ (a == b) = true := by
  rw [comparePrices_eq]
  change _ ↔ (Ord.compare a b == .eq) = true
  rw [beq_iff_eq]
  split
  · exact Direction.apply_eq_eq_iff
  · exact Iff.rfl

theorem strictTotal_compareCursors (o : SortOrder) :
    StrictTotal o.compareCursors o.sameCursor := by
  apply strictTotal_of_transCmp
  obtain ⟨key, d⟩ := o
  cases key with
  | updated =>
      intro a b
      change d.apply (Ord.compare (a : DateCursor) b) = .eq ↔ ((a : DateCursor) == b) = true
      rw [Direction.apply_eq_eq_iff, LawfulEqOrd.compare_eq_iff_eq, beq_iff_eq]
  | price => exact fun a b => comparePrices_eq_eq_iff
  | id =>
      intro a b
      change d.apply (Ord.compare (a : IdCursor) b) = .eq ↔ ((a : IdCursor) == b) = true
      rw [Direction.apply_eq_eq_iff, LawfulEqOrd.compare_eq_iff_eq, beq_iff_eq]

/-- The comparison of positions is a strict total order, up to equality of positions; prices
are equal when their values are, and compare as their values do.  A position without a price
comes after every one with a price.  Otherwise the ascending order by price is the natural
order of its cursors, and the descending order its reverse. -/
theorem compareCursors_total :
    (∀ o : SortOrder, StrictTotal o.compareCursors o.sameCursor) ∧
    (∀ a b : PriceCursor, (a == b) = true ↔
      a.price.map Decimal.value = b.price.map Decimal.value ∧ a.id = b.id) ∧
    (∀ p q : Decimal, Ord.compare p q = Ord.compare p.value q.value) ∧
    (∀ (d : Direction) (a b : PriceCursor), a.price = none → b.price ≠ none →
      compareCursors ⟨.price, d⟩ a b = .gt) ∧
    (∀ a b : PriceCursor, compareCursors ⟨.price, .asc⟩ a b = Ord.compare a b) ∧
    ∀ a b : PriceCursor, a.isPriced = b.isPriced →
      compareCursors ⟨.price, .desc⟩ a b = (Ord.compare a b).swap := by
  refine ⟨strictTotal_compareCursors, fun a b => PriceCursor.beq_iff,
    Decimal.compare_eq_compare_value, ?_, ?_, ?_⟩
  · intro d a b ha hb
    have hpriced : ¬ a.isPriced = b.isPriced := by
      simp [PriceCursor.isPriced, ha, Option.isSome_iff_ne_none.2 hb]
    change comparePrices d a b = .gt
    rw [comparePrices_eq, if_neg hpriced, PriceCursor.compare_of_unpriced ha hb]
  · intro a b
    change comparePrices .asc a b = _
    rw [comparePrices_eq]
    exact ite_self _
  · intro a b hpriced
    change comparePrices .desc a b = _
    rw [comparePrices_eq, if_pos hpriced]
    rfl

end SortOrder

namespace Sample

/-- A cursor by price, whose id is empty. -/
def priced (price : Decimal) : PriceCursor :=
  ⟨some price, ""⟩

def unpriced : PriceCursor :=
  ⟨none, ""⟩

/-- One half, with three digits behind the point and with four, and the number below zero. -/
def half : Decimal :=
  .ofMagnitude false { mantissa := 500, scale := 3 }

def half' : Decimal :=
  .ofMagnitude false { mantissa := 5000, scale := 4 }

def below : Decimal :=
  .ofMagnitude true { mantissa := 500, scale := 3 }

open SortOrder in
theorem unpriced_last :
    compareCursors ⟨.price, .asc⟩ unpriced (priced .zero) = .gt ∧
      compareCursors ⟨.price, .desc⟩ unpriced (priced .max) = .gt ∧
      compareCursors ⟨.price, .desc⟩ (priced .max) unpriced = .lt ∧
      compareCursors ⟨.price, .desc⟩ (priced .max) (priced below) = .lt ∧
      compareCursors ⟨.price, .desc⟩ (priced half) (priced half') = .eq := by
  obtain ⟨htotal, -, -, hlast, -, hdesc⟩ := compareCursors_total
  have hbehind := hlast .desc unpriced (priced .max) rfl nofun
  have hturned := (htotal ⟨.price, .desc⟩).eq_swap (priced .max) unpriced
  have hhalf : (priced half == priced half') = true := by decide
  refine ⟨hlast .asc _ _ rfl nofun, hbehind, ?_, ?_, ?_⟩
  · rw [hturned, hbehind]
    rfl
  · apply (htotal ⟨.price, .desc⟩).lt_trans (priced .max) (priced half) (priced below)
    · exact (hdesc (priced .max) (priced half) rfl).trans (by decide)
    · exact (hdesc (priced half) (priced below) rfl).trans (by decide)
  · exact ((htotal ⟨.price, .desc⟩).eq_iff _ _).2 hhalf

end Sample

end MergedPaging
