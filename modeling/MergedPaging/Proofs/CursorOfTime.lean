/-
Cursors that are made from times.  Such a cursor is cut to the millisecond so that it equals
what its text is read as, and so that cursors compare as their milliseconds do.  Both hold of
all times but those in the leap second at the end of the calendar.  There is no millisecond to
cut them to, and the text of a cursor that keeps such a time is refused.
-/
import MergedPaging.Proofs.CursorText
import Mathlib.Order.Compare

namespace MergedPaging

/-- A comparison is known from what is less. -/
theorem compare_eq_compare_of_lt_iff {β γ : Type} [LinearOrder β] [LinearOrder γ] {a b : β}
    {c d : γ} (hlt : a < b ↔ c < d) (hgt : b < a ↔ d < c) : compare a b = compare c d := by
  rcases lt_trichotomy a b with h | rfl | h
  · rw [compare_lt_iff_lt.2 h, compare_lt_iff_lt.2 (hlt.1 h)]
  · have heq : c = d := le_antisymm (not_lt.1 fun h => lt_irrefl a (hgt.2 h))
      (not_lt.1 fun h => lt_irrefl a (hlt.2 h))
    rw [heq, compare_eq_iff_eq.2 rfl, compare_eq_iff_eq.2 rfl]
  · rw [compare_gt_iff_gt.2 h, compare_gt_iff_gt.2 (hgt.1 h)]

namespace Instant

/-- The nanoseconds since 1970; those of a leap second run on into the second after it. -/
def elapsed (t : Instant) : Int :=
  t.seconds * 1000000000 + t.nanos

/-- A time in a leap second behind which there is no second to run on into. -/
def InLastLeapSecond (t : Instant) : Prop :=
  t.seconds = 8210266876799 ∧ 1000000000 ≤ t.nanos

instance (t : Instant) : Decidable t.InLastLeapSecond :=
  inferInstanceAs (Decidable (_ ∧ _))

variable {t t' : Instant}

theorem millis_eq_elapsed_div (t : Instant) : t.millis = t.elapsed / 1000000 := by
  rw [millis, elapsed]
  omega

theorem inLastLeapSecond_iff : t.InLastLeapSecond ↔ 8210266876800000000000 ≤ t.elapsed := by
  have hhigh := t.seconds_le
  have hnanos := t.nanos_lt
  rw [InLastLeapSecond, elapsed]
  omega

theorem ofMillis?_eq_none_iff_inLastLeapSecond :
    ofMillis? t.millis = none ↔ t.InLastLeapSecond := by
  have hlow := t.seconds_ge
  rw [ofMillis?_eq_none_iff, inLastLeapSecond_iff, millis_eq_elapsed_div, elapsed]
  omega

theorem truncate_of_inLastLeapSecond (h : t.InLastLeapSecond) : t.truncate = t := by
  rw [truncate, ofMillis?_eq_none_iff_inLastLeapSecond.2 h]
  rfl

theorem ofMillis?_of_not_inLastLeapSecond (h : ¬ t.InLastLeapSecond) :
    ofMillis? t.millis = some t.truncate := by
  obtain ⟨cut, hcut⟩ := Option.ne_none_iff_exists'.1
    (mt ofMillis?_eq_none_iff_inLastLeapSecond.1 h)
  rw [truncate, hcut, Option.getD_some]

/-- A time of full milliseconds is in no leap second. -/
theorem nanos_lt_of_ofMillis? {m : Int} (h : ofMillis? m = some t) : t.nanos < 1000000000 := by
  unfold ofMillis? of? at h
  split at h
  · simp only [Option.some.injEq] at h
    rw [← h]
    change (m % 1000).toNat * 1000000 < _
    omega
  · cases h

theorem elapsed_of_ofMillis? {m : Int} (h : ofMillis? m = some t) :
    t.elapsed = m * 1000000 := by
  unfold ofMillis? of? at h
  split at h
  · simp only [Option.some.injEq] at h
    rw [← h, elapsed]
    change m / 1000 * 1000000000 + (((m % 1000).toNat * 1000000 : Nat) : Int) = _
    omega
  · cases h

theorem elapsed_truncate (t : Instant) : t.truncate.elapsed =
    if t.InLastLeapSecond then t.elapsed else t.elapsed / 1000000 * 1000000 := by
  split
  · rw [truncate_of_inLastLeapSecond ‹_›]
  · rw [elapsed_of_ofMillis? (ofMillis?_of_not_inLastLeapSecond ‹_›), millis_eq_elapsed_div]

/-- A leap second that does not run on into another second: there is none, or it is the last. -/
def StaysInSecond (t : Instant) : Prop :=
  t.nanos < 1000000000 ∨ t.InLastLeapSecond

theorem staysInSecond_truncate (t : Instant) : t.truncate.StaysInSecond := by
  by_cases h : t.InLastLeapSecond
  · exact Or.inr ((truncate_of_inLastLeapSecond h).symm ▸ h)
  · exact Or.inl (nanos_lt_of_ofMillis? (ofMillis?_of_not_inLastLeapSecond h))

/-- Times that stay in their seconds are in the order of their nanoseconds. -/
theorem compare_eq_compare_elapsed (h : t.StaysInSecond) (h' : t'.StaysInSecond) :
    compare t t' = compare t.elapsed t'.elapsed := by
  have hend := t.seconds_le
  have hend' := t'.seconds_le
  unfold StaysInSecond InLastLeapSecond at h h'
  change (compare t.seconds t'.seconds).then (compare t.nanos t'.nanos) = _
  rcases Int.lt_trichotomy t.seconds t'.seconds with hlt | heq | hgt
  · have helapsed : t.elapsed < t'.elapsed := by
      unfold elapsed
      omega
    rw [compare_lt_iff_lt.2 hlt, compare_lt_iff_lt.2 helapsed]
    rfl
  · rw [compare_eq_iff_eq.2 heq]
    apply compare_eq_compare_of_lt_iff <;> unfold elapsed <;> omega
  · have helapsed : t'.elapsed < t.elapsed := by
      unfold elapsed
      omega
    rw [compare_gt_iff_gt.2 hgt, compare_gt_iff_gt.2 helapsed]
    rfl

/-- Times that are cut to the millisecond compare as their milliseconds.  Two times in the last
leap second are not cut, and compare to the nanosecond. -/
theorem compare_truncate (t t' : Instant) :
    compare t.truncate t'.truncate =
      if t.InLastLeapSecond ∧ t'.InLastLeapSecond then compare t.nanos t'.nanos
      else compare (t.elapsed / 1000000) (t'.elapsed / 1000000) := by
  rw [compare_eq_compare_elapsed t.staysInSecond_truncate t'.staysInSecond_truncate,
    elapsed_truncate, elapsed_truncate]
  by_cases hlast : t.InLastLeapSecond ∧ t'.InLastLeapSecond
  · have hseconds := hlast.1.1.trans hlast.2.1.symm
    rw [if_pos hlast, if_pos hlast.1, if_pos hlast.2]
    apply compare_eq_compare_of_lt_iff <;> unfold elapsed <;> omega
  · rw [if_neg hlast]
    simp only [inLastLeapSecond_iff] at hlast ⊢
    apply compare_eq_compare_of_lt_iff <;> split <;> split <;> omega

end Instant

namespace DateCursor

/-- The cursor of a time and an id is read back from its text exactly when the time is not in
the last leap second; there its milliseconds lie outside the range of times, and the text is
refused.  Cursors of times compare as the milliseconds of the times, rounded down, and then as
the ids, except that two times in the last leap second compare to the nanosecond. -/
theorem ofInstant_read_back_iff (t : Instant) (id : String) :
    (parse (some (toString (ofInstant t id))) = .ok (some (ofInstant t id)) ↔
      ¬ t.InLastLeapSecond) ∧
    (t.InLastLeapSecond → parse (some (toString (ofInstant t id))) =
      .error (.malformed (toString (ofInstant t id)) .dateOutOfRange)) ∧
    ∀ t' id', compare (ofInstant t id) (ofInstant t' id') =
      (if t.InLastLeapSecond ∧ t'.InLastLeapSecond then compare t.nanos t'.nanos
        else compare (t.elapsed / 1000000) (t'.elapsed / 1000000)).then (compare id id') := by
  have hrefused (h : t.InLastLeapSecond) : parse (some (toString (ofInstant t id))) =
      .error (.malformed (toString (ofInstant t id)) .dateOutOfRange) := by
    have hmillis : (ofInstant t id).millis = t.millis :=
      congrArg Instant.millis (Instant.truncate_of_inLastLeapSecond h)
    rw [parse_toString, hmillis, Instant.ofMillis?_eq_none_iff_inLastLeapSecond.2 h]
  refine ⟨⟨?_, ?_⟩, hrefused, ?_⟩
  · intro hread h
    cases hread.symm.trans (hrefused h)
  · intro h
    have hcut := Instant.ofMillis?_of_not_inLastLeapSecond h
    have hmillis : (ofInstant t id).millis = t.millis := Instant.millis_of_ofMillis? hcut
    rw [parse_toString, hmillis, hcut]
    rfl
  · intro t' id'
    change (compare t.truncate t'.truncate).then _ = _
    rw [Instant.compare_truncate]
    rfl

end DateCursor

namespace Sample

open DateCursor

/-- A time in the leap second at the end of the calendar. -/
def lastLeap (nanos : Nat) (h : nanos < 1000000000 := by decide) : Instant :=
  ⟨8210266876799, 1000000000 + nanos, by decide, by decide, by omega, fun _ => by decide⟩

/-- The last nanosecond before 1970. -/
def beforeEpoch : Instant :=
  ⟨-1, 999999999, by decide, by decide, by decide, by decide⟩

/-- A time before 1970 is rounded down and read back.  In the last leap second the text is
refused, and cursors of one millisecond are not in the order of their ids. -/
theorem last_leap_refused :
    parse (some "-1_x") = .ok (some (ofInstant beforeEpoch "x")) ∧
    parse (some "8210266876800500_b") =
      .error (.malformed "8210266876800500_b" .dateOutOfRange) ∧
    (lastLeap 500000000).elapsed / 1000000 = (lastLeap 500000001).elapsed / 1000000 ∧
      compare (ofInstant (lastLeap 500000000) "b") (ofInstant (lastLeap 500000001) "a") = .lt := by
  obtain ⟨hread, -, -⟩ := ofInstant_read_back_iff beforeEpoch "x"
  obtain ⟨-, hrefused, hcompare⟩ := ofInstant_read_back_iff (lastLeap 500000000) "b"
  have hbefore : ¬ beforeEpoch.InLastLeapSecond := by decide
  have hlast : (lastLeap 500000000).InLastLeapSecond := by decide
  have horder := hcompare (lastLeap 500000001) "a"
  rw [if_pos ⟨hlast, by decide⟩] at horder
  exact ⟨hread.2 hbefore, hrefused hlast, by decide, horder.trans (by decide)⟩

end Sample

end MergedPaging
