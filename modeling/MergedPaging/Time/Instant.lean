/-
Points in time, to the nanosecond, over the years -262143 to 262142.  A leap second
is counted as part of the second before it, with 10^9 nanoseconds and more.
-/

namespace MergedPaging

/-- Seconds since 1970-01-01T00:00:00Z and the nanoseconds that have passed since. -/
structure Instant where
  seconds : Int
  nanos : Nat
  seconds_ge : -8334601228800 ≤ seconds
  seconds_le : seconds ≤ 8210266876799
  nanos_lt : nanos < 2000000000
  leap : 1000000000 ≤ nanos → seconds % 60 = 59
  deriving DecidableEq

namespace Instant

/-- The point in time with these parts, if there is one. -/
def of? (seconds : Int) (nanos : Nat) : Option Instant :=
  if h : -8334601228800 ≤ seconds ∧ seconds ≤ 8210266876799 ∧ nanos < 2000000000 ∧
      (1000000000 ≤ nanos → seconds % 60 = 59) then
    some ⟨seconds, nanos, h.1, h.2.1, h.2.2.1, h.2.2.2⟩
  else none

/-- The time so many milliseconds after (or, negative, before) 1970, if it is in range. -/
def ofMillis? (millis : Int) : Option Instant :=
  of? (millis / 1000) ((millis % 1000).toNat * 1000000)

/-- The milliseconds since 1970, rounded down; those of a leap second run on into the
second after it. -/
def millis (t : Instant) : Int :=
  t.seconds * 1000 + (t.nanos / 1000000 : Nat)

instance : Ord Instant where
  compare a b := (compare a.seconds b.seconds).then (compare a.nanos b.nanos)

/-- The time to the millisecond.  A leap second's milliseconds may lie beyond the last
second there is; then the time stays as it is. -/
def truncate (t : Instant) : Instant :=
  (ofMillis? t.millis).getD t

theorem millis_of_ofMillis? {m : Int} {t : Instant} (h : ofMillis? m = some t) : t.millis = m := by
  unfold ofMillis? of? at h
  split at h
  · simp only [Option.some.injEq] at h
    subst h
    simp only [millis]
    omega
  · simp at h

theorem ofMillis?_eq_none_iff {m : Int} :
    ofMillis? m = none ↔ m < -8334601228800000 ∨ 8210266876799999 < m := by
  unfold ofMillis? of?
  split
  · simp only [reduceCtorEq, false_iff]
    omega
  · rename_i h
    simp only [true_iff]
    refine Classical.byContradiction fun hin => h ⟨?_, ?_, ?_, ?_⟩ <;> omega

end Instant

end MergedPaging
