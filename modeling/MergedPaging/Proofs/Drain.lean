/-
Draining static sources.  Every page takes the first rows off all that was pending, in
merge order, and the bookmark that it hands out stands for exactly the rest.  Following
the continuations therefore delivers the pending rows once and in order, on as few
pages as hold them.
-/
import MergedPaging.Proofs.Request
import Mathlib.Algebra.Order.Floor.Div

namespace MergedPaging

namespace Gateway

open Merge

variable {m : Type → Type} [Monad m] {α : Type} [Sortable α]
  {g : Gateway m α} {backends : List (StaticSource α)} {n : Nat} {request : PageRequest}
  {b : Bookmark}

/-- The request after a page has the same plan, from the bookmark of that page on. -/
theorem plan_round (haligned : g.merge.Aligned backends)
    (htext : ∀ s ∈ backends, ∀ row ∈ s.entities, s.order.Carries row) (hn : 1 ≤ n)
    (hplan : g.plan request = .ok ⟨n, b, backends.map StaticSource.toSource⟩) :
    g.plan { request with
        continuation := some (toString (g.merge.round backends b n allUp).bookmark) } =
      .ok ⟨n, (g.merge.round backends b n allUp).bookmark,
        backends.map StaticSource.toSource⟩ := by
  have hb : b.isWireSafe = true := isWireSafe_of_plan hplan
  exact plan_next hplan (haligned.isWireSafe_round hb hn allUp htext)
    (cursorError?_round haligned hb (cursorError?_of_plan hplan) hn allUp
      fun s hs row hrow => (htext s hs row hrow).restores)

variable [LawfulMonad m]

/-- A page that holds all that is pending is the last. -/
theorem follow_of_length_le (haligned : g.merge.Aligned backends)
    (htext : ∀ s ∈ backends, ∀ row ∈ s.entities, s.order.Carries row) (hn : 1 ≤ n)
    (hplan : g.plan request = .ok ⟨n, b, backends.map StaticSource.toSource⟩)
    (hshort : (g.merge.stream backends b).length ≤ n) (pages : Nat) :
    g.follow request (pages + 1) =
      pure (some ((g.merge.stream backends b).map Prod.snd)) := by
  have hb : b.isWireSafe = true := isWireSafe_of_plan hplan
  have hlast : (g.merge.round backends b n allUp).page.continuation = none := by
    rw [continuation_round, if_pos ((haligned.allCompleted_round_iff hb hn).2 hshort)]
  rw [follow, fetchPage, fetch_eq_round hplan rfl haligned.order
    (haligned.isWireSafe_round hb hn allUp htext), map_pure, pure_bind]
  simp only [hlast, haligned.entities_round_allUp hb hn, List.take_of_length_le hshort]

/-- Any other page holds the first `n` rows, and the next request goes on behind it. -/
theorem follow_of_lt_length (haligned : g.merge.Aligned backends)
    (htext : ∀ s ∈ backends, ∀ row ∈ s.entities, s.order.Carries row) (hn : 1 ≤ n)
    (hplan : g.plan request = .ok ⟨n, b, backends.map StaticSource.toSource⟩)
    (hlong : n < (g.merge.stream backends b).length) (pages : Nat) :
    g.follow request (pages + 1) =
      Option.map (((g.merge.stream backends b).take n).map Prod.snd ++ ·) <$>
        g.follow { request with
          continuation := some (toString (g.merge.round backends b n allUp).bookmark) } pages := by
  have hb : b.isWireSafe = true := isWireSafe_of_plan hplan
  have hnext : (g.merge.round backends b n allUp).page.continuation =
      some (toString (g.merge.round backends b n allUp).bookmark) := by
    rw [continuation_round, if_neg fun hall =>
      absurd ((haligned.allCompleted_round_iff hb hn).1 hall) (Nat.not_le.2 hlong)]
  rw [follow, fetchPage, fetch_eq_round hplan rfl haligned.order
    (haligned.isWireSafe_round hb hn allUp htext), map_pure, pure_bind]
  simp only [hnext, haligned.entities_round_allUp hb hn, bind_pure_comp]

/-- Following continuations delivers all that is pending, in merge order, if the pages
can hold it. -/
theorem follow_eq (hserves : g.merge.Serves backends)
    (htext : ∀ s ∈ backends, ∀ row ∈ s.entities, s.order.Carries row) (hn : 1 ≤ n)
    (hplan : g.plan request = .ok ⟨n, b, backends.map StaticSource.toSource⟩) (pages : Nat) :
    g.follow request pages =
      pure (if 1 ≤ pages ∧ (g.merge.stream backends b).length ≤ n * pages then
        some ((g.merge.stream backends b).map Prod.snd) else none) := by
  induction pages generalizing request b with
  | zero =>
      rw [if_neg fun h => absurd h.1 (by omega)]
      rfl
  | succ pages ih =>
      by_cases hshort : (g.merge.stream backends b).length ≤ n
      · rw [follow_of_length_le hserves.toAligned htext hn hplan hshort, if_pos]
        exact ⟨by omega, hshort.trans (Nat.le_mul_of_pos_right n (by omega))⟩
      · have hb : b.isWireSafe = true := isWireSafe_of_plan hplan
        have hrest := hserves.stream_of_pending fun s hs =>
          hserves.pending_round hb hn hs (hserves.keepsPlace_of_carries htext hs)
        have hpages : (1 ≤ pages ∧
            ((g.merge.stream backends b).drop n).length ≤ n * pages) ↔
              (1 ≤ pages + 1 ∧
                (g.merge.stream backends b).length ≤ n * (pages + 1)) := by
          rw [List.length_drop, Nat.mul_add, Nat.mul_one]
          cases pages with
          | zero => omega
          | succ pages => omega
        rw [follow_of_lt_length hserves.toAligned htext hn hplan (by omega),
          ih (plan_round hserves.toAligned htext hn hplan), hrest, map_pure]
        simp only [hpages, apply_ite (Option.map _), Option.map_some, Option.map_none,
          ← List.map_append, List.take_append_drop]

/-- A drain of static sources whose rows the two orders agree on and tell apart, and
whose cursors a bookmark can carry, delivers exactly the rows that are outstanding after
the bookmark of the request, sorted by the merge order and then by source.  It fails
only when these need more pages than the settings allow. -/
theorem drain_eq_inOrder (hconfig : g.config.check = .ok ())
    (hplan : g.plan request = .ok ⟨n, b, backends.map StaticSource.toSource⟩)
    (horder : ∀ s ∈ backends, s.order = g.merge.sourceOrder)
    (hrows : ∀ s ∈ backends, s.entities.Pairwise g.merge.Separates)
    (htext : ∀ s ∈ backends, ∀ row ∈ s.entities, s.order.Carries row) :
    g.drain request =
      if max 1 ((outstanding backends b).length ⌈/⌉ n) ≤ g.config.paging.maxDrainPages then
        pure ((g.merge.inOrder (outstanding backends b)).map Prod.snd)
      else throw (.drainLimit g.config.paging.maxDrainPages) := by
  have hn : 1 ≤ n := one_le_size hconfig (plan_eq_ok_iff.1 hplan).1
  have hserves := serves_of_participants (fun s => s.id_toSource) (plan_eq_ok_iff.1 hplan).2.2
    horder hrows
  have hpages : (1 ≤ g.config.paging.maxDrainPages ∧
      (g.merge.stream backends b).length ≤ n * g.config.paging.maxDrainPages) ↔
        max 1 ((outstanding backends b).length ⌈/⌉ n) ≤ g.config.paging.maxDrainPages := by
    rw [length_stream, max_le_iff, ceilDiv_le_iff_le_mul hn]
  rw [drain, follow_eq hserves htext hn hplan, pure_bind]
  simp only [hpages]
  by_cases hfit : max 1 ((outstanding backends b).length ⌈/⌉ n) ≤ g.config.paging.maxDrainPages
  · simp only [if_pos hfit]
    rfl
  · simp only [if_neg hfit]

end Gateway

namespace Sample

open Gateway in
/-- Two pages of at most two rows each drain three rows. -/
theorem drain_east_west :
    (gateway byTime .abort east.toSource west.toSource).drain { size := some 2 } =
      (pure [item "1" 1, item "2" 2, item "3" 3] : ExceptT GatewayError Id (List Item)) := by
  have hplan : (gateway byTime .abort east.toSource west.toSource : Gateway Id Item).plan
      { size := some 2 } = .ok ⟨2, .empty, [east, west].map StaticSource.toSource⟩ := by rfl
  rw [drain_eq_inOrder (by rfl) hplan (by decide) (by decide) (by decide)]
  cbv

end Sample

end MergedPaging
