/-
The rules of a merge, stated without the way in which it sorts and counts.  The page holds
the best of all that the open sources offer; the rest has lost.  What becomes of a source
depends on its winners and its losers alone.
-/
import MergedPaging.Proofs.BookmarkText
import MergedPaging.Proofs.Trimming

namespace MergedPaging

open Std

variable {α : Type}

namespace SourcePage

theorem requested_eq_completed_iff {p : SourcePage α} :
    p.requested = some .completed ↔ p.requestedContinuation = some Progress.completedMark := by
  constructor
  · intro h
    rw [requested] at h
    cases hcontinuation : p.requestedContinuation with
    | none =>
        rw [hcontinuation] at h
        cases h
    | some cursor =>
        rw [hcontinuation] at h
        exact congrArg some (Progress.ofRequested_eq_some h).1.symm
  · intro h
    rw [requested, h]
    rfl

theorem requested_ne_active_empty (p : SourcePage α) : p.requested ≠ some (.active "") := by
  intro h
  rw [requested] at h
  cases hcontinuation : p.requestedContinuation with
  | none =>
      rw [hcontinuation] at h
      cases h
  | some cursor =>
      rw [hcontinuation] at h
      exact (Progress.ofRequested_eq_some h).2.2 rfl

end SourcePage

namespace Merge

/-- Everything that the sources offer that were not asked for as finished, each entity with
the id of its source. -/
def offered (pages : List (SourcePage α)) : List (String × α) :=
  (pages.filter fun p => p.requestedContinuation ≠ some Progress.completedMark).flatMap
    fun p => p.page.entities.map (p.sourceId, ·)

theorem pool_eq_offered (pages : List (SourcePage α)) : pool pages = offered pages := by
  induction pages with
  | nil => rfl
  | cons p pages ih =>
      rw [pool] at ih
      rw [pool, offered, List.flatMap_cons, ih, offered]
      by_cases hcompleted : p.requestedContinuation = some Progress.completedMark
      · simp [SourcePage.supplied, SourcePage.isCompleted, hcompleted]
      · simp [SourcePage.supplied, SourcePage.isCompleted, hcompleted]

variable [Sortable α]

/-- Some offers win a page of `n` and the others lose: the winners are in order, and none of
the losers belongs before one of them. -/
structure Picks (m : Merge) (offers : List (String × α)) (n : Nat)
    (winners losers : List (String × α)) : Prop where
  perm : (winners ++ losers).Perm offers
  length : winners.length = min n offers.length
  sorted : winners.Pairwise fun a b => (m.rank a b).isLE
  best : ∀ winner ∈ winners, ∀ loser ∈ losers, (m.rank winner loser).isLE

/-- What becomes of a source.  It is finished when it was so before, or when its page was its
last and nothing of it has lost.  Otherwise it goes on behind its last winner, or from where
it stood if it has none; behind a winner with an empty text it counts as not touched. -/
structure Settles (m : Merge) (winners losers : List (String × α)) (p : SourcePage α)
    (state : Option Progress) : Prop where
  completed_iff : state = some .completed ↔
    p.requestedContinuation = some Progress.completedMark ∨
      (p.page.continuation = none ∧ won losers p.sourceId = [])
  kept : state ≠ some .completed → won winners p.sourceId = [] → state = p.requested
  advanced : state ≠ some .completed → ∀ last, (won winners p.sourceId).getLast? = some last →
    state = if m.sourceOrder.continuationOf last = "" then none
      else some (.active (m.sourceOrder.continuationOf last))

variable {m : Merge}

/-- The winners of a merge, and the offers behind them. -/
theorem picks_winners (m : Merge) (pages : List (SourcePage α)) (n : Nat) :
    m.Picks (offered pages) n (m.winners pages n) ((m.inOrder (pool pages)).drop n) := by
  have hall : m.winners pages n ++ (m.inOrder (pool pages)).drop n = m.inOrder (pool pages) :=
    List.take_append_drop n _
  have hsorted := m.pairwise_inOrder (pool pages)
  rw [← hall, List.pairwise_append] at hsorted
  rw [← pool_eq_offered]
  constructor
  · rw [hall]
    exact m.inOrder_perm _
  · rw [winners_eq, List.length_take, (m.inOrder_perm _).length_eq]
  · exact hsorted.1
  · exact hsorted.2.2

/-- The winners and the losers of a source are all that it supplied. -/
theorem length_won_add_length_lost {pages : List (SourcePage α)}
    (hids : (pages.map (·.sourceId)).Nodup) {p : SourcePage α} (hp : p ∈ pages) (n : Nat) :
    (won (m.winners pages n) p.sourceId).length +
      (won ((m.inOrder (pool pages)).drop n) p.sourceId).length = p.supplied.length := by
  have hsplit := won_append (m.winners pages n) ((m.inOrder (pool pages)).drop n) p.sourceId
  rw [winners_eq, List.take_append_drop, won_inOrder, won_pool hids hp] at hsplit
  rw [winners_eq, ← List.length_append, ← hsplit, (sortBy_perm p.supplied).length_eq]

/-- A source is finished exactly when it was so before, or when its page was its last and it
won all that it supplied. -/
theorem advance_eq_completed_iff {p : SourcePage α} {won : List α}
    (hwon : won.length ≤ p.supplied.length) :
    m.advance p won = some .completed ↔
      p.requestedContinuation = some Progress.completedMark ∨
        (p.page.continuation = none ∧ won.length = p.supplied.length) := by
  have hexhausted : p.page.isExhausted = true ↔ p.page.continuation = none :=
    Option.isNone_iff_eq_none
  rw [advance]
  cases hlast : won.getLast? with
  | none =>
      obtain rfl := List.getLast?_eq_none_iff.1 hlast
      have hnone : p.supplied.isEmpty = true ↔ 0 = p.supplied.length := by
        rw [List.isEmpty_iff_length_eq_zero, eq_comm]
      by_cases hdone : (p.supplied.isEmpty && p.page.isExhausted) = true
      · rw [Bool.and_eq_true, hnone, hexhausted] at hdone
        simp [hdone.1, hdone.2, hnone, hexhausted]
      · rw [if_neg hdone, SourcePage.requested_eq_completed_iff]
        rw [Bool.and_eq_true, hnone, hexhausted, and_comm] at hdone
        exact (or_iff_left hdone).symm
  | some last =>
      have hpos : 0 < won.length := List.length_pos_of_mem (List.mem_of_getLast? hlast)
      have hopen : p.requestedContinuation ≠ some Progress.completedMark := by
        intro hcompleted
        have hnothing : p.supplied = [] := by
          simp [SourcePage.supplied, SourcePage.isCompleted, hcompleted]
        rw [hnothing, List.length_nil] at hwon
        omega
      by_cases hall : won.length = p.supplied.length <;>
        by_cases hend : p.page.continuation = none <;>
          simp [hall, hend, hopen, Page.isExhausted]

/-- A source that is not finished keeps the progress that it was asked with if it wins
nothing, and otherwise goes on behind its last winner. -/
theorem advance_of_ne_completed {p : SourcePage α} {won : List α}
    (hopen : m.advance p won ≠ some .completed) :
    m.advance p won =
      match won.getLast? with
      | none => p.requested
      | some last => some (.active (m.sourceOrder.continuationOf last)) := by
  rw [advance] at hopen ⊢
  cases hlast : won.getLast? with
  | none =>
      rw [hlast] at hopen
      exact if_neg fun hdone => hopen (if_pos hdone)
  | some last =>
      rw [hlast] at hopen
      exact if_neg fun hdone => hopen (if_pos hdone)

/-- The bookmark after a merge settles every source. -/
theorem settles_state {pages : List (SourcePage α)} (hids : (pages.map (·.sourceId)).Nodup)
    {p : SourcePage α} (hp : p ∈ pages) (n : Nat) :
    m.Settles (m.winners pages n) ((m.inOrder (pool pages)).drop n) p
      ((m.merge pages n).bookmark.state p.sourceId) := by
  have hstate : (m.merge pages n).bookmark.state p.sourceId =
      (m.advance p (won (m.winners pages n) p.sourceId)).filter (· ≠ .active "") :=
    state_bookmark hids _ hp
  have hlength := length_won_add_length_lost (m := m) hids hp n
  have hcompleted : (m.merge pages n).bookmark.state p.sourceId = some .completed ↔
      m.advance p (won (m.winners pages n) p.sourceId) = some .completed := by
    rw [hstate, Option.filter_eq_some_iff]
    simp
  constructor
  · rw [hcompleted, advance_eq_completed_iff (by omega), ← List.length_eq_zero_iff]
    apply or_congr_right
    apply and_congr_right
    intro _
    omega
  · intro hopen hnone
    rw [hstate, advance_of_ne_completed (mt hcompleted.2 hopen), hnone]
    have hne := p.requested_ne_active_empty
    change p.requested.filter (· ≠ .active "") = p.requested
    cases hrequested : p.requested with
    | none => rfl
    | some state =>
        rw [hrequested] at hne
        exact Option.filter_some_pos (by simpa using hne)
  · intro hopen last hlast
    rw [hstate, advance_of_ne_completed (mt hcompleted.2 hopen), hlast]
    by_cases hempty : m.sourceOrder.continuationOf last = ""
    · simp [hempty]
    · simp [hempty]

/-- A merged page goes on as long as one source is not finished. -/
theorem continuation_merge_eq_none_iff {pages : List (SourcePage α)} {n : Nat} :
    (m.merge pages n).page.continuation = none ↔
      ∀ p ∈ pages, (m.merge pages n).bookmark.state p.sourceId = some .completed := by
  change (if _ then none else some _) = none ↔ _
  rw [ite_eq_left_iff]
  simp [Bookmark.allCompleted, Bookmark.isCompleted, merge]

/-- A merge of any pages, under ids of their own, puts the best of what is offered on a page
of at most `n` and settles every source by its winners and its losers.  The page has no
continuation exactly when every source is finished. -/
theorem merge_obeys_rules (m : Merge) {pages : List (SourcePage α)}
    (hids : (pages.map (·.sourceId)).Nodup) (n : Nat) :
    ∃ winners losers, m.Picks (offered pages) n winners losers ∧
      (m.merge pages n).page.entities = winners.map Prod.snd ∧
      (∀ p ∈ pages, m.Settles winners losers p
        ((m.merge pages n).bookmark.state p.sourceId)) ∧
      ((m.merge pages n).page.continuation = none ↔
        ∀ p ∈ pages, (m.merge pages n).bookmark.state p.sourceId = some .completed) := by
  refine ⟨m.winners pages n, (m.inOrder (pool pages)).drop n, m.picks_winners pages n, rfl,
    ?_, continuation_merge_eq_none_iff⟩
  intro p hp
  exact settles_state hids hp n

end Merge

namespace Sample

/-- Five sources: one that was finished before and still offers an item, one with more to
come, one with nothing, one that loses, and one that is used up. -/
def round : List (SourcePage Item) :=
  [⟨"drained", some "COMPLETED", ⟨none, [item "0" 0]⟩⟩,
    ⟨"east", some "0_x", ⟨some "5000_5", [item "3" 3, item "1" 1]⟩⟩,
    ⟨"north", none, ⟨none, []⟩⟩,
    ⟨"south", some "1_y", ⟨none, [item "9" 9]⟩⟩,
    ⟨"west", none, ⟨none, [item "1" 1]⟩⟩]

open Merge in
theorem round_obeys_rules :
    toString ((single ⟨.updated, .asc⟩).merge round 2).bookmark =
        "drained:COMPLETED;east:1000_1;north:COMPLETED;south:1_y;west:COMPLETED" ∧
      ∃ winners losers, (single ⟨.updated, .asc⟩).Picks (offered round) 2 winners losers ∧
        ((single ⟨.updated, .asc⟩).merge round 2).page.entities = winners.map Prod.snd ∧
        (∀ p ∈ round, (single ⟨.updated, .asc⟩).Settles winners losers p
          (((single ⟨.updated, .asc⟩).merge round 2).bookmark.state p.sourceId)) ∧
        (((single ⟨.updated, .asc⟩).merge round 2).page.continuation = none ↔
          ∀ p ∈ round, ((single ⟨.updated, .asc⟩).merge round 2).bookmark.state p.sourceId =
            some .completed) := by
  constructor
  · cbv
  · exact merge_obeys_rules (single ⟨.updated, .asc⟩) (by decide) 2

end Sample

end MergedPaging
