/-
Rows that an order does not tell apart.  A source goes on strictly after the last row that
it delivered, so a row equal to that one is passed over when a page ends between them.
Nothing else is lost, nothing comes twice, and no further page is needed.
-/
import MergedPaging.Proofs.Drain

namespace MergedPaging

namespace Merge

open Std

variable {α : Type} [Sortable α]

/-- An offer is strictly after the last row that its source has on a page. -/
def resumes (m : Merge) (page : List (String × α)) (offer : String × α) : Bool :=
  m.sourceOrder.follows (won page offer.1) offer.2

/-- Some rows cover others when they are among them, in the same sequence, and each row left
out is equal, in the source order, to one of them from its own source. -/
structure Covers (m : Merge) (all rows : List (String × α)) : Prop where
  sublist : rows.Sublist all
  equal : ∀ x ∈ all, ∃ y ∈ rows, y.1 = x.1 ∧ m.sourceOrder.compare x.2 y.2 = .eq

theorem covers_refl (m : Merge) (rows : List (String × α)) : m.Covers rows rows where
  sublist := List.Sublist.refl rows
  equal x hx := ⟨x, hx, rfl, ReflCmp.compare_self⟩

variable {m : Merge} {backends : List (StaticSource α)} {b : Bookmark} {n : Nat}

/-- Behind a page, a source has pending what is strictly after its last row on it. -/
theorem Aligned.pending_round_eq_filter (haligned : m.Aligned backends)
    (hb : b.isWireSafe = true) (hn : 1 ≤ n) {down : String → Bool} {s : StaticSource α}
    (hs : s ∈ backends) (hplace : m.KeepsPlace backends b n down s) :
    s.pending ((m.round backends b n down).bookmark.state s.id) =
      ((s.pending (b.state s.id)).drop (m.taken backends b n down s).length).filter
        (s.order.follows (m.taken backends b n down s)) := by
  rw [haligned.state_round_of_keepsPlace hb hn hs hplace,
    StaticSource.pending_next_eq_filter (haligned.taken_isPrefix hs b down n) hplace]

/-- The bookmark behind a page stands for the rest of the stream, less the rows that are
passed over. -/
theorem Aligned.stream_round (haligned : m.Aligned backends) (hb : b.isWireSafe = true)
    (hn : 1 ≤ n) (hplace : ∀ s ∈ backends, m.KeepsPlace backends b n allUp s) :
    m.stream backends (m.round backends b n allUp).bookmark =
      ((m.stream backends b).drop n).filter (m.resumes ((m.stream backends b).take n)) := by
  have hordered := (m.pairwise_stream backends b).sublist (List.drop_sublist n _)
  apply eq_of_won (m.pairwise_stream _ _) (hordered.sublist List.filter_sublist)
  intro id
  rw [won_filter, won_drop]
  by_cases hid : id ∈ backends.map (·.id)
  · obtain ⟨s, hs, rfl⟩ := List.mem_map.1 hid
    rw [haligned.won_stream hs, haligned.won_stream hs,
      haligned.pending_round_eq_filter hb hn hs (hplace s hs), haligned.order s hs]
    rfl
  · rw [won_stream_of_notMem hid, won_stream_of_notMem hid, List.drop_nil, List.filter_nil]

theorem exists_source_of_mem_stream {id : String} {row : α}
    (h : (id, row) ∈ m.stream backends b) : ∃ s ∈ backends, s.id = id := by
  rw [stream, (m.inOrder_perm _).mem_iff, outstanding, List.mem_flatMap] at h
  obtain ⟨s, hs, hrow⟩ := h
  obtain ⟨_, -, heq⟩ := List.mem_map.1 hrow
  exact ⟨s, hs, congrArg Prod.fst heq⟩

/-- A row that is passed over is equal to the last row of its source on the page. -/
theorem Aligned.exists_equal_of_not_resumes (haligned : m.Aligned backends) {x : String × α}
    (hx : x ∈ (m.stream backends b).drop n)
    (hpassed : ¬ m.resumes ((m.stream backends b).take n) x = true) :
    ∃ y ∈ (m.stream backends b).take n, y.1 = x.1 ∧ m.sourceOrder.compare x.2 y.2 = .eq := by
  obtain ⟨id, row⟩ := x
  obtain ⟨last, hlast, hgt⟩ : ∃ last, (won ((m.stream backends b).take n) id).getLast? = some last ∧
      m.sourceOrder.compare row last ≠ .gt := by
    rw [resumes, SortOrder.follows] at hpassed
    cases hlast : (won ((m.stream backends b).take n) id).getLast? with
    | none => simp [hlast] at hpassed
    | some last => exact ⟨last, rfl, by simpa [hlast] using hpassed⟩
  have hwon := List.mem_of_getLast? hlast
  obtain ⟨s, hs, rfl⟩ := exists_source_of_mem_stream (List.mem_of_mem_drop hx)
  have hsplit : won ((m.stream backends b).take n) s.id ++
      won ((m.stream backends b).drop n) s.id = s.pending (b.state s.id) := by
    rw [← won_append, List.take_append_drop, haligned.won_stream hs]
  have hsorted := s.pairwise_pending (b.state s.id)
  rw [← hsplit, haligned.order s hs] at hsorted
  have hle := (List.pairwise_append.1 hsorted).2.2 last hwon row (mem_won_iff.2 hx)
  exact ⟨(s.id, last), mem_won_iff.1 hwon, rfl, (gt_or_eq_of_isLE hle).resolve_left hgt⟩

/-- A page, and what covers the rows pending behind it, cover the whole stream. -/
theorem Aligned.covers_append (haligned : m.Aligned backends) {rows : List (String × α)}
    (hrows : m.Covers (((m.stream backends b).drop n).filter
      (m.resumes ((m.stream backends b).take n))) rows) :
    m.Covers (m.stream backends b) ((m.stream backends b).take n ++ rows) where
  sublist := by
    have hsub := (hrows.sublist.trans List.filter_sublist).append_left
      ((m.stream backends b).take n)
    rwa [List.take_append_drop] at hsub
  equal := by
    intro x hx
    rw [← List.take_append_drop n (m.stream backends b), List.mem_append] at hx
    rcases hx with hpage | hrest
    · exact ⟨x, List.mem_append_left _ hpage, rfl, ReflCmp.compare_self⟩
    · by_cases hresumes : m.resumes ((m.stream backends b).take n) x = true
      · obtain ⟨y, hy, hequal⟩ := hrows.equal x (List.mem_filter.2 ⟨hrest, hresumes⟩)
        exact ⟨y, List.mem_append_right _ hy, hequal⟩
      · obtain ⟨y, hy, hequal⟩ := haligned.exists_equal_of_not_resumes hrest hresumes
        exact ⟨y, List.mem_append_left _ hy, hequal⟩

end Merge

namespace Gateway

open Merge

variable {m : Type → Type} [Monad m] [LawfulMonad m] {α : Type} [Sortable α]
  {g : Gateway m α} {backends : List (StaticSource α)} {n : Nat} {request : PageRequest}
  {b : Bookmark}

/-- Following continuations delivers rows that cover the stream, on no more pages than its
length calls for. -/
theorem exists_follow_eq (haligned : g.merge.Aligned backends)
    (htext : ∀ s ∈ backends, ∀ row ∈ s.entities, s.order.Carries row) (hn : 1 ≤ n)
    (hplan : g.plan request = .ok ⟨n, b, backends.map StaticSource.toSource⟩) {pages : Nat}
    (hpages : (g.merge.stream backends b).length ≤ n * (pages + 1)) :
    ∃ rows, g.follow request (pages + 1) = pure (some (rows.map Prod.snd)) ∧
      g.merge.Covers (g.merge.stream backends b) rows := by
  induction pages generalizing request b with
  | zero =>
      rw [Nat.zero_add, Nat.mul_one] at hpages
      exact ⟨_, follow_of_length_le haligned htext hn hplan hpages 0, g.merge.covers_refl _⟩
  | succ pages ih =>
      by_cases hshort : (g.merge.stream backends b).length ≤ n
      · exact ⟨_, follow_of_length_le haligned htext hn hplan hshort _, g.merge.covers_refl _⟩
      · have hb : b.isWireSafe = true := isWireSafe_of_plan hplan
        have hrest := haligned.stream_round hb hn fun s hs =>
          haligned.keepsPlace_of_carries htext hs
        have hfewer : (g.merge.stream backends
            (g.merge.round backends b n allUp).bookmark).length ≤ n * (pages + 1) := by
          have hfilter := List.length_filter_le
            (g.merge.resumes ((g.merge.stream backends b).take n))
            ((g.merge.stream backends b).drop n)
          rw [List.length_drop] at hfilter
          rw [hrest]
          rw [Nat.mul_add n (pages + 1) 1] at hpages
          omega
        obtain ⟨rows, hfollow, hrows⟩ := ih (plan_round haligned htext hn hplan) hfewer
        refine ⟨(g.merge.stream backends b).take n ++ rows, ?_,
          haligned.covers_append (hrest ▸ hrows)⟩
        rw [follow_of_lt_length haligned htext hn hplan (by omega), hfollow, map_pure,
          Option.map_some, List.map_append]

/-- A drain of static sources on whose rows the two orders agree, equal rows included, and
whose cursors a bookmark can carry, succeeds within the pages that the outstanding rows call
for.  It delivers a part of these rows, in merge order and then by source, and every row
that it leaves out is equal to one of the same source that it delivers. -/
theorem drain_covers (hconfig : g.config.check = .ok ())
    (hplan : g.plan request = .ok ⟨n, b, backends.map StaticSource.toSource⟩)
    (horder : ∀ s ∈ backends, s.order = g.merge.sourceOrder)
    (hagrees : ∀ s ∈ backends, s.entities.Pairwise fun a b =>
      g.merge.sourceOrder.compare a b = g.merge.mergeOrder.compare a b)
    (htext : ∀ s ∈ backends, ∀ row ∈ s.entities, s.order.Carries row)
    (hpages : max 1 ((outstanding backends b).length ⌈/⌉ n) ≤ g.config.paging.maxDrainPages) :
    ∃ rows, g.drain request = pure (rows.map Prod.snd) ∧
      g.merge.Covers (g.merge.inOrder (outstanding backends b)) rows := by
  have hn : 1 ≤ n := one_le_size hconfig (plan_eq_ok_iff.1 hplan).1
  have haligned := aligned_of_participants (fun s => s.id_toSource)
    (plan_eq_ok_iff.1 hplan).2.2 horder hagrees
  obtain ⟨hfirst, hfit⟩ := max_le_iff.1 hpages
  rw [ceilDiv_le_iff_le_mul hn, ← length_stream g.merge] at hfit
  obtain ⟨pages, hlimit⟩ := Nat.exists_eq_add_of_le' hfirst
  rw [hlimit] at hfit
  obtain ⟨rows, hfollow, hrows⟩ := exists_follow_eq haligned htext hn hplan hfit
  refine ⟨rows, ?_, hrows⟩
  rw [drain, hlimit, hfollow, pure_bind]

end Gateway

namespace Sample

/-- A source with two rows at one position. -/
def twins : StaticSource Item :=
  source "east" byTime [item "1" 1, { item "1" 1 with supply := 2 }, item "3" 3] east_isWireSafe

open Gateway Merge in
/-- On pages of one row the first of the twins stands for both. -/
theorem drain_twins :
    ∃ rows, rows.map Prod.snd = [item "1" 1, item "2" 2, item "3" 3] ∧
      (gateway byTime .abort twins.toSource west.toSource).drain { size := some 1 } =
        (pure (rows.map Prod.snd) : ExceptT GatewayError Id (List Item)) ∧
      (Merge.single byTime).Covers
        ((Merge.single byTime).inOrder (outstanding [twins, west] .empty)) rows := by
  have hplan : (gateway byTime .abort twins.toSource west.toSource : Gateway Id Item).plan
      { size := some 1 } = .ok ⟨1, .empty, [twins, west].map StaticSource.toSource⟩ := by rfl
  have hdrain : (gateway byTime .abort twins.toSource west.toSource).drain { size := some 1 } =
      (pure [item "1" 1, item "2" 2, item "3" 3] : ExceptT GatewayError Id (List Item)) := by
    cbv
  obtain ⟨rows, hrows, hcovers⟩ :=
    drain_covers (by rfl) hplan (by decide) (by decide) (by decide) (by decide)
  exact ⟨rows, Except.ok.inj (hrows.symm.trans hdrain), hrows, hcovers⟩

end Sample

end MergedPaging
