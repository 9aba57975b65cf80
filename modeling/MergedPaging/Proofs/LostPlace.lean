/-
Where a drain goes wrong without an error.  A bookmark drops an empty cursor, so a
source whose last row on a page has the empty text, and which has more rows, counts as
untouched and starts over.  That is the only way to a wrong drain: cursors with a
separator, or spelled like the mark of a finished source, end in an error, and every
other cursor is read back as the position that it was written for.
-/
import MergedPaging.Proofs.CursorText
import MergedPaging.Proofs.Drain

namespace MergedPaging

open Std

variable {α : Type} [Sortable α]

namespace StaticSource

/-- A source loses its place behind the rows that it has won: the last of them has the
empty text, and the source has rows behind that one. -/
def LosesPlace (s : StaticSource α) (won : List α) : Prop :=
  ∃ last, won.getLast? = some last ∧ s.order.continuationOf last = "" ∧
    s.entities.getLast? ≠ some last

variable {s : StaticSource α} {state : Option Progress}

/-- A source has won all that was pending exactly when it has won its last row. -/
theorem length_eq_iff_getLast? (hrows : s.entities.Pairwise fun a b => s.order.compare a b ≠ .eq)
    {won : List α} (hwon : won <+: s.pending state) {last : α} (hlast : won.getLast? = some last) :
    won.length = (s.pending state).length ↔ s.entities.getLast? = some last := by
  obtain ⟨rest, hrest⟩ := hwon
  obtain ⟨front, hfront⟩ := s.pending_suffix state
  constructor
  · intro hlength
    have hall : won = s.pending state := by
      obtain rfl : rest = [] := by
        rw [← hrest, List.length_append] at hlength
        exact List.length_eq_zero_iff.1 (by omega)
      rw [← hrest, List.append_nil]
    rw [← hfront, List.getLast?_append, ← hall, hlast, Option.some_or]
  · intro hend
    rw [← hfront, ← hrest] at hend hrows
    rcases List.eq_nil_or_concat rest with rfl | ⟨rest, other, rfl⟩
    · rw [← hrest, List.append_nil]
    · rw [List.concat_eq_append, ← List.append_assoc, ← List.append_assoc,
        List.getLast?_concat] at hend
      obtain rfl : other = last := Option.some.inj hend
      obtain ⟨before, rfl⟩ := List.getLast?_eq_some_iff.1 hlast
      -- The last row of the source would stand in it twice.
      have htwice : ([other] ++ [other]).Sublist
          (front ++ (before ++ [other] ++ rest.concat other)) := by
        rw [List.concat_eq_append]
        exact ((List.sublist_append_right before _).append
          (List.sublist_append_right rest _)).trans (List.sublist_append_right front _)
      have hne := List.rel_of_pairwise_cons (hrows.sublist htwice) List.mem_cons_self
      exact absurd ReflCmp.compare_self hne

end StaticSource

namespace Gateway

open Merge

variable {g : Gateway Id α} {backends : List (StaticSource α)} {n : Nat} {request : PageRequest}
  {b : Bookmark}

/-- A source loses its place on one of the pages of `n` rows that the rows fill one after
the other. -/
def LosesPlace (backends : List (StaticSource α)) (n : Nat) (rows : List (String × α)) : Prop :=
  ∃ page, ∃ s ∈ backends, s.LosesPlace (won ((rows.drop (page * n)).take n) s.id)

/-- A page that was delivered was merged, and its bookmark could be carried. -/
theorem follow_succ_eq_ok (hplan : g.plan request = .ok ⟨n, b, backends.map StaticSource.toSource⟩)
    (horder : ∀ s ∈ backends, s.order = g.merge.sourceOrder) {pages : Nat} {list : List α}
    (h : (g.follow request (pages + 1)).run = .ok (some list)) :
    (g.merge.round backends b n allUp).bookmark.isWireSafe = true ∧
      match (g.merge.round backends b n allUp).page.continuation with
      | none => list = (g.merge.round backends b n allUp).page.entities
      | some next => ∃ rest,
          (g.follow { request with continuation := some next } pages).run = .ok (some rest) ∧
            list = (g.merge.round backends b n allUp).page.entities ++ rest := by
  rw [follow, fetchPage, fetch_eq_mergePages hplan rfl horder] at h
  cases hmerge : g.mergePages (answers backends b n allUp) n with
  | error error =>
      rw [hmerge] at h
      cases h
  | ok page =>
      obtain ⟨rfl, hsafe⟩ := mergePages_eq_ok_iff.1 hmerge
      refine ⟨hsafe, ?_⟩
      rw [hmerge] at h
      change (match (g.merge.round backends b n allUp).page.continuation with
        | none => pure (some (g.merge.round backends b n allUp).page.entities)
        | some next => do
          let rest ← g.follow { request with continuation := some next } pages
          return rest.map ((g.merge.round backends b n allUp).page.entities ++ ·) :
            ExceptT GatewayError Id _).run = _ at h
      cases hnext : (g.merge.round backends b n allUp).page.continuation with
      | none =>
          rw [hnext] at h
          cases h
          rfl
      | some next =>
          rw [hnext] at h
          cases hrest : (g.follow { request with continuation := some next } pages).run with
          | error error =>
              change (ExceptT.bindCont _
                (g.follow { request with continuation := some next } pages).run : Id _) = _ at h
              rw [hrest] at h
              cases h
          | ok rest =>
              change (ExceptT.bindCont _
                (g.follow { request with continuation := some next } pages).run : Id _) = _ at h
              rw [hrest] at h
              cases rest with
              | none => cases h
              | some rest =>
                  cases h
                  exact ⟨rest, hrest, rfl⟩

/-- A request that is answered after a page has the same plan, from the bookmark of that
page on. -/
theorem plan_of_follow (hplan : g.plan request = .ok ⟨n, b, backends.map StaticSource.toSource⟩)
    {b' : Bookmark} (hsafe : b'.isWireSafe = true) {pages : Nat} {result : Option (List α)}
    (h : (g.follow { request with continuation := some (toString b') } (pages + 1)).run =
      .ok result) :
    g.plan { request with continuation := some (toString b') } =
      .ok ⟨n, b', backends.map StaticSource.toSource⟩ := by
  cases hnext : g.plan { request with continuation := some (toString b') } with
  | error error =>
      rw [follow, fetchPage, fetch, hnext] at h
      cases h
  | ok plan =>
      have hcursor := cursorError?_of_plan hnext
      have hread := (readBookmark_eq_ok_iff.1 (plan_eq_ok_iff.1 hnext).2.1).1
      cases (Bookmark.parse_toString hsafe).symm.trans hread
      exact hnext.symm.trans (plan_next hplan hsafe hcursor)

section Step

variable (hserves : g.merge.Serves backends) (hb : b.isWireSafe = true) (hn : 1 ≤ n)
  {s : StaticSource α} (hs : s ∈ backends)

include hserves hb hn hs

/-- A source that does not lose its place on a page has pending what it did not win, if
the next request can read its cursor. -/
theorem pending_round_of_kept
    (hcursor : cursorError? g.merge.sourceOrder (g.merge.round backends b n allUp).bookmark = none)
    (hkept : ¬ s.LosesPlace (g.merge.taken backends b n allUp s)) :
    s.pending ((g.merge.round backends b n allUp).bookmark.state s.id) =
      (s.pending (b.state s.id)).drop (g.merge.taken backends b n allUp s).length := by
  apply hserves.pending_round hb hn hs
  intro last hlast hleft
  have hne : s.order.continuationOf last ≠ "" := by
    intro hempty
    refine hkept ⟨last, hlast, hempty, ?_⟩
    rwa [ne_eq, ← StaticSource.length_eq_iff_getLast? (hserves.pairwise_ne hs)
      (hserves.taken_isPrefix hs b allUp n) hlast]
  have hstate : (g.merge.round backends b n allUp).bookmark.state s.id =
      some (.active (s.order.continuationOf last)) := by
    rw [hserves.state_round hb hn hs, StaticSource.next_of_getLast? hlast hleft,
      Option.filter_some, if_pos (by simpa using hne)]
  obtain ⟨cursor, hread⟩ : ∃ cursor,
      s.order.parseCursor (some (s.order.continuationOf last)) = .ok cursor := by
    rw [hserves.order s hs] at hstate ⊢
    exact cursorError?_eq_none_iff.1 hcursor s.id _ hstate
  exact SortOrder.restores_of_parseCursor hne hread

/-- A source that loses its place on a page starts over. -/
theorem pending_round_of_lost
    (hlost : s.LosesPlace (g.merge.taken backends b n allUp s)) :
    s.pending ((g.merge.round backends b n allUp).bookmark.state s.id) = s.entities := by
  obtain ⟨last, hlast, hempty, hmore⟩ := hlost
  rw [ne_eq, ← StaticSource.length_eq_iff_getLast? (hserves.pairwise_ne hs)
    (hserves.taken_isPrefix hs b allUp n) hlast] at hmore
  rw [hserves.state_round hb hn hs, StaticSource.next_of_getLast? hlast hmore, hempty]
  rfl

/-- Starting over leaves more rows than there should be left. -/
theorem length_lt_of_lost
    (hlost : s.LosesPlace (g.merge.taken backends b n allUp s)) :
    ((s.pending (b.state s.id)).drop (g.merge.taken backends b n allUp s).length).length <
      (s.pending ((g.merge.round backends b n allUp).bookmark.state s.id)).length := by
  rw [pending_round_of_lost hserves hb hn hs hlost, List.length_drop]
  obtain ⟨last, hlast, -, -⟩ := hlost
  have hwon := List.length_pos_of_mem (List.mem_of_getLast? hlast)
  have hprefix := (hserves.taken_isPrefix hs b allUp n).length_le
  have hsuffix := (s.pending_suffix (b.state s.id)).length_le
  omega

end Step

/-- A page never leaves fewer rows than there should be left, and it leaves more if a
source loses its place on it. -/
theorem length_drop_le (hserves : g.merge.Serves backends) (hb : b.isWireSafe = true)
    (hn : 1 ≤ n) (hcursor : cursorError? g.merge.sourceOrder
      (g.merge.round backends b n allUp).bookmark = none) :
    ((g.merge.stream backends b).drop n).length ≤
        (g.merge.stream backends (g.merge.round backends b n allUp).bookmark).length ∧
      ((∃ s ∈ backends, s.LosesPlace (g.merge.taken backends b n allUp s)) →
        ((g.merge.stream backends b).drop n).length <
          (g.merge.stream backends (g.merge.round backends b n allUp).bookmark).length) := by
  have hle : ∀ s ∈ backends,
      ((s.pending (b.state s.id)).drop (g.merge.taken backends b n allUp s).length).length ≤
        (s.pending ((g.merge.round backends b n allUp).bookmark.state s.id)).length := by
    intro s hs
    by_cases hlost : s.LosesPlace (g.merge.taken backends b n allUp s)
    · exact (length_lt_of_lost hserves hb hn hs hlost).le
    · rw [pending_round_of_kept hserves hb hn hs hcursor hlost]
  rw [hserves.drop_stream, (inOrder_perm g.merge _).length_eq, length_stream, outstanding,
    List.length_flatMap, List.length_flatMap]
  simp only [List.length_map]
  constructor
  · exact List.sum_le_sum hle
  · rintro ⟨s, hs, hlost⟩
    exact List.sum_lt_sum _ _ hle ⟨s, hs, length_lt_of_lost hserves hb hn hs hlost⟩

/-- The last page loses no place, nor do the empty pages behind it. -/
theorem not_losesPlace_of_length_le (hserves : g.merge.Serves backends)
    (hshort : (g.merge.stream backends b).length ≤ n) :
    ¬ LosesPlace backends n (g.merge.stream backends b) := by
  rintro ⟨page, s, hs, last, hlast, -, hmore⟩
  cases page with
  | zero =>
      rw [Nat.zero_mul, List.drop_zero, List.take_of_length_le hshort,
        hserves.won_stream hs] at hlast
      obtain ⟨front, hfront⟩ := s.pending_suffix (b.state s.id)
      apply hmore
      rw [← hfront, List.getLast?_append, hlast, Option.some_or]
  | succ page =>
      have hbeyond : n ≤ (page + 1) * n := Nat.le_mul_of_pos_left n (Nat.succ_pos page)
      rw [List.drop_of_length_le (hshort.trans hbeyond), List.take_nil] at hlast
      cases hlast

theorem losesPlace_iff {rows : List (String × α)} :
    LosesPlace backends n rows ↔
      (∃ s ∈ backends, s.LosesPlace (won (rows.take n) s.id)) ∨
        LosesPlace backends n (rows.drop n) := by
  constructor
  · rintro ⟨page, s, hs, hlost⟩
    cases page with
    | zero =>
        rw [Nat.zero_mul, List.drop_zero] at hlost
        exact Or.inl ⟨s, hs, hlost⟩
    | succ page =>
        refine Or.inr ⟨page, s, hs, ?_⟩
        rwa [List.drop_drop, Nat.add_comm, ← Nat.succ_mul]
  · rintro (⟨s, hs, hlost⟩ | ⟨page, s, hs, hlost⟩)
    · exact ⟨0, s, hs, by rwa [Nat.zero_mul, List.drop_zero]⟩
    · refine ⟨page + 1, s, hs, ?_⟩
      rwa [List.drop_drop, Nat.add_comm, ← Nat.succ_mul] at hlost

/-- Followed to its end, a stream delivers no fewer rows than are pending, exactly these
in merge order if no source loses its place, and more if one does. -/
theorem follow_eq_ok (hserves : g.merge.Serves backends) (hn : 1 ≤ n)
    (hplan : g.plan request = .ok ⟨n, b, backends.map StaticSource.toSource⟩) {pages : Nat}
    {list : List α} (h : (g.follow request pages).run = .ok (some list)) :
    (g.merge.stream backends b).length ≤ list.length ∧
      (¬ LosesPlace backends n (g.merge.stream backends b) →
        list = (g.merge.stream backends b).map Prod.snd) ∧
      (LosesPlace backends n (g.merge.stream backends b) →
        (g.merge.stream backends b).length < list.length) := by
  induction pages generalizing request b list with
  | zero => cases h
  | succ pages ih =>
      have hb : b.isWireSafe = true := isWireSafe_of_plan hplan
      obtain ⟨hsafe, hpage⟩ := follow_succ_eq_ok hplan hserves.order h
      rw [hserves.entities_round_allUp hb hn, continuation_round] at hpage
      by_cases hshort : (g.merge.stream backends b).length ≤ n
      · rw [if_pos ((hserves.allCompleted_round_iff hb hn).2 hshort),
          List.take_of_length_le hshort] at hpage
        obtain rfl := hpage
        refine ⟨by rw [List.length_map], fun _ => rfl, fun hlost => ?_⟩
        exact absurd hlost (not_losesPlace_of_length_le hserves hshort)
      · rw [if_neg fun hall => hshort ((hserves.allCompleted_round_iff hb hn).1 hall)] at hpage
        obtain ⟨rest, hrest, rfl⟩ := hpage
        cases pages with
        | zero => cases hrest
        | succ pages =>
            have hnext := plan_of_follow hplan hsafe hrest
            obtain ⟨hcount, hkept, hmore⟩ := ih hnext hrest
            have hcursor := cursorError?_of_plan hnext
            obtain ⟨hle, hlt⟩ := length_drop_le hserves hb hn hcursor
            have hpage : (((g.merge.stream backends b).take n).map Prod.snd).length = n := by
              rw [List.length_map, List.length_take, Nat.min_eq_left (by omega)]
            rw [List.length_drop] at hle hlt
            rw [List.length_append, hpage, losesPlace_iff]
            refine ⟨by omega, ?_, ?_⟩
            · intro hsafe
              rw [not_or] at hsafe
              have hdrop := hserves.stream_of_pending fun s hs =>
                pending_round_of_kept hserves hb hn hs hcursor fun hlost => hsafe.1 ⟨s, hs, hlost⟩
              rw [hdrop] at hkept
              rw [hkept hsafe.2, ← List.map_append, List.take_append_drop]
            · rintro (hlost | hlater)
              · have hlonger := hlt hlost
                omega
              · by_cases hlost : ∃ s ∈ backends, s.LosesPlace (g.merge.taken backends b n allUp s)
                · have hlonger := hlt hlost
                  omega
                · have hdrop := hserves.stream_of_pending fun s hs =>
                    pending_round_of_kept hserves hb hn hs hcursor fun h => hlost ⟨s, hs, h⟩
                  rw [hdrop, List.length_drop] at hmore
                  have hlonger := hmore hlater
                  omega

theorem follow_of_drain_eq_ok {list : List α} (h : (g.drain request).run = .ok list) :
    (g.follow request g.config.paging.maxDrainPages).run = .ok (some list) := by
  change (ExceptT.bindCont _
    (g.follow request g.config.paging.maxDrainPages).run : Id _) = _ at h
  cases hfollow : (g.follow request g.config.paging.maxDrainPages).run with
  | error error =>
      rw [hfollow] at h
      cases h
  | ok result =>
      rw [hfollow] at h
      cases result with
      | none => cases h
      | some entities =>
          cases h
          rfl

/-- Only an order by id has empty texts to lose a place by. -/
theorem not_losesPlace_of_key_ne_id (horder : ∀ s ∈ backends, s.order = g.merge.sourceOrder)
    (hkey : g.merge.sourceOrder.key ≠ .id) (n : Nat) (rows : List (String × α)) :
    ¬ LosesPlace backends n rows := by
  rintro ⟨page, s, hs, last, -, hempty, -⟩
  rw [horder s hs] at hempty
  exact SortOrder.continuationOf_ne_empty_of_key_ne_id hkey last hempty

/-- A drain that ends without an error has delivered what was outstanding, each row once
and in merge order, exactly when no source lost its place on one of its pages. -/
theorem drain_eq_inOrder_iff (hconfig : g.config.check = .ok ())
    (hplan : g.plan request = .ok ⟨n, b, backends.map StaticSource.toSource⟩)
    (horder : ∀ s ∈ backends, s.order = g.merge.sourceOrder)
    (hrows : ∀ s ∈ backends, s.entities.Pairwise g.merge.Separates) {list : List α}
    (hdrain : (g.drain request).run = .ok list) :
    list = (g.merge.inOrder (outstanding backends b)).map Prod.snd ↔
      ¬ LosesPlace backends n (g.merge.inOrder (outstanding backends b)) := by
  have hn : 1 ≤ n := one_le_size hconfig (plan_eq_ok_iff.1 hplan).1
  have hserves := serves_of_participants (fun s => s.id_toSource) (plan_eq_ok_iff.1 hplan).2.2
    horder hrows
  have hfollow := follow_of_drain_eq_ok hdrain
  obtain ⟨-, hkept, hmore⟩ := follow_eq_ok hserves hn hplan hfollow
  constructor
  · intro heq hlost
    have hlonger := hmore hlost
    rw [heq, List.length_map] at hlonger
    exact absurd hlonger (lt_irrefl _)
  · exact hkept

end Gateway

namespace Sample

def byId : SortOrder :=
  ⟨.id, .asc⟩

/-- A source whose first row has the empty id. -/
def nameless : StaticSource Item :=
  source "east" byId [item "" 0, item "x" 0] east_isWireSafe

def named : StaticSource Item :=
  source "west" byId [item "b1" 0] west_isWireSafe

open Gateway Merge in
/-- The first page ends the rows of one source and takes only the nameless row of the
other, which then delivers that row again. -/
theorem drain_nameless :
    ((gateway byId .abort nameless.toSource named.toSource : Gateway Id Item).drain
        { size := some 2 }).run = .ok [item "" 0, item "b1" 0, item "" 0, item "x" 0] ∧
      [item "" 0, item "b1" 0, item "" 0, item "x" 0] ≠
        ((Merge.single byId).inOrder (outstanding [nameless, named] .empty)).map Prod.snd := by
  have hplan : (gateway byId .abort nameless.toSource named.toSource : Gateway Id Item).plan
      { size := some 2 } = .ok ⟨2, .empty, [nameless, named].map StaticSource.toSource⟩ := by rfl
  have hdrain : ((gateway byId .abort nameless.toSource named.toSource : Gateway Id Item).drain
      { size := some 2 }).run = .ok [item "" 0, item "b1" 0, item "" 0, item "x" 0] := by cbv
  have hiff := drain_eq_inOrder_iff (by rfl) hplan (by decide) (by decide) hdrain
  refine ⟨hdrain, fun heq => hiff.1 heq ⟨0, nameless, List.mem_cons_self, item "" 0, ?_⟩⟩
  refine ⟨?_, by rfl, by decide⟩
  cbv

end Sample

end MergedPaging
