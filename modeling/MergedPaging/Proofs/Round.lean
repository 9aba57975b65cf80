/-
One round over static sources.  Every source answers with a page of what it has
pending, or fails and contributes nothing.  The winners are the first of all pending
rows in merge order; a source keeps exactly those of its rows pending that did not
win, provided that the text of its last winner leads back to that row.
-/
import MergedPaging.Proofs.Pending
import MergedPaging.Proofs.BookmarkText

namespace MergedPaging

open Std

variable {α : Type} [Sortable α]

/-- Both orders put two rows of a source in the same sequence, and tell them apart. -/
def Merge.Separates (m : Merge) (a b : α) : Prop :=
  m.sourceOrder.compare a b = m.mergeOrder.compare a b ∧ m.sourceOrder.compare a b ≠ .eq

instance (m : Merge) (a b : α) : Decidable (m.Separates a b) :=
  inferInstanceAs (Decidable (_ ∧ _))

/-- A row is strictly after the last of the rows that a source won, if it won any. -/
def SortOrder.follows (o : SortOrder) (won : List α) (row : α) : Bool :=
  won.getLast?.all fun last => o.compare row last == .gt

namespace StaticSource

/-- What a source offers in a round: what it has pending, or nothing when it is down. -/
def offered (s : StaticSource α) (state : Option Progress) (down : Bool) : List α :=
  if down then [] else s.pending state

/-- What the merge gets from a source: a page of what it offers, or, when it is down, a
page with nothing on it that is not the last. -/
def answer (s : StaticSource α) (state : Option Progress) (n : Nat) (down : Bool) :
    SourcePage α :=
  if state = some .completed then .completed s.id
  else
    let requested := state.map Progress.toRequested
    ⟨s.id, requested,
      if down then ⟨some (requested.getD ""), []⟩ else .ofBatch s.order (s.pending state) n⟩

/-- The progress of a source after a round in which it won these rows. -/
def next (s : StaticSource α) (state : Option Progress) (down : Bool) (won : List α) :
    Option Progress :=
  match won.getLast? with
  | none => if down = false ∧ s.pending state = [] then some .completed else state
  | some last =>
    if won.length = (s.pending state).length then some .completed
    else some (.active (s.order.continuationOf last))

variable {s : StaticSource α} {state : Option Progress} {n : Nat} {down : Bool}

theorem next_of_getLast? {won : List α} {last : α} (hlast : won.getLast? = some last)
    (hleft : won.length ≠ (s.pending state).length) :
    s.next state down won = some (.active (s.order.continuationOf last)) := by
  simp only [next, hlast, if_neg hleft]

theorem offered_suffix (s : StaticSource α) (state : Option Progress) (down : Bool) :
    s.offered state down <:+ s.entities := by
  rw [offered]
  split
  · exact List.nil_suffix
  · exact s.pending_suffix state

theorem sourceId_answer (s : StaticSource α) (state : Option Progress) (n : Nat) (down : Bool) :
    (s.answer state n down).sourceId = s.id := by
  rw [answer]
  split <;> rfl

theorem isCompleted_answer (hstate : ∀ p, state = some p → p.isWireSafe = true)
    (hopen : state ≠ some .completed) : (s.answer state n down).isCompleted = false := by
  rw [answer, if_neg hopen, SourcePage.isCompleted]
  cases state with
  | none => rfl
  | some p =>
      cases p with
      | completed => exact absurd rfl hopen
      | active text =>
          have htext := hstate _ rfl
          simp only [Progress.isWireSafe, Bool.and_eq_true, bne_iff_ne] at htext
          simpa [Progress.toRequested] using htext.1

theorem offered_completed (s : StaticSource α) (down : Bool) :
    s.offered (some .completed) down = [] := by
  cases down <;> rfl

theorem supplied_answer (hn : 1 ≤ n) (hstate : ∀ p, state = some p → p.isWireSafe = true) :
    (s.answer state n down).supplied = (s.offered state down).take n := by
  by_cases hopen : state = some .completed
  · subst hopen
    rw [answer, if_pos rfl, offered_completed, List.take_nil]
    simp [SourcePage.supplied, SourcePage.isCompleted, SourcePage.completed]
  · rw [SourcePage.supplied, isCompleted_answer hstate hopen, answer, if_neg hopen]
    cases down with
    | true => simp [offered]
    | false =>
        have hsorted : s.order.sort (s.pending state) = s.pending state :=
          sortBy_of_pairwise (s.pairwise_pending state)
        simp [offered, Page.entities_ofBatch, hsorted, Nat.max_eq_left hn]

theorem isExhausted_answer (hn : 1 ≤ n) (hopen : state ≠ some .completed) :
    (s.answer state n down).page.isExhausted =
      (!down && decide ((s.pending state).length ≤ n)) := by
  rw [answer, if_neg hopen]
  cases down with
  | true => rfl
  | false => simp [Page.isExhausted_ofBatch, Nat.max_eq_left hn]

/-- What the merge makes of a source's winners is its progress after the round. -/
theorem advance_answer {m : Merge} (horder : s.order = m.sourceOrder) (hn : 1 ≤ n)
    (hstate : ∀ p, state = some p → p.isWireSafe = true ∧ p ≠ .active "") {won : List α}
    (hwon : won = (s.offered state down).take won.length) (hpage : won.length ≤ n) :
    m.advance (s.answer state n down) won = s.next state down won := by
  obtain ⟨k, hk, rfl⟩ : ∃ k ≤ n, won = (s.offered state down).take k := ⟨_, hpage, hwon⟩
  by_cases hopen : state = some .completed
  · subst hopen
    rw [offered_completed, List.take_nil, next, answer, if_pos rfl]
    simp [Merge.advance, SourcePage.requested, SourcePage.completed, Progress.ofRequested,
      Progress.completedMark]
  · have hrequested : (s.answer state n down).requested = state := by
      rw [answer, if_neg hopen, SourcePage.requested]
      cases state with
      | none => rfl
      | some p => exact Progress.ofRequested_toRequested (hstate p rfl).1 (hstate p rfl).2
    rw [Merge.advance, next, hrequested, isExhausted_answer hn hopen,
      supplied_answer hn fun p hp => (hstate p hp).1, horder]
    cases down with
    | true => simp [offered]
    | false =>
        simp only [offered, Bool.false_eq_true, ↓reduceIte, Bool.not_false, Bool.true_and,
          Bool.and_eq_true, decide_eq_true_eq, true_and]
        cases hlast : ((s.pending state).take k).getLast? with
        | none =>
            have hempty : (((s.pending state).take n).isEmpty = true ∧
                (s.pending state).length ≤ n) ↔ s.pending state = [] := by
              rw [List.isEmpty_iff_length_eq_zero, ← List.length_eq_zero_iff, List.length_take]
              omega
            simp only [hempty]
        | some last =>
            have hall : (((s.pending state).take k).length = ((s.pending state).take n).length ∧
                (s.pending state).length ≤ n) ↔
                  ((s.pending state).take k).length = (s.pending state).length := by
              rw [List.length_take, List.length_take]
              omega
            simp only [hall]

theorem take_offered_isPrefix (s : StaticSource α) (state : Option Progress) (down : Bool)
    (k : Nat) : (s.offered state down).take k <+: s.pending state := by
  rw [offered]
  split
  · rw [List.take_nil]
    exact List.nil_prefix
  · exact List.take_prefix k _

/-- The progress after a round is one that a bookmark can hold, if the text of the last
row that was won leads back to that row. -/
theorem next_ne_active_empty {won : List α} (hstate : state ≠ some (.active ""))
    (hrestores : ∀ last, won.getLast? = some last → won.length ≠ (s.pending state).length →
      s.order.Restores last) : s.next state down won ≠ some (.active "") := by
  rw [next]
  split
  · split
    · exact nofun
    · exact hstate
  · rename_i last hlast
    split
    · exact nofun
    · rename_i hleft
      simpa using (hrestores last hlast hleft).continuationOf_ne_empty

/-- Of the rows that a source did not win, those strictly after its last winner stay
pending, if the text of that winner leads back to it. -/
theorem pending_next_eq_filter {won : List α} (hwon : won <+: s.pending state)
    (hrestores : ∀ last, won.getLast? = some last → won.length ≠ (s.pending state).length →
      s.order.Restores last) :
    s.pending (s.next state down won) =
      ((s.pending state).drop won.length).filter (s.order.follows won) := by
  rw [next]
  split
  · rename_i hlast
    have hall : (s.pending state).filter (s.order.follows won) = s.pending state := by
      apply List.filter_eq_self.2
      intro row _
      rw [SortOrder.follows, hlast]
      rfl
    rw [List.getLast?_eq_none_iff.1 hlast] at hall ⊢
    rw [List.length_nil, List.drop_zero, hall]
    split
    · rename_i hdone
      rw [hdone.2]
      rfl
    · rfl
  · rename_i last hlast
    split
    · rename_i hall
      rw [hall, List.drop_length]
      rfl
    · rename_i hleft
      obtain ⟨cursor, hparse, hcursor⟩ := hrestores last hlast hleft
      obtain ⟨rest, hrest⟩ := hwon
      obtain ⟨front, hfront⟩ := s.pending_suffix state
      obtain ⟨before, hbefore⟩ := List.getLast?_eq_some_iff.1 hlast
      have hsplit : s.entities = (front ++ before) ++ last :: rest := by
        rw [← hfront, ← hrest, hbefore]
        simp
      have hfollows : s.order.follows won = (s.order.compare · last == .gt) := by
        funext row
        rw [SortOrder.follows, hlast]
        rfl
      rw [pending_active_eq_filter hsplit hparse hcursor, ← hrest, List.drop_left, hfollows]

/-- When no two rows are equal, all rows that a source did not win stay pending. -/
theorem pending_next (hrows : s.entities.Pairwise fun a b => s.order.compare a b ≠ .eq)
    {won : List α} (hwon : won <+: s.pending state)
    (hrestores : ∀ last, won.getLast? = some last → won.length ≠ (s.pending state).length →
      s.order.Restores last) :
    s.pending (s.next state down won) = (s.pending state).drop won.length := by
  rw [pending_next_eq_filter hwon hrestores, List.filter_eq_self]
  have hstrict := (s.pairwise_entities.and hrows).sublist (s.pending_suffix state).sublist
  obtain ⟨rest, hrest⟩ := hwon
  rw [← hrest] at hstrict ⊢
  rw [List.drop_left]
  intro row hrow
  rw [SortOrder.follows, Option.all_eq_true]
  intro last hlast
  have hbehind := (List.pairwise_append.1 hstrict).2.2 last (List.mem_of_getLast? hlast) row hrow
  have hne : s.order.compare row last ≠ .eq := fun h => hbehind.2 (OrientedCmp.eq_symm h)
  exact beq_iff_eq.2 ((gt_or_eq_of_isLE hbehind.1).resolve_right hne)

/-- Progress stays wire safe if the text of the last row that was won is. -/
theorem isWireSafe_of_next {won : List α} (hstate : ∀ p, state = some p → p.isWireSafe = true)
    (htext : ∀ last, won.getLast? = some last → s.order.Carries last) {p : Progress}
    (hp : s.next state down won = some p) : p.isWireSafe = true := by
  rw [next] at hp
  split at hp
  · split at hp
    · cases hp
      rfl
    · exact hstate p hp
  · rename_i last hlast
    split at hp
    · cases hp
      rfl
    · cases hp
      have hcarries := htext last hlast
      simpa [Progress.isWireSafe, hcarries.notCompleted] using hcarries.noSeparator

/-- A source that answers is finished by a round exactly when it wins all it had. -/
theorem next_eq_completed_iff {won : List α} (hwon : won <+: s.pending state) :
    s.next state false won = some .completed ↔ won = s.pending state := by
  rw [next]
  split
  · rename_i hlast
    obtain rfl := List.getLast?_eq_none_iff.1 hlast
    by_cases hdone : s.pending state = []
    · simp [hdone]
    · have hopen : state ≠ some .completed := by
        rintro rfl
        exact hdone rfl
      simp [hdone, hopen, Ne.symm hdone]
  · rename_i last hlast
    have hlength : won.length = (s.pending state).length ↔ won = s.pending state :=
      ⟨hwon.eq_of_length, congrArg List.length⟩
    by_cases hall : won = s.pending state
    · simp [hall]
    · simp [hlength, hall]

end StaticSource

namespace Merge

/-- Static sources under ids of their own, all delivering in the source order, on whose
rows both orders agree. -/
structure Aligned (m : Merge) (backends : List (StaticSource α)) : Prop where
  nodup : (backends.map (·.id)).Nodup
  order : ∀ s ∈ backends, s.order = m.sourceOrder
  agrees : ∀ s ∈ backends, s.entities.Pairwise fun a b =>
    m.sourceOrder.compare a b = m.mergeOrder.compare a b

/-- Aligned sources whose rows the orders also tell apart. -/
structure Serves (m : Merge) (backends : List (StaticSource α)) : Prop extends
    m.Aligned backends where
  apart : ∀ s ∈ backends, s.entities.Pairwise fun a b => m.sourceOrder.compare a b ≠ .eq

/-- What all sources offer in a round that starts at a bookmark. -/
def offers (backends : List (StaticSource α)) (b : Bookmark) (down : String → Bool) :
    List (String × α) :=
  backends.flatMap fun s => (s.offered (b.state s.id) (down s.id)).map (s.id, ·)

/-- What the merge gets from all sources in a round that starts at a bookmark. -/
def answers (backends : List (StaticSource α)) (b : Bookmark) (n : Nat)
    (down : String → Bool) : List (SourcePage α) :=
  backends.map fun s => s.answer (b.state s.id) n (down s.id)

/-- What a source wins in a round. -/
def taken (m : Merge) (backends : List (StaticSource α)) (b : Bookmark) (n : Nat)
    (down : String → Bool) (s : StaticSource α) : List α :=
  won ((m.inOrder (offers backends b down)).take n) s.id

/-- The page of a round, and the progress after it. -/
def round (m : Merge) (backends : List (StaticSource α)) (b : Bookmark) (n : Nat)
    (down : String → Bool) : MergedPage α :=
  m.merge (answers backends b n down) n

variable {m : Merge} {backends : List (StaticSource α)} {b : Bookmark} {n : Nat}
  {down : String → Bool}

theorem sourceIds_answers (backends : List (StaticSource α)) (b : Bookmark) (n : Nat)
    (down : String → Bool) :
    (answers backends b n down).map (·.sourceId) = backends.map (·.id) := by
  rw [answers, List.map_map]
  apply List.map_congr_left
  intro s _
  exact s.sourceId_answer _ _ _

theorem progress_of_isWireSafe (hb : b.isWireSafe = true) (id : String) :
    ∀ p, b.state id = some p → p.isWireSafe = true ∧ p ≠ .active "" := by
  intro p hp
  refine ⟨(Bookmark.isWireSafe_iff.1 hb id p hp).2, ?_⟩
  rintro rfl
  exact b.state_ne_active_empty id hp

/-- The rows of a source are in merge order as they are delivered. -/
theorem Aligned.sortBy_eq (haligned : m.Aligned backends) {s : StaticSource α} (hs : s ∈ backends)
    {rows : List α} (hrows : rows.Sublist s.entities) :
    sortBy m.mergeOrder.compare rows = rows := by
  apply sortBy_of_pairwise
  have hsorted := s.pairwise_entities
  rw [haligned.order s hs] at hsorted
  refine ((hsorted.and (haligned.agrees s hs)).sublist hrows).imp ?_
  intro a b hab
  rw [← hab.2]
  exact hab.1

theorem Aligned.won_offers (haligned : m.Aligned backends) {s : StaticSource α}
    (hs : s ∈ backends) (b : Bookmark) (down : String → Bool) :
    won (m.inOrder (offers backends b down)) s.id =
      s.offered (b.state s.id) (down s.id) := by
  rw [won_inOrder, offers, won_flatMap StaticSource.id
    (fun s => s.offered (b.state s.id) (down s.id)) haligned.nodup hs]
  exact haligned.sortBy_eq hs (s.offered_suffix _ _).sublist

theorem won_offers_of_notMem {id : String} (hid : id ∉ backends.map (·.id)) (b : Bookmark)
    (down : String → Bool) : won (m.inOrder (offers backends b down)) id = [] := by
  rw [won_inOrder, offers, won_flatMap_of_notMem StaticSource.id
    (fun s => s.offered (b.state s.id) (down s.id)) hid, sortBy_nil]

/-- The winners are the first of all offers in merge order, however many rows each
source puts on its page. -/
theorem Aligned.winners_answers (haligned : m.Aligned backends) (hb : b.isWireSafe = true)
    (hn : 1 ≤ n) :
    m.winners (answers backends b n down) n = (m.inOrder (offers backends b down)).take n := by
  have hids := sourceIds_answers backends b n down
  rw [winners_eq]
  apply take_eq_take_of_won (m.pairwise_inOrder _) (m.pairwise_inOrder _)
  intro id
  by_cases hid : id ∈ backends.map (·.id)
  · obtain ⟨s, hs, rfl⟩ := List.mem_map.1 hid
    have hanswer : s.answer (b.state s.id) n (down s.id) ∈ answers backends b n down :=
      List.mem_map_of_mem hs
    have hpool := won_pool (hids.symm ▸ haligned.nodup) hanswer
    rw [s.sourceId_answer, s.supplied_answer hn
      fun p hp => (progress_of_isWireSafe hb s.id p hp).1] at hpool
    rw [haligned.won_offers hs, won_inOrder, hpool, haligned.sortBy_eq hs
      ((List.take_sublist _ _).trans (s.offered_suffix _ _).sublist), List.take_take,
      Nat.min_self]
  · rw [won_offers_of_notMem hid, won_inOrder, won_pool_of_notMem (hids.symm ▸ hid),
      sortBy_nil]

/-- What one source wins in a round. -/
theorem Aligned.taken_eq_take (haligned : m.Aligned backends) {s : StaticSource α}
    (hs : s ∈ backends) (b : Bookmark) (down : String → Bool) (n : Nat) :
    m.taken backends b n down s =
      (s.offered (b.state s.id) (down s.id)).take (m.taken backends b n down s).length := by
  have htake := won_take (m.inOrder (offers backends b down)) n s.id
  rwa [haligned.won_offers hs] at htake

theorem Aligned.taken_isPrefix (haligned : m.Aligned backends) {s : StaticSource α}
    (hs : s ∈ backends) (b : Bookmark) (down : String → Bool) (n : Nat) :
    m.taken backends b n down s <+: s.pending (b.state s.id) :=
  haligned.taken_eq_take hs b down n ▸ s.take_offered_isPrefix _ _ _

/-- The rows of a source are all apart in its own order. -/
theorem Serves.pairwise_ne (hserves : m.Serves backends) {s : StaticSource α}
    (hs : s ∈ backends) : s.entities.Pairwise fun a b => s.order.compare a b ≠ .eq := by
  rw [hserves.order s hs]
  exact hserves.apart s hs

/-- The page holds the first of all that is offered. -/
theorem Aligned.entities_round (haligned : m.Aligned backends) (hb : b.isWireSafe = true)
    (hn : 1 ≤ n) (down : String → Bool) : (m.round backends b n down).page.entities =
      ((m.inOrder (offers backends b down)).take n).map Prod.snd := by
  rw [← haligned.winners_answers hb hn]
  rfl

theorem continuation_round (m : Merge) (backends : List (StaticSource α)) (b : Bookmark)
    (n : Nat) (down : String → Bool) : (m.round backends b n down).page.continuation =
      if (m.round backends b n down).bookmark.allCompleted (backends.map (·.id)) then none
      else some (toString (m.round backends b n down).bookmark) := by
  rw [← sourceIds_answers backends b n down]
  rfl

/-- The progress of every source after a round. -/
theorem Aligned.state_round (haligned : m.Aligned backends) (hb : b.isWireSafe = true)
    (hn : 1 ≤ n) {s : StaticSource α} (hs : s ∈ backends) :
    (m.round backends b n down).bookmark.state s.id =
      (s.next (b.state s.id) (down s.id) (m.taken backends b n down s)).filter
        (· ≠ .active "") := by
  have hids := sourceIds_answers backends b n down
  have hanswer : s.answer (b.state s.id) n (down s.id) ∈ answers backends b n down :=
    List.mem_map_of_mem hs
  have hstate := state_bookmark (m := m) (hids.symm ▸ haligned.nodup)
    (m.winners (answers backends b n down) n) hanswer
  have htaken : won (m.winners (answers backends b n down) n) s.id =
      m.taken backends b n down s := by
    rw [haligned.winners_answers hb hn, taken]
  have hpage : (m.taken backends b n down s).length ≤ n :=
    (length_won_le _ _).trans (List.length_take_le _ _)
  have hadvance := StaticSource.advance_answer (haligned.order s hs) hn
    (progress_of_isWireSafe hb s.id) (haligned.taken_eq_take hs b down n) hpage
  rw [s.sourceId_answer, htaken, hadvance] at hstate
  exact hstate

theorem state_round_of_notMem {id : String} (hid : id ∉ backends.map (·.id)) :
    (m.round backends b n down).bookmark.state id = none := by
  apply state_bookmark_of_notMem
  rwa [sourceIds_answers]

/-- A source keeps its place in a round when the text of the last row that it won leads
back to that row, or when it won all that it had pending. -/
def KeepsPlace (m : Merge) (backends : List (StaticSource α)) (b : Bookmark) (n : Nat)
    (down : String → Bool) (s : StaticSource α) : Prop :=
  ∀ last, (m.taken backends b n down s).getLast? = some last →
    (m.taken backends b n down s).length ≠ (s.pending (b.state s.id)).length →
      s.order.Restores last

theorem Aligned.state_round_of_keepsPlace (haligned : m.Aligned backends)
    (hb : b.isWireSafe = true) (hn : 1 ≤ n) {s : StaticSource α} (hs : s ∈ backends)
    (hplace : m.KeepsPlace backends b n down s) :
    (m.round backends b n down).bookmark.state s.id =
      s.next (b.state s.id) (down s.id) (m.taken backends b n down s) := by
  have hne : s.next (b.state s.id) (down s.id) (m.taken backends b n down s) ≠
      some (.active "") :=
    StaticSource.next_ne_active_empty (b.state_ne_active_empty s.id) hplace
  rw [haligned.state_round hb hn hs]
  cases hnext : s.next (b.state s.id) (down s.id) (m.taken backends b n down s) with
  | none => rfl
  | some p =>
      rw [hnext] at hne
      rw [Option.filter_some, if_pos (by simpa using hne)]

/-- A source that keeps its place has pending what it did not win. -/
theorem Serves.pending_round (hserves : m.Serves backends) (hb : b.isWireSafe = true)
    (hn : 1 ≤ n) {s : StaticSource α} (hs : s ∈ backends)
    (hplace : m.KeepsPlace backends b n down s) :
    s.pending ((m.round backends b n down).bookmark.state s.id) =
      (s.pending (b.state s.id)).drop (m.taken backends b n down s).length := by
  rw [hserves.state_round_of_keepsPlace hb hn hs hplace, StaticSource.pending_next
    (hserves.pairwise_ne hs) (hserves.taken_isPrefix hs b down n) hplace]

/-- What a source won is among its rows. -/
theorem Aligned.mem_entities_of_mem_taken (haligned : m.Aligned backends) {s : StaticSource α}
    (hs : s ∈ backends) {row : α} (hrow : row ∈ m.taken backends b n down s) :
    row ∈ s.entities := by
  rw [haligned.taken_eq_take hs] at hrow
  exact (s.offered_suffix _ _).subset (List.mem_of_mem_take hrow)

theorem Aligned.keepsPlace_of_carries (haligned : m.Aligned backends)
    (htext : ∀ s ∈ backends, ∀ row ∈ s.entities, s.order.Carries row) {s : StaticSource α}
    (hs : s ∈ backends) : m.KeepsPlace backends b n down s := fun last hlast _ =>
  (htext s hs last (haligned.mem_entities_of_mem_taken hs (List.mem_of_getLast? hlast))).restores

/-- Rows whose texts a bookmark can carry leave a bookmark that can be carried. -/
theorem Aligned.isWireSafe_round (haligned : m.Aligned backends) (hb : b.isWireSafe = true)
    (hn : 1 ≤ n) (down : String → Bool)
    (htext : ∀ s ∈ backends, ∀ row ∈ s.entities, s.order.Carries row) :
    (m.round backends b n down).bookmark.isWireSafe = true := by
  rw [Bookmark.isWireSafe_iff]
  intro id p hp
  by_cases hid : id ∈ backends.map (·.id)
  · obtain ⟨s, hs, rfl⟩ := List.mem_map.1 hid
    rw [haligned.state_round hb hn hs] at hp
    have hstate : ∀ p, b.state s.id = some p → p.isWireSafe = true := fun p hp =>
      (progress_of_isWireSafe hb s.id p hp).1
    refine ⟨s.wireSafe, StaticSource.isWireSafe_of_next hstate ?_
      (Option.eq_some_of_filter_eq_some hp)⟩
    intro last hlast
    exact htext s hs last (haligned.mem_entities_of_mem_taken hs (List.mem_of_getLast? hlast))
  · rw [state_round_of_notMem hid] at hp
    cases hp

/-- No source is down. -/
def allUp : String → Bool := fun _ => false

/-- Everything that the sources have still to deliver after a bookmark, each row with
the id of its source; after the empty bookmark these are all rows. -/
def outstanding (backends : List (StaticSource α)) (b : Bookmark) : List (String × α) :=
  backends.flatMap fun s => (s.pending (b.state s.id)).map (s.id, ·)

/-- All that is outstanding, in merge order. -/
def stream (m : Merge) (backends : List (StaticSource α)) (b : Bookmark) :
    List (String × α) :=
  m.inOrder (outstanding backends b)

theorem pairwise_stream (m : Merge) (backends : List (StaticSource α)) (b : Bookmark) :
    (m.stream backends b).Pairwise fun x y => (m.rank x y).isLE :=
  m.pairwise_inOrder _

theorem length_stream (m : Merge) (backends : List (StaticSource α)) (b : Bookmark) :
    (m.stream backends b).length = (outstanding backends b).length :=
  (m.inOrder_perm _).length_eq

theorem Aligned.won_stream (haligned : m.Aligned backends) {s : StaticSource α}
    (hs : s ∈ backends) (b : Bookmark) :
    won (m.stream backends b) s.id = s.pending (b.state s.id) :=
  haligned.won_offers hs b allUp

theorem won_stream_of_notMem {id : String} (hid : id ∉ backends.map (·.id)) (b : Bookmark) :
    won (m.stream backends b) id = [] :=
  won_offers_of_notMem hid b allUp

theorem Aligned.entities_round_allUp (haligned : m.Aligned backends) (hb : b.isWireSafe = true)
    (hn : 1 ≤ n) : (m.round backends b n allUp).page.entities =
      ((m.stream backends b).take n).map Prod.snd :=
  haligned.entities_round hb hn allUp

/-- What a page leaves of all that is pending is, in merge order, what each source did
not win. -/
theorem Aligned.drop_stream (haligned : m.Aligned backends) (b : Bookmark) (n : Nat) :
    (m.stream backends b).drop n =
      m.inOrder (backends.flatMap fun s =>
        ((s.pending (b.state s.id)).drop (m.taken backends b n allUp s).length).map (s.id, ·)) := by
  apply eq_of_won ((m.pairwise_stream _ _).sublist (List.drop_sublist _ _))
    (m.pairwise_inOrder _)
  intro id
  rw [won_drop, won_inOrder]
  by_cases hid : id ∈ backends.map (·.id)
  · obtain ⟨s, hs, rfl⟩ := List.mem_map.1 hid
    rw [haligned.won_stream hs, won_flatMap StaticSource.id
      (fun s => (s.pending (b.state s.id)).drop (m.taken backends b n allUp s).length)
        haligned.nodup hs,
      haligned.sortBy_eq hs ((List.drop_sublist _ _).trans (s.pending_suffix _).sublist)]
    rfl
  · rw [won_stream_of_notMem hid, List.drop_nil, won_flatMap_of_notMem StaticSource.id
      (fun s => (s.pending (b.state s.id)).drop (m.taken backends b n allUp s).length) hid,
      sortBy_nil]

/-- When every source keeps pending what it did not win, so do all of them together. -/
theorem Aligned.stream_of_pending (haligned : m.Aligned backends) {b' : Bookmark}
    (hpending : ∀ s ∈ backends, s.pending (b'.state s.id) =
      (s.pending (b.state s.id)).drop (m.taken backends b n allUp s).length) :
    m.stream backends b' = (m.stream backends b).drop n := by
  have hrest : outstanding backends b' = backends.flatMap fun s =>
      ((s.pending (b.state s.id)).drop (m.taken backends b n allUp s).length).map (s.id, ·) := by
    apply List.flatMap_congr
    intro s hs
    rw [← hpending s hs]
  rw [stream, hrest, haligned.drop_stream]

/-- A round without failures finishes all sources exactly when its page holds all that
was pending. -/
theorem Aligned.allCompleted_round_iff (haligned : m.Aligned backends)
    (hb : b.isWireSafe = true) (hn : 1 ≤ n) :
    (m.round backends b n allUp).bookmark.allCompleted (backends.map (·.id)) = true ↔
      (m.stream backends b).length ≤ n := by
  have hcompleted : ∀ s ∈ backends,
      (m.round backends b n allUp).bookmark.isCompleted s.id = true ↔
        m.taken backends b n allUp s = won (m.stream backends b) s.id := by
    intro s hs
    rw [Bookmark.isCompleted, beq_iff_eq, haligned.state_round hb hn hs,
      Option.filter_eq_some_iff, haligned.won_stream hs]
    have hiff := StaticSource.next_eq_completed_iff (haligned.taken_isPrefix hs b allUp n)
    simpa [allUp, StaticSource.offered] using hiff
  rw [Bookmark.allCompleted, List.all_eq_true, ← List.take_eq_self_iff]
  constructor
  · intro hall
    apply eq_of_won ((m.pairwise_stream _ _).sublist (List.take_sublist _ _))
      (m.pairwise_stream _ _)
    intro id
    by_cases hid : id ∈ backends.map (·.id)
    · obtain ⟨s, hs, rfl⟩ := List.mem_map.1 hid
      exact (hcompleted s hs).1 (hall s.id hid)
    · rw [won_take, won_stream_of_notMem hid, List.take_nil]
  · intro htake id hid
    obtain ⟨s, hs, rfl⟩ := List.mem_map.1 hid
    exact (hcompleted s hs).2 (congrArg (won · s.id) htake)

end Merge

end MergedPaging
