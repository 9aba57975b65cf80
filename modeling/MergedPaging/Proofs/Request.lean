/-
Requests to a gateway whose sources are static.  A request that has been planned is
answered from its plan alone; the bookmark that it hands out is read back by the next
request, which then has the same size and the same sources.
-/
import MergedPaging.Proofs.Round
import MergedPaging.Gateway.Fetch

namespace MergedPaging

open Std

namespace Bookmark

theorem offender?_eq_none_iff {b : Bookmark} : b.offender? = none ↔ b.isWireSafe = true := by
  simp [offender?, isWireSafe, List.find?_eq_none]

end Bookmark

namespace StaticSource

variable {m : Type → Type} [Monad m] {α : Type} [Sortable α]

@[simp] theorem id_toSource (s : StaticSource α) : (s.toSource : Source m α).id = s.id :=
  rfl

theorem fetch_toSource (s : StaticSource α) (continuation : Option String) (n : Nat) :
    (s.toSource : Source m α).fetch continuation n =
      pure ((s.fetch continuation n).mapError .continuation) :=
  rfl

end StaticSource

namespace Config

/-- Checked settings ask for at least one row. -/
theorem one_le_defaultSize_of_check {c : Config} (h : c.check = .ok ()) :
    1 ≤ c.paging.defaultSize := by
  rw [check] at h
  split at h
  · cases h
  · omega

end Config

namespace Gateway

variable {m : Type → Type} {α : Type}

section Plan

variable {g : Gateway m α} {request : PageRequest}

theorem cursorError?_eq_none_iff {o : SortOrder} {b : Bookmark} :
    cursorError? o b = none ↔ ∀ id text, b.state id = some (.active text) →
      ∃ cursor, o.parseCursor (some text) = .ok cursor := by
  rw [cursorError?, List.findSome?_eq_none_iff]
  constructor
  · intro hnone id text hstate
    have hentry := hnone (id, .active text) (Bookmark.state_eq_some_iff.1 hstate)
    cases hparse : o.parseCursor (some text) with
    | ok cursor => exact ⟨cursor, rfl⟩
    | error error => simp [hparse] at hentry
  · rintro hread ⟨id, p⟩ hentry
    cases p with
    | completed => rfl
    | active text =>
        obtain ⟨cursor, hparse⟩ := hread id text (Bookmark.state_eq_some_iff.2 hentry)
        simp [hparse]

/-- Whatever a source has to go on from can be read. -/
theorem exists_parseCursor {o : SortOrder} {b : Bookmark} (hcursor : cursorError? o b = none)
    {id : String} (hopen : b.state id ≠ some .completed) :
    ∃ cursor, o.parseCursor ((b.state id).map Progress.toRequested) = .ok cursor := by
  match hstate : b.state id with
  | none => exact ⟨none, o.parseCursor_none⟩
  | some .completed => exact absurd hstate hopen
  | some (.active text) => exact cursorError?_eq_none_iff.1 hcursor id text hstate

theorem readBookmark_eq_ok_iff {continuation : Option String} {b : Bookmark} :
    g.readBookmark continuation = .ok b ↔
      Bookmark.parse continuation = .ok b ∧ cursorError? g.merge.sourceOrder b = none := by
  rw [readBookmark]
  cases hparse : Bookmark.parse continuation with
  | error error => simp [Except.mapError, bind, Except.bind]
  | ok read =>
      cases hcursor : cursorError? g.merge.sourceOrder read with
      | none =>
          simp only [Except.mapError, bind, Except.bind, hcursor, pure, Except.pure,
            Except.ok.injEq]
          constructor
          · rintro rfl
            exact ⟨rfl, hcursor⟩
          · exact And.left
      | some error =>
          simp only [Except.mapError, bind, Except.bind, hcursor, reduceCtorEq, Except.ok.injEq,
            false_iff, not_and]
          rintro rfl
          simp [hcursor]

/-- A plan says what each of the three checks of a request found. -/
theorem plan_eq_ok_iff {plan : Plan m α} :
    g.plan request = .ok plan ↔
      g.resolveSize request.size = .ok plan.size ∧
        g.readBookmark request.continuation = .ok plan.bookmark ∧
          g.participants request.sources = .ok plan.participants := by
  obtain ⟨size, bookmark, participants⟩ := plan
  rw [Gateway.plan]
  cases g.resolveSize request.size <;> cases g.readBookmark request.continuation <;>
    cases g.participants request.sources <;>
      simp [bind, Except.bind, pure, Except.pure]

theorem one_le_size (hconfig : g.config.check = .ok ()) {size : Option Nat} {n : Nat}
    (h : g.resolveSize size = .ok n) : 1 ≤ n := by
  unfold resolveSize at h
  split at h
  · cases h
    exact Config.one_le_defaultSize_of_check hconfig
  · split at h
    · cases h
    · cases h
      exact Nat.le_max_right _ _

/-- A continuation that can be read and a size within the limits make a plan. -/
theorem exists_plan (hconfig : g.config.check = .ok ()) {ids : List String}
    {sources : List (Source m α)} (hsources : g.participants ids = .ok sources)
    {continuation : Option String} {b : Bookmark}
    (hread : g.readBookmark continuation = .ok b) {size : Option Nat}
    (hsize : ∀ k, size = some k → k ≤ g.config.paging.maxSize) :
    ∃ n, 1 ≤ n ∧ g.plan ⟨continuation, size, ids⟩ = .ok ⟨n, b, sources⟩ := by
  obtain ⟨n, hn⟩ : ∃ n, g.resolveSize size = .ok n := by
    unfold resolveSize
    cases size with
    | none => exact ⟨_, rfl⟩
    | some k => exact ⟨_, if_neg (Nat.not_lt.2 (hsize k rfl))⟩
  exact ⟨n, one_le_size hconfig hn, plan_eq_ok_iff.2 ⟨hn, hread, hsources⟩⟩

/-- The sources that take part are registered, and keep their order. -/
theorem participants_sublist {ids : List String} {sources : List (Source m α)}
    (h : g.participants ids = .ok sources) : sources.Sublist g.sources.values := by
  rw [participants] at h
  split at h
  · cases h
  · cases h
    exact List.filter_sublist.trans List.filter_sublist

theorem map_id_values (g : Gateway m α) :
    g.sources.values.map (·.id) = g.sources.entries.map Prod.fst := by
  rw [SortedMap.values, List.map_map]
  exact List.map_congr_left g.id_eq

theorem nodup_participants {ids : List String} {sources : List (Source m α)}
    (h : g.participants ids = .ok sources) : (sources.map (·.id)).Nodup := by
  have hsub := (participants_sublist h).map (·.id)
  rw [map_id_values] at hsub
  exact g.sources.nodup_keys.sublist hsub

theorem isWireSafe_of_plan {plan : Plan m α} (hplan : g.plan request = .ok plan) :
    plan.bookmark.isWireSafe = true :=
  Bookmark.isWireSafe_of_parse (readBookmark_eq_ok_iff.1 (plan_eq_ok_iff.1 hplan).2.1).1

theorem cursorError?_of_plan {plan : Plan m α} (hplan : g.plan request = .ok plan) :
    cursorError? g.merge.sourceOrder plan.bookmark = none :=
  (readBookmark_eq_ok_iff.1 (plan_eq_ok_iff.1 hplan).2.1).2

/-- Sources that take part are aligned, if both orders agree on their rows. -/
theorem aligned_of_participants [Sortable α] {backends : List (StaticSource α)}
    {ask : StaticSource α → Source m α} (hask : ∀ s, (ask s).id = s.id) {ids : List String}
    (hsources : g.participants ids = .ok (backends.map ask))
    (horder : ∀ s ∈ backends, s.order = g.merge.sourceOrder)
    (hagrees : ∀ s ∈ backends, s.entities.Pairwise fun a b =>
      g.merge.sourceOrder.compare a b = g.merge.mergeOrder.compare a b) :
    g.merge.Aligned backends := by
  have hids := nodup_participants hsources
  have hsame : (backends.map ask).map (·.id) = backends.map (·.id) := by
    rw [List.map_map]
    exact List.map_congr_left fun s _ => hask s
  exact ⟨hsame ▸ hids, horder, hagrees⟩

/-- They serve the merge, if the orders also tell their rows apart. -/
theorem serves_of_participants [Sortable α] {backends : List (StaticSource α)}
    {ask : StaticSource α → Source m α} (hask : ∀ s, (ask s).id = s.id) {ids : List String}
    (hsources : g.participants ids = .ok (backends.map ask))
    (horder : ∀ s ∈ backends, s.order = g.merge.sourceOrder)
    (hrows : ∀ s ∈ backends, s.entities.Pairwise g.merge.Separates) : g.merge.Serves backends where
  toAligned := aligned_of_participants hask hsources horder
    fun s hs => (hrows s hs).imp And.left
  apart s hs := (hrows s hs).imp And.right

/-- A request that goes on from the bookmark that was handed out has the same plan but
for the bookmark. -/
theorem plan_next {plan : Plan m α} (hplan : g.plan request = .ok plan) {b : Bookmark}
    (hsafe : b.isWireSafe = true)
    (hcursor : cursorError? g.merge.sourceOrder b = none) :
    g.plan { request with continuation := some (toString b) } =
      .ok { plan with bookmark := b } := by
  obtain ⟨hsize, -, hsources⟩ := plan_eq_ok_iff.1 hplan
  exact plan_eq_ok_iff.2
    ⟨hsize, readBookmark_eq_ok_iff.2 ⟨Bookmark.parse_toString hsafe, hcursor⟩, hsources⟩

end Plan

/-- The cursors in the bookmark after a round can be read, if the texts of all rows can. -/
theorem cursorError?_round [Sortable α] {merge : Merge} {backends : List (StaticSource α)}
    (haligned : merge.Aligned backends) {b : Bookmark} (hb : b.isWireSafe = true)
    (hcursor : cursorError? merge.sourceOrder b = none) {n : Nat} (hn : 1 ≤ n)
    (down : String → Bool)
    (hrestores : ∀ s ∈ backends, ∀ row ∈ s.entities, s.order.Restores row) :
    cursorError? merge.sourceOrder (merge.round backends b n down).bookmark = none := by
  rw [cursorError?_eq_none_iff]
  intro id text hstate
  by_cases hid : id ∈ backends.map (·.id)
  · obtain ⟨s, hs, rfl⟩ := List.mem_map.1 hid
    rw [haligned.state_round hb hn hs] at hstate
    have hnext := Option.eq_some_of_filter_eq_some hstate
    rw [StaticSource.next] at hnext
    split at hnext
    · split at hnext
      · cases hnext
      · exact cursorError?_eq_none_iff.1 hcursor s.id text hnext
    · rename_i last hlast
      split at hnext
      · cases hnext
      · cases hnext
        obtain ⟨cursor, hparse, -⟩ := hrestores s hs last
          (haligned.mem_entities_of_mem_taken hs (List.mem_of_getLast? hlast))
        rw [← haligned.order s hs]
        exact ⟨some cursor, hparse⟩
  · rw [Merge.state_round_of_notMem hid] at hstate
    cases hstate

section Ask

variable [Monad m] {g : Gateway m α}

/-- A source that is finished is not asked. -/
theorem fetchSource_of_completed (source : Source m α) {b : Bookmark}
    (h : b.state source.id = some .completed) (n : Nat) :
    g.fetchSource b n source = pure (.completed source.id) := by
  rw [fetchSource]
  split
  · rfl
  · rename_i hopen
    exact absurd h hopen

/-- Any other source is asked to go on from its progress. -/
theorem fetchSource_of_open (source : Source m α) {b : Bookmark}
    (hopen : b.state source.id ≠ some .completed) (n : Nat) :
    g.fetchSource b n source =
      ExceptT.lift (source.fetch ((b.state source.id).map Progress.toRequested) n) >>=
        fun answer => ExceptT.mk (pure (interpret g.config.failurePolicy source.id
          ((b.state source.id).map Progress.toRequested) answer)) := by
  rw [fetchSource]
  split
  · rename_i h
    exact absurd h hopen
  · rfl

end Ask

variable [Sortable α] {g : Gateway m α} {request : PageRequest}

/-- Pages are merged into a page exactly when the bookmark after them is wire safe. -/
theorem mergePages_of_isWireSafe {pages : List (SourcePage α)} {n : Nat}
    (h : (g.merge.merge pages n).bookmark.isWireSafe = true) :
    g.mergePages pages n = .ok (g.merge.merge pages n) := by
  rw [mergePages, Bookmark.offender?_eq_none_iff.2 h]

theorem mergePages_eq_ok_iff {pages : List (SourcePage α)} {n : Nat} {page : MergedPage α} :
    g.mergePages pages n = .ok page ↔
      page = g.merge.merge pages n ∧ page.bookmark.isWireSafe = true := by
  constructor
  · intro h
    rw [mergePages] at h
    split at h
    · cases h
    · rename_i hnone
      cases h
      exact ⟨rfl, Bookmark.offender?_eq_none_iff.1 hnone⟩
  · rintro ⟨rfl, hsafe⟩
    exact mergePages_of_isWireSafe hsafe

section Monad

variable [Monad m] [LawfulMonad m]

theorem mapM_eq_pure {β γ : Type} {f : β → m γ} {h : β → γ} {items : List β}
    (heq : ∀ x ∈ items, f x = pure (h x)) : items.mapM f = pure (items.map h) := by
  induction items with
  | nil => rfl
  | cons x items ih =>
      rw [List.mapM_cons, heq x List.mem_cons_self,
        ih fun y hy => heq y (List.mem_cons_of_mem _ hy)]
      simp

/-- A static source answers with a page of what it has pending. -/
theorem fetchSource_toSource {b : Bookmark} {s : StaticSource α}
    (horder : s.order = g.merge.sourceOrder)
    (hcursor : cursorError? g.merge.sourceOrder b = none) (n : Nat) :
    g.fetchSource b n s.toSource = pure (s.answer (b.state s.id) n false) := by
  by_cases hopen : b.state s.id = some .completed
  · rw [fetchSource_of_completed s.toSource hopen, StaticSource.answer, if_pos hopen]
    rfl
  · obtain ⟨cursor, hread⟩ := exists_parseCursor (horder ▸ hcursor) hopen
    have hfetch := StaticSource.fetch_eq_ofBatch hopen hread n
    rw [fetchSource_of_open s.toSource hopen, StaticSource.id_toSource,
      StaticSource.fetch_toSource, hfetch, Except.mapError, ExceptT.lift_pure, pure_bind,
      StaticSource.answer, if_neg hopen]
    rfl

/-- A planned request is answered from its plan. -/
theorem fetch_eq_mergePages {plan : Plan m α} (hplan : g.plan request = .ok plan)
    {backends : List (StaticSource α)}
    (hbackends : plan.participants = backends.map StaticSource.toSource)
    (horder : ∀ s ∈ backends, s.order = g.merge.sourceOrder) :
    g.fetch request = ExceptT.mk (pure
      (g.mergePages (Merge.answers backends plan.bookmark plan.size Merge.allUp) plan.size)) := by
  have hcursor := cursorError?_of_plan hplan
  have hpages : plan.participants.mapM (g.fetchSource plan.bookmark plan.size) =
      pure (Merge.answers backends plan.bookmark plan.size Merge.allUp) := by
    rw [hbackends, List.mapM_map]
    exact mapM_eq_pure fun s hs => fetchSource_toSource (horder s hs) hcursor plan.size
  rw [fetch, hplan]
  change (pure plan : ExceptT GatewayError m _) >>= _ = _
  rw [pure_bind, hpages, pure_bind]

/-- The answer is the page of a round without failures, if the bookmark after it can be
carried. -/
theorem fetch_eq_round {plan : Plan m α} (hplan : g.plan request = .ok plan)
    {backends : List (StaticSource α)}
    (hbackends : plan.participants = backends.map StaticSource.toSource)
    (horder : ∀ s ∈ backends, s.order = g.merge.sourceOrder)
    (hsafe : (g.merge.round backends plan.bookmark plan.size
      Merge.allUp).bookmark.isWireSafe = true) :
    g.fetch request = pure (g.merge.round backends plan.bookmark plan.size Merge.allUp) := by
  rw [fetch_eq_mergePages hplan hbackends horder, mergePages_of_isWireSafe hsafe]
  rfl

end Monad

end Gateway

end MergedPaging
