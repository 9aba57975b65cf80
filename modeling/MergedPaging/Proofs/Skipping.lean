/-
Sources that fail and are skipped.  A gateway that takes a failing source for empty answers as
if the source had not been asked: with the same error, or with the same entities.  In the
bookmark such a source stays where the client put it, and the stream is not over.  If sources are
asked at once, so that the error may vary, it varies as it would without the source.
-/
import MergedPaging.Proofs.Concurrent
import MergedPaging.Proofs.Outage
import MergedPaging.Proofs.Refusal
import MergedPaging.Proofs.SingleSource

namespace MergedPaging

variable {α : Type}

/-- Steps that are left out, if they would have succeeded, leave out their results. -/
theorem run_mapM_filter {ε β γ : Type} {f : β → ExceptT ε Id γ} {keep : β → Bool}
    {keep' : γ → Bool} {items : List β}
    (hkeep : ∀ x ∈ items, ∀ y, (f x).run = .ok y → keep' y = keep x)
    (hskip : ∀ x ∈ items, keep x = false → ∃ y, (f x).run = .ok y) :
    ((items.filter keep).mapM f).run = (items.mapM f).run.map (List.filter keep') := by
  induction items with
  | nil => rfl
  | cons x items ih =>
      have ih := ih (fun y hy => hkeep y (List.mem_cons_of_mem _ hy))
        fun y hy => hskip y (List.mem_cons_of_mem _ hy)
      have hx := hkeep x List.mem_cons_self
      cases hkept : keep x with
      | true =>
          rw [List.filter_cons_of_pos hkept, run_mapM_cons, run_mapM_cons, ih]
          cases hresult : (f x).run with
          | error error => rfl
          | ok y =>
              have hy := (hx y hresult).trans hkept
              cases (items.mapM f).run with
              | error error => rfl
              | ok results => exact congrArg Except.ok (List.filter_cons_of_pos hy).symm
      | false =>
          obtain ⟨y, hresult⟩ := hskip x List.mem_cons_self hkept
          have hy := (hx y hresult).trans hkept
          rw [List.filter_cons_of_neg (by simp [hkept]), run_mapM_cons, ih, hresult]
          cases (items.mapM f).run with
          | error error => rfl
          | ok results =>
              exact congrArg Except.ok (List.filter_cons_of_neg (by simp [hy])).symm

namespace Bookmark

/-- Bookmarks that agree on the entries that cannot be carried have the same offender. -/
theorem offender?_congr {b b' : Bookmark} (h : ∀ id p, isWireSafeEntry (id, p) = false →
    (b.state id = some p ↔ b'.state id = some p)) : b.offender? = b'.offender? := by
  apply Option.ext
  intro id
  rw [offender?_eq_some_iff, offender?_eq_some_iff]
  apply and_congr
  · apply exists_congr
    intro p
    exact and_congr_left (h id p)
  · apply forall_congr'
    intro other
    apply forall_congr'
    intro p
    constructor
    · intro hleast hstate hbad
      exact hleast ((h other p hbad).2 hstate) hbad
    · intro hleast hstate hbad
      exact hleast ((h other p hbad).1 hstate) hbad

end Bookmark

/-- A page that stands for a source that failed: it has nothing on it and is not the last. -/
structure SourcePage.Idle (p : SourcePage α) : Prop where
  entities : p.page.entities = []
  continuation : p.page.continuation ≠ none

theorem SourcePage.Idle.supplied {p : SourcePage α} (h : p.Idle) : p.supplied = [] := by
  rw [SourcePage.supplied, h.entities, ite_self]

/-- A merged page next to the page of the other sources, after some have failed: it has the
same entities, and in its bookmark the failed sources stand where they stood before.  With a
failed source it is not the last page. -/
structure MergedPage.Adds (page rest : MergedPage α) (b : Bookmark) (failed : List String) :
    Prop where
  entities : page.page.entities = rest.page.entities
  added : ∀ id ∈ failed, rest.bookmark.state id = none ∧ page.bookmark.state id = b.state id
  others : ∀ id, id ∉ failed → page.bookmark.state id = rest.bookmark.state id
  continuation : failed ≠ [] → page.page.continuation = some (toString page.bookmark)

/-- The answer to a request next to the answer to the same request for the other sources, after
some have failed: it is the same error, or a page that adds the failed sources where the client
had put them. -/
inductive Extends (continuation : Option String) (failed : List String) :
    Except GatewayError (MergedPage α) → Except GatewayError (MergedPage α) → Prop
  | error {error : GatewayError} : Extends continuation failed (.error error) (.error error)
  | page {page rest : MergedPage α} {b : Bookmark}
      (hread : Bookmark.parse continuation = .ok b) (hadds : page.Adds rest b failed) :
      Extends continuation failed (.ok page) (.ok rest)

theorem Extends.eq_error_iff {continuation : Option String} {failed : List String}
    {answer rest : Except GatewayError (MergedPage α)} {error : GatewayError}
    (h : Extends continuation failed answer rest) :
    answer = .error error ↔ rest = .error error := by
  rcases h with _ | _
  · exact Iff.rfl
  · exact iff_of_false nofun nofun

namespace Merge

/-- The pages of the sources that have not failed. -/
def without (failed : List String) (pages : List (SourcePage α)) : List (SourcePage α) :=
  pages.filter fun p => p.sourceId ∉ failed

/-- Some of the pages stand for unfinished sources that failed, which were to go on from a
bookmark. -/
structure Skipped (b : Bookmark) (failed : List String) (pages : List (SourcePage α)) :
    Prop where
  ids : (pages.map (·.sourceId)).Nodup
  known : ∀ id ∈ failed, id ∈ pages.map (·.sourceId)
  unfinished : ∀ id ∈ failed, b.state id ≠ some .completed
  idle : ∀ p ∈ pages, p.sourceId ∈ failed → p.Idle
  requested : ∀ p ∈ pages, p.sourceId ∈ failed → p.requested = b.state p.sourceId

theorem pool_without {failed : List String} {pages : List (SourcePage α)}
    (hidle : ∀ p ∈ pages, p.sourceId ∈ failed → p.Idle) :
    pool (without failed pages) = pool pages := by
  induction pages with
  | nil => rfl
  | cons p pages ih =>
      have ih := ih fun q hq => hidle q (List.mem_cons_of_mem _ hq)
      rw [without, pool, pool] at ih
      rw [without, pool, pool, List.flatMap_cons, ← ih]
      by_cases hfailed : p.sourceId ∈ failed
      · have hnothing := (hidle p List.mem_cons_self hfailed).supplied
        rw [List.filter_cons_of_neg (by simpa using hfailed), hnothing]
        rfl
      · rw [List.filter_cons_of_pos (by simpa using hfailed), List.flatMap_cons]

variable [Sortable α] {m : Merge} {b : Bookmark} {failed : List String}
  {pages : List (SourcePage α)} {n : Nat}

theorem Skipped.winners_without (h : Skipped b failed pages) :
    m.winners (without failed pages) n = m.winners pages n := by
  rw [winners_eq, winners_eq, pool_without h.idle]

/-- A page with nothing on it leaves its source where it was. -/
theorem state_merge_of_idle (hids : (pages.map (·.sourceId)).Nodup) {p : SourcePage α}
    (hp : p ∈ pages) (hidle : p.Idle) (n : Nat) :
    (m.merge pages n).bookmark.state p.sourceId = p.requested := by
  have hsettled := settles_state (m := m) hids hp n
  by_cases hdone : (m.merge pages n).bookmark.state p.sourceId = some .completed
  · have hcompleted := (hsettled.completed_iff.1 hdone).resolve_right
      fun hlast => hidle.continuation hlast.1
    rw [hdone, SourcePage.requested_eq_completed_iff.2 hcompleted]
  · have hlength := length_won_winners_le (m := m) hids hp n
    rw [hidle.supplied, List.length_nil, Nat.le_zero, List.length_eq_zero_iff] at hlength
    exact hsettled.kept hdone hlength

/-- The failed sources stand where they stood before. -/
theorem Skipped.state_failed (h : Skipped b failed pages) {id : String} (hid : id ∈ failed) :
    (m.merge pages n).bookmark.state id = b.state id := by
  obtain ⟨p, hp, rfl⟩ := List.mem_map.1 (h.known id hid)
  rw [state_merge_of_idle h.ids hp (h.idle p hp hid), h.requested p hp hid]

/-- Without their pages nothing is known of the failed sources. -/
theorem state_without_of_failed {id : String} (hid : id ∈ failed) :
    (m.merge (without failed pages) n).bookmark.state id = none := by
  apply state_bookmark_of_notMem
  intro hmem
  obtain ⟨p, hp, rfl⟩ := List.mem_map.1 hmem
  exact absurd hid (by simpa using (List.mem_filter.1 hp).2)

/-- The other sources advance as they do without the failed ones. -/
theorem Skipped.state_others (h : Skipped b failed pages) {id : String} (hid : id ∉ failed) :
    (m.merge pages n).bookmark.state id =
      (m.merge (without failed pages) n).bookmark.state id := by
  change (m.bookmark pages _).state id = (m.bookmark (without failed pages) _).state id
  rw [h.winners_without]
  by_cases hknown : id ∈ pages.map (·.sourceId)
  · obtain ⟨p, hp, rfl⟩ := List.mem_map.1 hknown
    have hids : ((without failed pages).map (·.sourceId)).Nodup :=
      h.ids.sublist (List.filter_sublist.map _)
    have hkept : p ∈ without failed pages := List.mem_filter.2 ⟨hp, by simpa using hid⟩
    rw [state_bookmark h.ids _ hp, state_bookmark hids _ hkept]
  · have hknown' : id ∉ (without failed pages).map (·.sourceId) :=
      fun hmem => hknown ((List.filter_sublist.map _).subset hmem)
    rw [state_bookmark_of_notMem hknown, state_bookmark_of_notMem hknown']

/-- A source that failed is never the reason why a page is refused: its progress came out of a
text. -/
theorem Skipped.offender?_merge (h : Skipped b failed pages) (hsafe : b.isWireSafe = true) :
    (m.merge pages n).bookmark.offender? =
      (m.merge (without failed pages) n).bookmark.offender? := by
  apply Bookmark.offender?_congr
  intro id state hbad
  by_cases hid : id ∈ failed
  · rw [h.state_failed hid, state_without_of_failed hid]
    refine iff_of_false ?_ nofun
    intro hstate
    cases (Bookmark.isWireSafeEntry_of_isWireSafe hsafe hstate).symm.trans hbad
  · rw [h.state_others hid]

/-- Pages that stand for failures add nothing to a merge but the progress of their sources. -/
theorem Skipped.adds_merge (h : Skipped b failed pages) :
    (m.merge pages n).Adds (m.merge (without failed pages) n) b failed where
  entities := congrArg (List.map Prod.snd) h.winners_without.symm
  added _ hid := ⟨state_without_of_failed hid, h.state_failed hid⟩
  others _ hid := h.state_others hid
  continuation hfailed := by
    obtain ⟨id, hid⟩ := List.exists_mem_of_ne_nil _ hfailed
    have hopen : (m.merge pages n).bookmark.state id ≠ some .completed := by
      rw [h.state_failed hid]
      exact h.unfinished id hid
    apply if_neg
    intro hall
    have hdone := List.all_eq_true.1 hall id (h.known id hid)
    exact hopen (beq_iff_eq.1 hdone)

end Merge

/-- A source that fails when it is asked to go on from a bookmark. -/
def Source.Fails (s : Source Id α) (b : Bookmark) (n : Nat) : Prop :=
  b.state s.id ≠ some .completed ∧ ∃ failure : Failure,
    s.fetch ((b.state s.id).map Progress.toRequested) n = .error failure.toError

namespace Gateway

open Merge

/-- The plan without some of its sources. -/
def Plan.without (failed : List String) (plan : Plan Id α) : Plan Id α :=
  { plan with participants := plan.participants.filter fun s => s.id ∉ failed }

variable {g : Gateway Id α} {request : PageRequest} {names failed : List String}
  {sources : List (Source Id α)} {plan : Plan Id α}

/-- A choice by id is known from the ids that are chosen. -/
theorem mem_ids_filter_iff (chosen : String → Bool) {s : Source Id α} (hs : s ∈ sources) :
    s.id ∈ (sources.filter fun s => chosen s.id).map (·.id) ↔ chosen s.id = true := by
  constructor
  · intro hid
    obtain ⟨other, hother, hsame⟩ := List.mem_map.1 hid
    rw [← hsame]
    exact (List.mem_filter.1 hother).2
  · intro hchosen
    exact List.mem_map_of_mem (List.mem_filter.2 ⟨hs, hchosen⟩)

/-- Naming the sources that have not failed leaves out those that have. -/
theorem participants_without {ids : List String} (hsources : g.participants ids = .ok sources)
    (hsome : ∃ s ∈ sources, s.id ∉ failed)
    (hnames : ∀ id, id ∈ names ↔ id ∈ sources.map (·.id) ∧ id ∉ failed) :
    g.participants names = .ok (sources.filter fun s => s.id ∉ failed) := by
  rw [participants] at hsources
  split at hsources
  · cases hsources
  · cases hsources
    have hknown : ∀ id ∈ names, ∃ s, g.source? id = some s := by
      intro id hid
      obtain ⟨s, hs, rfl⟩ := List.mem_map.1 ((hnames id).1 hid).1
      exact ⟨s, source?_of_mem_available (List.mem_of_mem_filter hs)⟩
    have hne : names ≠ [] := by
      obtain ⟨s, hs, hkept⟩ := hsome
      exact List.ne_nil_of_mem ((hnames s.id).2 ⟨List.mem_map_of_mem hs, hkept⟩)
    rw [participants_of_known hne hknown, List.filter_filter]
    -- Whether a source takes part depends on its id alone, and ids may be named in any order.
    refine congrArg Except.ok (List.filter_congr ?_)
    intro s hs
    rw [Bool.eq_iff_iff, List.contains_iff_mem, hnames, Bool.and_eq_true,
      decide_eq_true_eq, and_comm]
    exact and_congr_right' (mem_ids_filter_iff (fun id => ids.isEmpty || ids.contains id) hs)

/-- The restricted request has the same plan but for its sources, or fails alike. -/
theorem plan_without (hsources : g.participants request.sources = .ok sources)
    (hsome : ∃ s ∈ sources, s.id ∉ failed)
    (hnames : ∀ id, id ∈ names ↔ id ∈ sources.map (·.id) ∧ id ∉ failed) :
    g.plan { request with sources := names } = (g.plan request).map (Plan.without failed) := by
  rw [plan, plan, hsources, participants_without hsources hsome hnames]
  cases g.resolveSize request.size with
  | error error => rfl
  | ok size =>
      cases g.readBookmark request.continuation with
      | error error => rfl
      | ok b => rfl

/-- A failure that is skipped leaves a page that stands for it. -/
theorem fetchSource_of_fails (hpolicy : g.config.failurePolicy = .skipAsEmpty) {s : Source Id α}
    {b : Bookmark} {n : Nat} (h : s.Fails b n) :
    ∃ p, (g.fetchSource b n s).run = .ok p ∧ p.Idle := by
  obtain ⟨hopen, failure, hfailure⟩ := h
  have hanswer : (g.fetchSource b n s).run = interpret .skipAsEmpty s.id
      ((b.state s.id).map Progress.toRequested) (.error failure.toError) := by
    rw [fetchSource_of_open s hopen, hpolicy, hfailure]
    rfl
  rw [hanswer, interpret_failure]
  exact ⟨_, rfl, rfl, Option.some_ne_none _⟩

/-- Without the sources that fail, the others answer as they did. -/
theorem gather_without (hpolicy : g.config.failurePolicy = .skipAsEmpty)
    (hfails : ∀ s ∈ plan.participants, s.id ∈ failed → s.Fails plan.bookmark plan.size) :
    g.gather (plan.without failed) = (g.gather plan).map (Merge.without failed) := by
  apply run_mapM_filter
  · intro s _ p hp
    rw [(answered_of_fetchSource hp).sourceId]
  · intro s hs hfailed
    obtain ⟨p, hp, -⟩ := fetchSource_of_fails hpolicy (hfails s hs (by simpa using hfailed))
    exact ⟨p, hp⟩

/-- Nor do they leave out an error: a failure that is skipped is none. -/
theorem mem_replies_without_iff (hpolicy : g.config.failurePolicy = .skipAsEmpty)
    (hfails : ∀ s ∈ plan.participants, s.id ∈ failed → s.Fails plan.bookmark plan.size)
    {error : GatewayError} :
    .error error ∈ g.replies (plan.without failed) ↔ .error error ∈ g.replies plan := by
  rw [replies, replies, List.mem_map, List.mem_map]
  constructor
  · rintro ⟨s, hs, hreply⟩
    exact ⟨s, List.mem_of_mem_filter hs, hreply⟩
  · rintro ⟨s, hs, hreply⟩
    refine ⟨s, List.mem_filter.2 ⟨hs, decide_eq_true ?_⟩, hreply⟩
    intro hfailed
    obtain ⟨p, hp, -⟩ := fetchSource_of_fails hpolicy (hfails s hs hfailed)
    cases hreply.symm.trans hp

theorem skipped_of_gather (hpolicy : g.config.failurePolicy = .skipAsEmpty)
    (hplan : g.plan request = .ok plan) {pages : List (SourcePage α)}
    (hpages : g.gather plan = .ok pages)
    (hknown : ∀ id ∈ failed, id ∈ plan.participants.map (·.id))
    (hfails : ∀ s ∈ plan.participants, s.id ∈ failed → s.Fails plan.bookmark plan.size) :
    Skipped plan.bookmark failed pages where
  ids := nodup_of_gather hplan hpages
  known id hid := sourceIds_of_gather hpages ▸ hknown id hid
  unfinished id hid := by
    obtain ⟨s, hs, rfl⟩ := List.mem_map.1 (hknown id hid)
    exact (hfails s hs hid).1
  idle p hp hid := by
    obtain ⟨s, hs, hanswer⟩ := exists_of_forall₂ (gather_eq_ok_iff.1 hpages) hp
    rw [(answered_of_fetchSource hanswer).sourceId] at hid
    obtain ⟨q, hq, hidle⟩ := fetchSource_of_fails hpolicy (hfails s hs hid)
    cases hanswer.symm.trans hq
    exact hidle
  requested p hp _ := by
    obtain ⟨s, _, hanswered⟩ := exists_answered hpages hp
    rw [requested_of_answered hplan hanswered, hanswered.sourceId]

variable [Sortable α]

section Failed

variable (hpolicy : g.config.failurePolicy = .skipAsEmpty)
  (hsources : g.participants request.sources = .ok sources)
  (hknown : ∀ id ∈ failed, id ∈ sources.map (·.id)) (hsome : ∃ s ∈ sources, s.id ∉ failed)
  (hfails : ∀ plan, g.plan request = .ok plan →
    ∀ s ∈ sources, s.id ∈ failed → s.Fails plan.bookmark plan.size)
  (hnames : ∀ id, id ∈ names ↔ id ∈ sources.map (·.id) ∧ id ∉ failed)

include hpolicy hsources hknown hsome hfails hnames

/-- Asked one after another, sources of which some fail answer like the others alone. -/
theorem extends_fetch :
    Extends request.continuation failed (g.fetch request).run
      (g.fetch { request with sources := names }).run := by
  rw [run_fetch, run_fetch, plan_without hsources hsome hnames]
  cases hplan : g.plan request with
  | error error => exact .error
  | ok plan =>
      obtain ⟨-, hread, hparticipants⟩ := plan_eq_ok_iff.1 hplan
      obtain rfl : sources = plan.participants := Except.ok.inj (hsources.symm.trans hparticipants)
      have hfails := hfails plan hplan
      simp only [Except.map, Except.bind, gather_without hpolicy hfails]
      cases hpages : g.gather plan with
      | error error => exact .error
      | ok pages =>
          have hskipped := skipped_of_gather hpolicy hplan hpages hknown hfails
          have hoffender := hskipped.offender?_merge (m := g.merge) (n := plan.size)
            (isWireSafe_of_plan hplan)
          simp only [mergePages, Plan.without, hoffender]
          cases (g.merge.merge (Merge.without failed pages) plan.size).bookmark.offender? with
          | some id => exact .error
          | none => exact .page (readBookmark_eq_ok_iff.1 hread).1 hskipped.adds_merge

/-- Asked at once, they may end the request with the same errors. -/
theorem mayAnswer_error_without_iff {error : GatewayError} :
    g.MayAnswer request (.error error) ↔
      g.MayAnswer { request with sources := names } (.error error) := by
  rw [mayAnswer_error_iff, mayAnswer_error_iff]
  apply or_congr (extends_fetch hpolicy hsources hknown hsome hfails hnames).eq_error_iff
  apply and_congr_right'
  rw [plan_without hsources hsome hnames]
  cases hplan : g.plan request with
  | error first =>
      constructor
      · rintro ⟨plan, ⟨⟩, -⟩
      · rintro ⟨plan, ⟨⟩, -⟩
  | ok plan =>
      have hparticipants := (plan_eq_ok_iff.1 hplan).2.2
      obtain rfl : sources = plan.participants := Except.ok.inj (hsources.symm.trans hparticipants)
      have hmem : .error error ∈ g.replies (plan.without failed) ↔ .error error ∈ g.replies plan :=
        mem_replies_without_iff hpolicy (hfails plan hplan)
      constructor
      · rintro ⟨_, ⟨⟩, hreply⟩
        exact ⟨_, rfl, hmem.2 hreply⟩
      · rintro ⟨_, ⟨⟩, hreply⟩
        exact ⟨_, rfl, hmem.1 hreply⟩

end Failed

/-- A request to a gateway that skips failures, some but not all of whose sources fail, ends
with the same error as the request for the other sources alone, or gives the same entities.
Then its bookmark is that of the other request, to which are added the failed sources where
the client had put them, and if there are any, it has a continuation.  If sources are asked at
once, then to every answer that one of the requests may get there is such an answer that the
other may get. -/
theorem fetch_without_failed (hpolicy : g.config.failurePolicy = .skipAsEmpty)
    (hsources : g.participants request.sources = .ok sources)
    (hknown : ∀ id ∈ failed, id ∈ sources.map (·.id)) (hsome : ∃ s ∈ sources, s.id ∉ failed)
    (hfails : ∀ plan, g.plan request = .ok plan →
      ∀ s ∈ sources, s.id ∈ failed → s.Fails plan.bookmark plan.size)
    (hnames : ∀ id, id ∈ names ↔ id ∈ sources.map (·.id) ∧ id ∉ failed) :
    Extends request.continuation failed (g.fetch request).run
        (g.fetch { request with sources := names }).run ∧
      (∀ answer, g.MayAnswer request answer →
        ∃ rest, g.MayAnswer { request with sources := names } rest ∧
          Extends request.continuation failed answer rest) ∧
      ∀ rest, g.MayAnswer { request with sources := names } rest →
        ∃ answer, g.MayAnswer request answer ∧
          Extends request.continuation failed answer rest := by
  have hfetch := extends_fetch hpolicy hsources hknown hsome hfails hnames
  have herror (error : GatewayError) : g.MayAnswer request (.error error) ↔
      g.MayAnswer { request with sources := names } (.error error) :=
    mayAnswer_error_without_iff hpolicy hsources hknown hsome hfails hnames
  refine ⟨hfetch, ?_, ?_⟩
  · intro answer h
    cases answer with
    | error error => exact ⟨.error error, (herror error).1 h, .error⟩
    | ok page =>
        rw [mayAnswer_ok_iff.1 h] at hfetch
        exact ⟨_, mayAnswer_fetch _ _, hfetch⟩
  · intro rest h
    cases rest with
    | error error => exact ⟨.error error, (herror error).2 h, .error⟩
    | ok rest =>
        rw [mayAnswer_ok_iff.1 h] at hfetch
        exact ⟨_, mayAnswer_fetch _ _, hfetch⟩

end Gateway

namespace Sample

open Gateway

/-- A source that rejects every request. -/
def broken : Source Id Item where
  id := "east"
  fetch _ _ := .error (.rejected "quota exceeded")

def brokenGateway : Gateway Id Item :=
  gateway byTime .skipAsEmpty broken west.toSource rfl id_west

/-- The broken source keeps its place, and the page is not the last although the other source
is finished. -/
theorem broken_keeps_place :
    ∃ page rest b, (brokenGateway.fetch { continuation := some "east:1000_1" }).run = .ok page ∧
      (brokenGateway.fetch { continuation := some "east:1000_1", sources := ["west"] }).run =
        .ok rest ∧
      Bookmark.parse (some "east:1000_1") = .ok b ∧ page.Adds rest b ["east"] ∧
      page.page.continuation = some "east:1000_1;west:COMPLETED" := by
  have hfetch : ∃ page,
      (brokenGateway.fetch { continuation := some "east:1000_1" }).run = .ok page ∧
        page.page.continuation = some "east:1000_1;west:COMPLETED" := ⟨_, by cbv, by cbv⟩
  obtain ⟨page, hpage, hnext⟩ := hfetch
  have hsources : brokenGateway.participants [] = .ok [broken, west.toSource] := by rfl
  have hfails : ∀ plan, brokenGateway.plan { continuation := some "east:1000_1" } = .ok plan →
      ∀ s ∈ [broken, west.toSource], s.id ∈ ["east"] → s.Fails plan.bookmark plan.size := by
    intro plan hplan
    have hread := (readBookmark_eq_ok_iff.1 (plan_eq_ok_iff.1 hplan).2.1).1
    have hparse : Bookmark.parse (some "east:1000_1") =
        .ok (.ofSource "east" (some (.active "1000_1"))) :=
      @Bookmark.parse_under "east" "1000_1" east_isWireSafe (by decide)
    have hopen : plan.bookmark.state "east" ≠ some .completed := by
      rw [← Except.ok.inj (hparse.symm.trans hread), Bookmark.state_ofSource]
      decide
    rw [List.forall_mem_cons, List.forall_mem_singleton]
    refine ⟨fun _ => ⟨hopen, .rejected "quota exceeded", rfl⟩, ?_⟩
    intro hwest
    exact absurd hwest (by decide)
  have hknown : ∀ id ∈ ["east"], id ∈ [broken, west.toSource].map (·.id) := by decide
  have hnames (id : String) : id ∈ ["west"] ↔ id ∈ ["east", "west"] ∧ id ∉ ["east"] := by
    simp only [List.mem_cons, List.not_mem_nil, or_false]
    refine ⟨?_, fun h => h.1.resolve_left h.2⟩
    rintro rfl
    exact ⟨Or.inr rfl, by decide⟩
  obtain ⟨hextends, -, -⟩ :=
    fetch_without_failed rfl hsources hknown ⟨west.toSource, by simp, by decide⟩ hfails hnames
  rw [hpage] at hextends
  cases hrest : (brokenGateway.fetch
      { continuation := some "east:1000_1", sources := ["west"] }).run with
  | error error =>
      rw [hrest] at hextends
      cases hextends
  | ok rest =>
      rw [hrest] at hextends
      obtain _ | ⟨hparse, hadds⟩ := hextends
      exact ⟨page, rest, _, hpage, rfl, hparse, hadds, hnext⟩

end Sample

end MergedPaging
