/-
A request to a gateway whose sources answer at once.  It is checked, then every source that
takes part is asked, then the answers are merged; each of the three stages may end it.  An
answer carries the progress of its source to the merge, and every entity in it comes from
that source.
-/
import MergedPaging.Proofs.Request
import Mathlib.Data.List.Forall2

namespace MergedPaging

variable {α : Type}

/-- Without effects, one step after another is one result after another. -/
theorem run_bind {ε β γ : Type} (x : ExceptT ε Id β) (f : β → ExceptT ε Id γ) :
    (x >>= f).run = x.run.bind fun b => (f b).run := by
  rw [ExceptT.run_bind]
  cases x.run <;> rfl

theorem run_mapM_cons {ε β γ : Type} (f : β → ExceptT ε Id γ) (item : β) (items : List β) :
    ((item :: items).mapM f).run = (f item).run.bind fun result =>
      (items.mapM f).run.bind fun rest => .ok (result :: rest) := by
  rw [List.mapM_cons, run_bind]
  simp only [run_bind]
  rfl

/-- Steps that all succeed, one result for each item. -/
theorem run_mapM_eq_ok_iff {ε β γ : Type} {f : β → ExceptT ε Id γ} {items : List β}
    {results : List γ} :
    (items.mapM f).run = .ok results ↔
      List.Forall₂ (fun item result => (f item).run = .ok result) items results := by
  induction items generalizing results with
  | nil =>
      cases results with
      | nil => exact iff_of_true rfl List.Forall₂.nil
      | cons result results => exact iff_of_false nofun nofun
  | cons item items ih =>
      rw [run_mapM_cons]
      cases hitem : (f item).run with
      | error error =>
          refine iff_of_false nofun ?_
          rintro (_ | ⟨hitem', -⟩)
          cases hitem.symm.trans hitem'
      | ok result =>
          cases hitems : (items.mapM f).run with
          | error error =>
              refine iff_of_false nofun ?_
              rintro (_ | ⟨-, hrest⟩)
              cases hitems.symm.trans (ih.2 hrest)
          | ok rest =>
              constructor
              · intro h
                cases h
                exact List.Forall₂.cons hitem (ih.1 hitems)
              · rintro (_ | ⟨hitem', hrest⟩)
                cases hitem.symm.trans hitem'
                cases hitems.symm.trans (ih.2 hrest)
                rfl

/-- What is on the right has a partner on the left. -/
theorem exists_of_forall₂ {β γ : Type} {R : β → γ → Prop} {left : List β} {right : List γ}
    (h : List.Forall₂ R left right) {y : γ} (hy : y ∈ right) : ∃ x ∈ left, R x y := by
  induction h with
  | nil => cases hy
  | cons hxy _ ih =>
      rcases List.mem_cons.1 hy with rfl | hy
      · exact ⟨_, List.mem_cons_self, hxy⟩
      · obtain ⟨x, hx, hxy⟩ := ih hy
        exact ⟨x, List.mem_cons_of_mem _ hx, hxy⟩

/-- What the merge gets from a source that was asked from a bookmark on: its progress, and
entities that it delivered just now. -/
structure Source.Answered (s : Source Id α) (b : Bookmark) (n : Nat) (p : SourcePage α) :
    Prop where
  sourceId : p.sourceId = s.id
  requested : p.requestedContinuation = (b.state s.id).map Progress.toRequested
  supplied : ∀ row ∈ p.supplied, b.state s.id ≠ some .completed ∧ ∃ delivered,
    s.fetch ((b.state s.id).map Progress.toRequested) n = .ok delivered ∧
      row ∈ delivered.entities

namespace Gateway

variable {g : Gateway Id α} {plan : Plan Id α} {pages : List (SourcePage α)}

/-- The answers of all sources that take part, unless one of them ends the request. -/
def gather (g : Gateway Id α) (plan : Plan Id α) : Except GatewayError (List (SourcePage α)) :=
  (plan.participants.mapM (g.fetchSource plan.bookmark plan.size)).run

/-- An answer is taken as it is, and a failure that is skipped as nothing. -/
theorem of_interpret_eq_ok {policy : FailurePolicy} {id : String} {requested : Option String}
    {answer : Except SourceError (Page α)} {p : SourcePage α}
    (h : interpret policy id requested answer = .ok p) :
    p.sourceId = id ∧ p.requestedContinuation = requested ∧
      ∀ row ∈ p.page.entities, ∃ delivered, answer = .ok delivered ∧ row ∈ delivered.entities := by
  unfold interpret at h
  split at h
  · cases h
    exact ⟨rfl, rfl, fun row hrow => ⟨_, rfl, hrow⟩⟩
  · cases h
  · split at h
    · cases h
    · cases h
      exact ⟨rfl, rfl, fun row hrow => absurd hrow List.not_mem_nil⟩

/-- The answer of a source comes with its own progress. -/
theorem answered_of_fetchSource {s : Source Id α} {b : Bookmark} {n : Nat} {p : SourcePage α}
    (h : (g.fetchSource b n s).run = .ok p) : s.Answered b n p := by
  by_cases hopen : b.state s.id = some .completed
  · rw [fetchSource_of_completed s hopen] at h
    cases h
    refine ⟨rfl, by rw [hopen]; rfl, ?_⟩
    intro row hrow
    have hnone : (SourcePage.completed s.id : SourcePage α).supplied = [] :=
      if_pos (beq_self_eq_true _)
    exact absurd (hnone ▸ hrow) List.not_mem_nil
  · rw [fetchSource_of_open s hopen] at h
    obtain ⟨hid, hrequested, hrows⟩ := of_interpret_eq_ok h
    refine ⟨hid, hrequested, ?_⟩
    intro row hrow
    rw [SourcePage.supplied] at hrow
    split at hrow
    · exact absurd hrow List.not_mem_nil
    · exact ⟨hopen, hrows row hrow⟩

theorem gather_eq_ok_iff :
    g.gather plan = .ok pages ↔ List.Forall₂
      (fun s p => (g.fetchSource plan.bookmark plan.size s).run = .ok p)
      plan.participants pages :=
  run_mapM_eq_ok_iff

theorem answered_of_gather (h : g.gather plan = .ok pages) :
    List.Forall₂ (fun s p => Source.Answered s plan.bookmark plan.size p)
      plan.participants pages :=
  (gather_eq_ok_iff.1 h).imp fun _ _ => answered_of_fetchSource

/-- Every answer comes from a source that takes part. -/
theorem exists_answered {p : SourcePage α} (h : g.gather plan = .ok pages) (hp : p ∈ pages) :
    ∃ s ∈ plan.participants, s.Answered plan.bookmark plan.size p :=
  exists_of_forall₂ (answered_of_gather h) hp

/-- The answers stand under the ids of the sources that take part. -/
theorem sourceIds_of_gather (h : g.gather plan = .ok pages) :
    pages.map (·.sourceId) = plan.participants.map (·.id) := by
  rw [eq_comm, ← List.forall₂_eq_eq_eq, List.forall₂_map_left_iff, List.forall₂_map_right_iff]
  exact (answered_of_gather h).imp fun _ _ hanswered => hanswered.sourceId.symm

theorem nodup_of_gather {request : PageRequest} (hplan : g.plan request = .ok plan)
    (h : g.gather plan = .ok pages) : (pages.map (·.sourceId)).Nodup := by
  rw [sourceIds_of_gather h]
  exact nodup_participants (plan_eq_ok_iff.1 hplan).2.2

variable [Sortable α]

/-- The three stages of a request. -/
theorem run_fetch (g : Gateway Id α) (request : PageRequest) :
    (g.fetch request).run = (g.plan request).bind fun plan =>
      (g.gather plan).bind fun pages => g.mergePages pages plan.size := by
  rw [fetch, run_bind]
  simp only [run_bind]
  rfl

/-- An answered request has passed all three stages. -/
theorem fetch_eq_ok_iff {request : PageRequest} {page : MergedPage α} :
    (g.fetch request).run = .ok page ↔ ∃ plan pages, g.plan request = .ok plan ∧
      g.gather plan = .ok pages ∧ page = g.merge.merge pages plan.size ∧
        page.bookmark.isWireSafe = true := by
  rw [run_fetch]
  constructor
  · intro h
    cases hplan : g.plan request with
    | error error =>
        rw [hplan] at h
        cases h
    | ok plan =>
        rw [hplan] at h
        cases hpages : g.gather plan with
        | error error =>
            rw [Except.bind, hpages] at h
            cases h
        | ok pages =>
            rw [Except.bind, hpages] at h
            exact ⟨plan, pages, rfl, hpages, mergePages_eq_ok_iff.1 h⟩
  · rintro ⟨plan, pages, hplan, hpages, hpage⟩
    rw [hplan, Except.bind, hpages]
    exact mergePages_eq_ok_iff.2 hpage

end Gateway

end MergedPaging
