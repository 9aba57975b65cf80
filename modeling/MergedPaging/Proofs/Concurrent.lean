/-
Sources that are asked at once.  A request gets a page in one way only, with the answers of all
its sources, and so whichever way they are asked.  Its errors may differ: if several sources
fail, then asked one after another the first of them ends the request, and asked at once any of
them may.  Both ways agree on every request whose sources do not fail in different ways.
-/
import MergedPaging.Proofs.FanOut

namespace MergedPaging

namespace Gateway

section Collects

variable {ε β γ : Type} {f : β → ExceptT ε Id γ} {items : List β} {parallel : Bool}
  {results : List γ} {error : ε}

/-- Steps that all succeed. -/
theorem run_mapM_eq_ok_iff_map :
    (items.mapM f).run = .ok results ↔
      (items.map fun item => (f item).run) = results.map .ok := by
  rw [run_mapM_eq_ok_iff, ← List.forall₂_eq_eq_eq, List.forall₂_map_left_iff,
    List.forall₂_map_right_iff]

/-- Steps of which one fails after others that succeed. -/
theorem run_mapM_eq_error_iff :
    (items.mapM f).run = .error error ↔ ∃ (results : List γ) (rest : List (Except ε γ)),
      (items.map fun item => (f item).run) = results.map .ok ++ .error error :: rest := by
  induction items with
  | nil =>
      refine iff_of_false nofun ?_
      rintro ⟨results, rest, h⟩
      exact List.append_ne_nil_of_right_ne_nil _ (List.cons_ne_nil _ _) h.symm
  | cons item items ih =>
      rw [run_mapM_cons, List.map_cons]
      cases (f item).run with
      | error first =>
          constructor
          · rintro ⟨⟩
            exact ⟨[], _, rfl⟩
          · rintro ⟨_ | ⟨result, results⟩, rest, h⟩
            · exact congrArg Except.error (Except.error.inj (List.cons.inj h).1)
            · cases (List.cons.inj h).1
      | ok first =>
          -- The first step succeeds, so the one that fails is among the others.
          have hlater : (Except.bind (.ok first) fun result =>
              (items.mapM f).run.bind fun rest => .ok (result :: rest)) = .error error ↔
                (items.mapM f).run = .error error := by
            cases (items.mapM f).run with
            | error later => exact Iff.rfl
            | ok later => exact iff_of_false nofun nofun
          rw [hlater, ih]
          constructor
          · rintro ⟨results, rest, h⟩
            exact ⟨first :: results, rest, congrArg _ h⟩
          · rintro ⟨_ | ⟨result, results⟩, rest, h⟩
            · cases (List.cons.inj h).1
            · exact ⟨results, rest, (List.cons.inj h).2⟩

/-- However replies are waited for, there are results only if all are results. -/
theorem collects_ok_iff :
    Collects parallel (items.map fun item => (f item).run) (.ok results) ↔
      (items.mapM f).run = .ok results := by
  rw [run_mapM_eq_ok_iff_map]
  constructor
  · rintro ⟨h⟩
    exact h
  · exact Collects.all

/-- The first error is one that there may be, and if the replies are asked for at once, so is
every other. -/
theorem collects_error_iff :
    Collects parallel (items.map fun item => (f item).run) (.error error) ↔
      (items.mapM f).run = .error error ∨
        parallel = true ∧ .error error ∈ items.map fun item => (f item).run := by
  constructor
  · rintro (_ | ⟨-, h⟩ | ⟨honce, h⟩)
    · exact Or.inl (run_mapM_eq_error_iff.2 ⟨_, _, h⟩)
    · exact Or.inr ⟨honce, h⟩
  · rintro (h | ⟨honce, h⟩)
    · obtain ⟨results, rest, h⟩ := run_mapM_eq_error_iff.1 h
      cases parallel with
      | false => exact .first rfl h
      | true => exact .any rfl (h ▸ List.mem_append_right _ List.mem_cons_self)
    · exact .any honce h

/-- What becomes of steps that are taken one after another may become of them. -/
theorem collects_run :
    Collects parallel (items.map fun item => (f item).run) (items.mapM f).run := by
  cases h : (items.mapM f).run with
  | error error => exact collects_error_iff.2 (Or.inl h)
  | ok results => exact collects_ok_iff.2 h

end Collects

variable {α : Type} {g : Gateway Id α} {plan : Plan Id α}

/-- A source that fails ends the request, for itself or for an earlier one. -/
theorem exists_gather_eq_error {error : GatewayError} (h : .error error ∈ g.replies plan) :
    ∃ first, g.gather plan = .error first := by
  cases hpages : g.gather plan with
  | error first => exact ⟨first, rfl⟩
  | ok pages =>
      have hreplies : g.replies plan = pages.map .ok := run_mapM_eq_ok_iff_map.1 hpages
      obtain ⟨page, -, hpage⟩ := List.mem_map.1 (hreplies ▸ h)
      cases hpage

/-- The error that ends a request is one of its sources'. -/
theorem mem_replies_of_gather {error : GatewayError} (h : g.gather plan = .error error) :
    .error error ∈ g.replies plan := by
  obtain ⟨results, rest, hreplies⟩ := run_mapM_eq_error_iff.1 h
  rw [replies, hreplies]
  exact List.mem_append_right _ List.mem_cons_self

variable [Sortable α] {request : PageRequest}

/-- A request that does not pass its checks gets the error that they found. -/
theorem mayAnswer_iff_of_refused {error : GatewayError} (hplan : g.plan request = .error error)
    {answer : Except GatewayError (MergedPage α)} :
    g.MayAnswer request answer ↔ answer = .error error := by
  constructor
  · rintro (h | ⟨h, -⟩ | ⟨h, -, -⟩)
    · exact congrArg Except.error (Except.error.inj (h.symm.trans hplan))
    · cases hplan.symm.trans h
    · cases hplan.symm.trans h
  · rintro rfl
    exact .refused hplan

/-- Any other request gets what becomes of the replies of its sources. -/
theorem mayAnswer_iff_of_planned (hplan : g.plan request = .ok plan)
    {answer : Except GatewayError (MergedPage α)} :
    g.MayAnswer request answer ↔
      ∃ result, Collects g.parallel (g.replies plan) result ∧
        (result.bind fun pages => g.mergePages pages plan.size) = answer := by
  constructor
  · rintro (h | ⟨h, hcollects⟩ | ⟨h, hcollects, hanswer⟩)
    · cases hplan.symm.trans h
    · cases hplan.symm.trans h
      exact ⟨_, hcollects, rfl⟩
    · cases hplan.symm.trans h
      exact ⟨_, hcollects, hanswer⟩
  · rintro ⟨error | pages, hcollects, rfl⟩
    · exact .failed hplan hcollects
    · exact .merged hplan hcollects rfl

/-- The answer to a request whose sources are asked one after another is one that it may get. -/
theorem mayAnswer_fetch (g : Gateway Id α) (request : PageRequest) :
    g.MayAnswer request (g.fetch request).run := by
  rw [run_fetch]
  cases hplan : g.plan request with
  | error error => exact .refused hplan
  | ok plan => exact (mayAnswer_iff_of_planned hplan).2 ⟨g.gather plan, collects_run, rfl⟩

/-- A page is the one that the request gets if its sources are asked one after another. -/
theorem mayAnswer_ok_iff {page : MergedPage α} :
    g.MayAnswer request (.ok page) ↔ (g.fetch request).run = .ok page := by
  constructor
  · rintro (_ | _ | ⟨hplan, hreplies, hanswer⟩)
    exact fetch_eq_ok_iff.2
      ⟨_, _, hplan, collects_ok_iff.1 hreplies, mergePages_eq_ok_iff.1 hanswer⟩
  · intro h
    rw [← h]
    exact mayAnswer_fetch g request

/-- The errors that a request may get: the one that it gets if its sources are asked one after
another, and if they are asked at once, those of all that fail. -/
theorem mayAnswer_error_iff {error : GatewayError} :
    g.MayAnswer request (.error error) ↔
      (g.fetch request).run = .error error ∨
        g.parallel = true ∧ ∃ plan, g.plan request = .ok plan ∧
          .error error ∈ g.replies plan := by
  constructor
  · rintro (hplan | ⟨hplan, hreplies⟩ | ⟨hplan, hreplies, hanswer⟩)
    · rw [run_fetch, hplan]
      exact Or.inl rfl
    · rcases collects_error_iff.1 hreplies with hfirst | ⟨honce, hmem⟩
      · have hpages : g.gather _ = .error error := hfirst
        rw [run_fetch, hplan, Except.bind, hpages]
        exact Or.inl rfl
      · exact Or.inr ⟨honce, _, hplan, hmem⟩
    · have hpages : g.gather _ = .ok _ := collects_ok_iff.1 hreplies
      rw [run_fetch, hplan, Except.bind, hpages]
      exact Or.inl hanswer
  · rintro (h | ⟨honce, plan, hplan, hmem⟩)
    · rw [← h]
      exact mayAnswer_fetch g request
    · exact .failed hplan (.any honce hmem)

/-- A request that may get a page gets this page and no error. -/
theorem MayAnswer.eq_ok {page : MergedPage α} {answer : Except GatewayError (MergedPage α)}
    (hpage : g.MayAnswer request (.ok page)) (h : g.MayAnswer request answer) :
    answer = .ok page := by
  have hfetch := mayAnswer_ok_iff.1 hpage
  cases answer with
  | ok other => exact (mayAnswer_ok_iff.1 h).symm.trans hfetch
  | error error =>
      rcases mayAnswer_error_iff.1 h with herror | ⟨-, plan, hplan, hmem⟩
      · cases hfetch.symm.trans herror
      · obtain ⟨plan', pages, hplan', hpages, -⟩ := fetch_eq_ok_iff.1 hfetch
        cases hplan.symm.trans hplan'
        obtain ⟨first, hfirst⟩ := exists_gather_eq_error hmem
        cases hpages.symm.trans hfirst

/-- There is one answer only, if all sources that fail do so in the same way. -/
theorem mayAnswer_iff_of_agree {answer : Except GatewayError (MergedPage α)}
    (hagree : ∀ plan, g.plan request = .ok plan → ∀ error error',
      .error error ∈ g.replies plan → .error error' ∈ g.replies plan → error = error') :
    g.MayAnswer request answer ↔ (g.fetch request).run = answer := by
  cases answer with
  | ok page => exact mayAnswer_ok_iff
  | error error =>
      rw [mayAnswer_error_iff]
      refine or_iff_left_of_imp ?_
      rintro ⟨-, plan, hplan, hmem⟩
      obtain ⟨first, hfirst⟩ := exists_gather_eq_error hmem
      rw [run_fetch, hplan, Except.bind, hfirst,
        hagree plan hplan error first hmem (mem_replies_of_gather hfirst)]
      rfl

/-- There is one answer only, if sources are asked one after another. -/
theorem mayAnswer_iff_of_sequential (hturn : g.parallel = false)
    {answer : Except GatewayError (MergedPage α)} :
    g.MayAnswer request answer ↔ (g.fetch request).run = answer := by
  cases answer with
  | ok page => exact mayAnswer_ok_iff
  | error error =>
      rw [mayAnswer_error_iff, hturn]
      exact or_iff_left nofun

/-- There is one answer only from one source. -/
theorem mayAnswer_iff_of_single {source : Source Id α}
    (hsources : g.participants request.sources = .ok [source])
    {answer : Except GatewayError (MergedPage α)} :
    g.MayAnswer request answer ↔ (g.fetch request).run = answer := by
  apply mayAnswer_iff_of_agree
  intro plan hplan error error' h h'
  have hparticipants := (plan_eq_ok_iff.1 hplan).2.2
  rw [replies, ← Except.ok.inj (hsources.symm.trans hparticipants)] at h h'
  exact Except.error.inj ((List.mem_singleton.1 h).trans (List.mem_singleton.1 h').symm)

/-- There is one answer only from static sources, which never fail. -/
theorem mayAnswer_iff_of_static {backends : List (StaticSource α)}
    (hsources : g.participants request.sources = .ok (backends.map StaticSource.toSource))
    (horder : ∀ s ∈ backends, s.order = g.merge.sourceOrder)
    {answer : Except GatewayError (MergedPage α)} :
    g.MayAnswer request answer ↔ (g.fetch request).run = answer := by
  apply mayAnswer_iff_of_agree
  intro plan hplan error _ hmem _
  have hparticipants := (plan_eq_ok_iff.1 hplan).2.2
  obtain ⟨source, hsource, hreply⟩ := List.mem_map.1 hmem
  rw [← Except.ok.inj (hsources.symm.trans hparticipants)] at hsource
  obtain ⟨s, hs, rfl⟩ := List.mem_map.1 hsource
  rw [fetchSource_toSource (horder s hs) (cursorError?_of_plan hplan)] at hreply
  cases hreply

/-- Whether sources are asked at once makes no difference to the pages. -/
theorem mayAnswer_withParallelism_ok_iff {parallel : Bool} {page : MergedPage α} :
    (g.withParallelism parallel).MayAnswer request (.ok page) ↔
      g.MayAnswer request (.ok page) := by
  rw [mayAnswer_ok_iff, mayAnswer_ok_iff]
  rfl

end Gateway

end MergedPaging
