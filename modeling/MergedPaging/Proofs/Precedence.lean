/-
Why a request is refused before any source is asked.  Four checks are made in a fixed order,
and the first that fails is the answer, however the sources behave and whatever rows they
have.  Over static sources nothing can go wrong after the checks but that a bookmark cannot
carry the progress that was made, and it does not matter what would become of failures.
-/
import MergedPaging.Proofs.SingleSource

namespace MergedPaging

open Std

/-- What the checks of a request look at: neither the rows of the sources, nor what becomes of
failures. -/
structure Terms where
  sourceOrder : SortOrder
  maxSize : Nat
  sources : SourcesConfig
  registered : List String
  deriving DecidableEq

theorem exists_eq_ok {ε β : Type} {x : Except ε β} (h : ∀ error, x ≠ .error error) :
    ∃ b, x = .ok b := by
  cases x with
  | ok b => exact ⟨b, rfl⟩
  | error error => exact absurd rfl (h error)

/-- What is found first in a map is found under the least key under which there is anything. -/
theorem SortedMap.exists_least_of_findSome? {κ ν γ : Type} [Ord κ] [TransOrd κ]
    {m : SortedMap κ ν} {f : κ × ν → Option γ} {x : γ} (h : m.entries.findSome? f = some x) :
    ∃ entry ∈ m.entries, f entry = some x ∧
      ∀ other ∈ m.entries, (f other).isSome = true → (compare entry.1 other.1).isLE := by
  obtain ⟨before, entry, after, hsplit, hfound, hnone⟩ := List.findSome?_eq_some_iff.1 h
  have hfirst : m.entries.find? (fun e => (f e).isSome) = some entry := by
    rw [List.find?_eq_some_iff_append]
    refine ⟨by simp [hfound], before, after, hsplit, ?_⟩
    intro other hother
    simp [hnone other hother]
  refine ⟨entry, by simp [hsplit], hfound, ?_⟩
  intro other hother hsome
  exact isLE_of_find? hfirst hother hsome

namespace Terms

/-- A source that can take part. -/
def Knows (t : Terms) (id : String) : Prop :=
  id ∈ t.registered ∧ t.sources.isEnabled id = true

/-- A request that does not ask for too large a page. -/
def Admits (t : Terms) (request : PageRequest) : Prop :=
  ∀ size, request.size = some size → size ≤ t.maxSize

/-- A source to whose cursor in a bookmark its stream cannot go on, and why. -/
def Malformed (t : Terms) (b : Bookmark) (id : String) (error : CursorError) : Prop :=
  ∃ cursor, b.state id = some (.active cursor) ∧
    t.sourceOrder.parseCursor (some cursor) = .error error

/-- Why a request is refused: for its size, else for the text of its continuation, else for
the first malformed cursor in it, by source, whether the source takes part or not, and else for
the first source that it names and that cannot take part. -/
inductive Refuses (t : Terms) (request : PageRequest) : GatewayError → Prop
  | size {size : Nat} (hsize : request.size = some size) (hlimit : t.maxSize < size) :
      Refuses t request (.pageSizeTooLarge size t.maxSize)
  | text {error : CursorError} (hadmits : t.Admits request)
      (hparse : Bookmark.parse request.continuation = .error error) :
      Refuses t request (.badContinuation error)
  | cursor {b : Bookmark} {id : String} {error : CursorError} (hadmits : t.Admits request)
      (hparse : Bookmark.parse request.continuation = .ok b) (hbad : t.Malformed b id error)
      (hfirst : ∀ other error', t.Malformed b other error' → (compare id other).isLE) :
      Refuses t request (.badContinuation error)
  | source {b : Bookmark} {before after : List String} {id : String} (hadmits : t.Admits request)
      (hparse : Bookmark.parse request.continuation = .ok b)
      (hcursors : ∀ other error, ¬ t.Malformed b other error)
      (hnames : request.sources = before ++ id :: after)
      (hbefore : ∀ name ∈ before, t.Knows name) (hunknown : ¬ t.Knows id) :
      Refuses t request (.unknownSource id)

end Terms

namespace Gateway

section Plan

variable {m : Type → Type} {α : Type} {g : Gateway m α} {request : PageRequest}

def terms (g : Gateway m α) : Terms where
  sourceOrder := g.merge.sourceOrder
  maxSize := g.config.paging.maxSize
  sources := g.config.sources
  registered := g.sources.keys

theorem exists_source?_iff {id : String} :
    (∃ source, g.source? id = some source) ↔ g.terms.Knows id := by
  simp only [source?_eq_some_iff, exists_and_right, Terms.Knows]
  apply and_congr_left
  intro _
  constructor
  · rintro ⟨source, hsource⟩
    exact List.mem_map_of_mem (SortedMap.mem_of_get?_eq_some hsource)
  · intro hid
    obtain ⟨entry, hentry, rfl⟩ := List.mem_map.1 hid
    exact ⟨entry.2, SortedMap.get?_eq_some_of_mem hentry⟩

theorem isNone_source?_iff {id : String} :
    (g.source? id).isNone = true ↔ ¬ g.terms.Knows id := by
  rw [← exists_source?_iff, ← Option.ne_none_iff_exists', not_not, Option.isNone_iff_eq_none]

theorem resolveSize_of_lt {size : Nat} (h : g.terms.maxSize < size) :
    g.resolveSize (some size) = .error (.pageSizeTooLarge size g.terms.maxSize) :=
  if_pos h

theorem exists_resolveSize_iff :
    (∃ n, g.resolveSize request.size = .ok n) ↔ g.terms.Admits request := by
  cases hsize : request.size with
  | none => simp [resolveSize, Terms.Admits, hsize]
  | some size =>
      by_cases hlimit : g.terms.maxSize < size
      · rw [resolveSize_of_lt hlimit]
        simp [Terms.Admits, hsize, hlimit]
      · have hok : g.resolveSize (some size) = .ok (Nat.max size 1) := if_neg hlimit
        simpa [hok, Terms.Admits, hsize] using hlimit

/-- The fault of a bookmark is that of the first source whose cursor is malformed. -/
theorem exists_malformed_of_cursorError? {b : Bookmark} {error : CursorError}
    (h : cursorError? g.merge.sourceOrder b = some error) :
    ∃ id, g.terms.Malformed b id error ∧
      ∀ other error', g.terms.Malformed b other error' → (compare id other).isLE := by
  obtain ⟨⟨id, p⟩, hentry, hfault, hleast⟩ := SortedMap.exists_least_of_findSome? h
  refine ⟨id, ?_, ?_⟩
  · cases p with
    | completed => cases hfault
    | active cursor =>
        refine ⟨cursor, Bookmark.state_eq_some_iff.2 hentry, ?_⟩
        dsimp only at hfault
        split at hfault
        · cases hfault
        · rename_i hparse
          cases hfault
          exact hparse
  · rintro other error' ⟨cursor, hstate, hparse⟩
    have hparse' : g.merge.sourceOrder.parseCursor (some cursor) = .error error' := hparse
    apply hleast (other, .active cursor) (Bookmark.state_eq_some_iff.1 hstate)
    simp [hparse']

theorem cursorError?_eq_none_iff_not_malformed {b : Bookmark} :
    cursorError? g.merge.sourceOrder b = none ↔ ∀ id error, ¬ g.terms.Malformed b id error := by
  constructor
  · rintro hnone id error ⟨cursor, hstate, hbad⟩
    obtain ⟨read, hread⟩ := cursorError?_eq_none_iff.1 hnone id cursor hstate
    cases hread.symm.trans hbad
  · intro hnone
    rw [Option.eq_none_iff_forall_ne_some]
    intro error herror
    obtain ⟨id, hbad, -⟩ := exists_malformed_of_cursorError? herror
    exact hnone id error hbad

theorem cursorError?_eq_some {b : Bookmark} {id : String} {error : CursorError}
    (hbad : g.terms.Malformed b id error)
    (hfirst : ∀ other error', g.terms.Malformed b other error' → (compare id other).isLE) :
    cursorError? g.merge.sourceOrder b = some error := by
  cases hfault : cursorError? g.merge.sourceOrder b with
  | none => exact absurd hbad (cursorError?_eq_none_iff_not_malformed.1 hfault id error)
  | some error' =>
      obtain ⟨id', hbad', hfirst'⟩ := exists_malformed_of_cursorError? hfault
      have hsame := OrientedCmp.isLE_antisymm (hfirst id' error' hbad') (hfirst' id error hbad)
      obtain rfl : id = id' := LawfulEqCmp.eq_of_compare hsame
      obtain ⟨cursor, hstate, hparse⟩ := hbad
      obtain ⟨cursor', hstate', hparse'⟩ := hbad'
      cases hstate.symm.trans hstate'
      cases hparse.symm.trans hparse'
      rfl

theorem participants_eq_error_iff {ids : List String} {error : GatewayError} :
    g.participants ids = .error error ↔
      ∃ before id after, ids = before ++ id :: after ∧ (∀ name ∈ before, g.terms.Knows name) ∧
        ¬ g.terms.Knows id ∧ error = .unknownSource id := by
  have hfirst (id : String) : (ids.find? fun id => (g.source? id).isNone) = some id ↔
      ¬ g.terms.Knows id ∧ ∃ before after, ids = before ++ id :: after ∧
        ∀ name ∈ before, g.terms.Knows name := by
    simp only [List.find?_eq_some_iff_append, isNone_source?_iff, Bool.not_eq_true',
      ← Bool.not_eq_true, not_not]
  rw [participants]
  split
  · rename_i id hid
    obtain ⟨hunknown, before, after, rfl, hbefore⟩ := (hfirst id).1 hid
    constructor
    · intro h
      cases h
      exact ⟨before, id, after, rfl, hbefore, hunknown, rfl⟩
    · rintro ⟨before', id', after', hsplit, hbefore', hunknown', rfl⟩
      have hid' := (hfirst id').2 ⟨hunknown', before', after', hsplit, hbefore'⟩
      rw [Option.some.inj (hid.symm.trans hid')]
  · rename_i hnone
    constructor
    · intro h
      cases h
    · rintro ⟨before, id, after, hsplit, hbefore, hunknown, -⟩
      cases hnone.symm.trans ((hfirst id).2 ⟨hunknown, before, after, hsplit, hbefore⟩)

theorem readBookmark_of_parse_eq_error {continuation : Option String} {error : CursorError}
    (h : Bookmark.parse continuation = .error error) :
    g.readBookmark continuation = .error (.badContinuation error) := by
  rw [readBookmark, h]
  rfl

theorem readBookmark_of_cursorError? {continuation : Option String} {b : Bookmark}
    {error : CursorError} (hparse : Bookmark.parse continuation = .ok b)
    (hfault : cursorError? g.merge.sourceOrder b = some error) :
    g.readBookmark continuation = .error (.badContinuation error) := by
  simp only [readBookmark, hparse, Except.mapError, bind, Except.bind, hfault]

/-- A reason to refuse the request makes the checks fail. -/
theorem plan_of_refuses {error : GatewayError} (h : g.terms.Refuses request error) :
    g.plan request = .error error := by
  cases h with
  | size hsize hlimit =>
      rw [plan, hsize, resolveSize_of_lt hlimit]
      rfl
  | text hadmits hparse =>
      obtain ⟨n, hn⟩ := exists_resolveSize_iff.2 hadmits
      rw [plan, hn, readBookmark_of_parse_eq_error hparse]
      rfl
  | cursor hadmits hparse hbad hfirst =>
      obtain ⟨n, hn⟩ := exists_resolveSize_iff.2 hadmits
      rw [plan, hn, readBookmark_of_cursorError? hparse (cursorError?_eq_some hbad hfirst)]
      rfl
  | source hadmits hparse hcursors hnames hbefore hunknown =>
      obtain ⟨n, hn⟩ := exists_resolveSize_iff.2 hadmits
      rw [plan, hn, readBookmark_eq_ok_iff.2
        ⟨hparse, cursorError?_eq_none_iff_not_malformed.2 hcursors⟩,
        participants_eq_error_iff.2 ⟨_, _, _, hnames, hbefore, hunknown, rfl⟩]
      rfl

theorem not_refuses_of_plan {plan : Plan m α} (h : g.plan request = .ok plan)
    (error : GatewayError) : ¬ g.terms.Refuses request error := by
  intro hrefuses
  cases h.symm.trans (plan_of_refuses hrefuses)

/-- Without a reason to refuse it the request passes each check. -/
theorem exists_plan_of_not_refuses (h : ∀ error, ¬ g.terms.Refuses request error) :
    ∃ plan, g.plan request = .ok plan := by
  have hadmits : g.terms.Admits request := by
    intro size hsize
    by_contra hlimit
    exact h _ (.size hsize (Nat.not_le.1 hlimit))
  obtain ⟨n, hn⟩ := exists_resolveSize_iff.2 hadmits
  obtain ⟨b, hparse⟩ : ∃ b, Bookmark.parse request.continuation = .ok b := by
    apply exists_eq_ok
    intro error hparse
    exact h _ (.text hadmits hparse)
  have hcursors : cursorError? g.merge.sourceOrder b = none := by
    rw [Option.eq_none_iff_forall_ne_some]
    intro error hfault
    obtain ⟨id, hbad, hfirst⟩ := exists_malformed_of_cursorError? hfault
    exact h _ (.cursor hadmits hparse hbad hfirst)
  obtain ⟨sources, hsources⟩ : ∃ sources, g.participants request.sources = .ok sources := by
    apply exists_eq_ok
    intro error hsources
    obtain ⟨before, id, after, hnames, hbefore, hunknown, -⟩ :=
      participants_eq_error_iff.1 hsources
    exact h _ (.source hadmits hparse (cursorError?_eq_none_iff_not_malformed.1 hcursors) hnames
      hbefore hunknown)
  exact ⟨⟨n, b, sources⟩,
    plan_eq_ok_iff.2 ⟨hn, readBookmark_eq_ok_iff.2 ⟨hparse, hcursors⟩, hsources⟩⟩

/-- The gateway with another policy on failures. -/
def withPolicy (g : Gateway m α) (policy : FailurePolicy) : Gateway m α :=
  { g with config := { g.config with failurePolicy := policy } }

theorem plan_withPolicy (g : Gateway m α) (policy : FailurePolicy) (request : PageRequest) :
    (g.withPolicy policy).plan request = g.plan request :=
  rfl

end Plan

variable {m : Type → Type} [Monad m] [LawfulMonad m] {α : Type} [Sortable α] {g : Gateway m α}
  {request : PageRequest}

/-- A request without a plan ends with the reason for that, and no source is asked. -/
theorem fetch_of_plan_eq_error {error : GatewayError} (h : g.plan request = .error error) :
    g.fetch request = throw error := by
  apply ExceptT.ext
  rw [fetch, h, ExceptT.run_bind]
  change pure (Except.error error) >>= _ = _
  rw [pure_bind]
  rfl

/-- Static sources all answer a request that has a plan, whatever the policy on failures. -/
theorem exists_fetch_eq_mergePages {backends : List (StaticSource α)}
    (hbackends : g.sources.values = backends.map StaticSource.toSource)
    (horder : ∀ s ∈ backends, s.order = g.merge.sourceOrder) {plan : Plan m α}
    (hplan : g.plan request = .ok plan) :
    ∃ pages, ∀ policy, (g.withPolicy policy).fetch request =
      ExceptT.mk (pure (g.mergePages pages plan.size)) := by
  have hsub := participants_sublist (plan_eq_ok_iff.1 hplan).2.2
  rw [hbackends] at hsub
  obtain ⟨asked, hasked, hparticipants⟩ := List.sublist_map_iff.1 hsub
  refine ⟨Merge.answers asked plan.bookmark plan.size Merge.allUp, ?_⟩
  intro policy
  exact fetch_eq_mergePages ((plan_withPolicy g policy request).trans hplan) hparticipants
    fun s hs => horder s (hasked.subset hs)

/-- A request that is refused ends with the reason for that and has no effect, in every gateway
on the same terms, whatever its sources are.  A request that is not refused is answered with a
page, if the sources are static and deliver in the order of the gateway, or ends because a
cursor cannot be carried; there is no other error, and the policy on failures does not matter. -/
theorem fetch_decided {backends : List (StaticSource α)}
    (hbackends : g.sources.values = backends.map StaticSource.toSource)
    (horder : ∀ s ∈ backends, s.order = g.merge.sourceOrder) (request : PageRequest) :
    (∀ {n : Type → Type} [Monad n] [LawfulMonad n] {β : Type} [Sortable β] (g' : Gateway n β),
      g'.terms = g.terms → ∀ error, g.terms.Refuses request error →
        g'.fetch request = throw error) ∧
    ((∀ error, ¬ g.terms.Refuses request error) →
      (∃ page, g.fetch request = pure page) ∨
        ∃ id, g.fetch request = throw (.unencodableCursor id)) ∧
    ∀ policy, (g.withPolicy policy).fetch request = g.fetch request := by
  refine ⟨?_, ?_, ?_⟩
  · intro n _ _ β _ g' hterms error hrefuses
    exact fetch_of_plan_eq_error (plan_of_refuses (hterms ▸ hrefuses))
  · intro hadmitted
    obtain ⟨plan, hplan⟩ := exists_plan_of_not_refuses hadmitted
    obtain ⟨pages, hfetch⟩ := exists_fetch_eq_mergePages hbackends horder hplan
    have hanswer : g.fetch request = ExceptT.mk (pure (g.mergePages pages plan.size)) :=
      hfetch g.config.failurePolicy
    rw [hanswer, mergePages]
    cases (g.merge.merge pages plan.size).bookmark.offender? with
    | none => exact Or.inl ⟨_, rfl⟩
    | some id => exact Or.inr ⟨id, rfl⟩
  · intro policy
    cases hplan : g.plan request with
    | error error =>
        rw [fetch_of_plan_eq_error hplan]
        exact fetch_of_plan_eq_error ((plan_withPolicy g policy request).trans hplan)
    | ok plan =>
        obtain ⟨pages, hfetch⟩ := exists_fetch_eq_mergePages hbackends horder hplan
        exact (hfetch policy).trans (hfetch g.config.failurePolicy).symm

end Gateway

namespace Sample

open Gateway

/-- A source that counts how often it is asked. -/
def counting (id : String) : Source (StateM Nat) Item where
  id := id
  fetch _ _ := do
    modify (· + 1)
    return .ok .empty

def countingGateway : Gateway (StateM Nat) Item :=
  gateway byTime .skipAsEmpty (counting "east") (counting "west")

/-- Two malformed cursors, the first of a source that nobody knows, and an unknown source. -/
def faulty : PageRequest :=
  { continuation := some "west:x_1;north:y_2", sources := ["south"] }

/-- The key of the cursor of the first source is no time. -/
def notATime : GatewayError :=
  .badContinuation (.malformed "y_2" (.dateKey .invalidDigit))

def faultyBookmark : Bookmark :=
  .ofList [("north", some (.active "y_2")), ("west", some (.active "x_1"))]

theorem refuses_faulty : eastAndWest.terms.Refuses faulty notATime := by
  have hparse : Bookmark.parse faulty.continuation = .ok faultyBookmark := by cbv
  have hbad : eastAndWest.terms.Malformed faultyBookmark "north"
      (.malformed "y_2" (.dateKey .invalidDigit)) := ⟨"y_2", by decide, by cbv⟩
  have hadmits : eastAndWest.terms.Admits faulty := by
    intro size hsize
    cases hsize
  refine .cursor hadmits hparse hbad ?_
  rintro other error ⟨cursor, hstate, -⟩
  have hmem : other ∈ ["north", "west"] :=
    List.mem_map_of_mem (f := Prod.fst) (Bookmark.state_eq_some_iff.1 hstate)
  obtain rfl | rfl : other = "north" ∨ other = "west" := by simpa using hmem
  · decide
  · decide

/-- Of three reasons the cursor of the first source is given, and no source is asked.  Without
them the request is answered, whatever becomes of failures. -/
theorem faulty_refused :
    eastAndWest.terms.Refuses faulty notATime ∧
    eastAndWest.fetch faulty = throw notATime ∧
    (countingGateway.fetch faulty).run.run 0 = (.error notATime, 0) ∧
    ((∃ page, eastAndWest.fetch {} = pure page) ∨
      ∃ id, eastAndWest.fetch {} = throw (.unencodableCursor id)) ∧
    (eastAndWest.withPolicy .skipAsEmpty).fetch {} = eastAndWest.fetch {} := by
  have horder : ∀ s ∈ [east, west], s.order = eastAndWest.merge.sourceOrder := by
    simp [east, west, source, eastAndWest, gateway, Merge.single]
  have hbackends : eastAndWest.sources.values = [east, west].map StaticSource.toSource := rfl
  have hfaulty := fetch_decided hbackends horder faulty
  have hplain := fetch_decided hbackends horder {}
  obtain ⟨plan, hplan⟩ : ∃ plan, eastAndWest.plan {} = .ok plan := ⟨_, rfl⟩
  refine ⟨refuses_faulty, hfaulty.1 eastAndWest rfl _ refuses_faulty, ?_,
    hplain.2.1 (not_refuses_of_plan hplan), hplain.2.2 .skipAsEmpty⟩
  rw [hfaulty.1 countingGateway rfl _ refuses_faulty]
  rfl

end Sample

end MergedPaging
