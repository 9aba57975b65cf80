/-
A merged page is handed out with a continuation that says exactly what became of its
sources, or it is refused.  It is refused only for a cursor that the merge has just given to
a source; a cursor that a client sent is never the reason, since it came out of a text.
-/
import MergedPaging.Proofs.FanOut
import MergedPaging.Proofs.MergeRules

namespace MergedPaging

open Std

theorem Progress.isWireSafe_active_eq_false_iff {cursor : String} :
    isWireSafe (.active cursor) = false ↔ ';' ∈ cursor.toList ∨ cursor = completedMark := by
  simp only [isWireSafe, Bool.and_eq_false_iff, bne_eq_false_iff_eq, Bool.not_eq_false',
    List.contains_iff_mem]
  exact or_comm

namespace Bookmark

theorem isWireSafeEntry_of_isWireSafe {b : Bookmark} (h : b.isWireSafe = true) {id : String}
    {p : Progress} (hstate : b.state id = some p) : isWireSafeEntry (id, p) = true := by
  obtain ⟨hid, hp⟩ := isWireSafe_iff.1 h id p hstate
  rw [isWireSafeEntry, hid, hp]
  rfl

/-- The offender of a bookmark is the first source, by id, whose entry cannot be carried. -/
theorem offender?_eq_some_iff {b : Bookmark} {id : String} :
    b.offender? = some id ↔
      (∃ p, b.state id = some p ∧ isWireSafeEntry (id, p) = false) ∧
        ∀ other p, b.state other = some p → isWireSafeEntry (other, p) = false →
          (compare id other).isLE := by
  have hfirst {entry : String × Progress}
      (hfound : b.toList.find? (fun entry => !isWireSafeEntry entry) = some entry) :
      (b.state entry.1 = some entry.2 ∧ isWireSafeEntry entry = false) ∧
        ∀ other p, b.state other = some p → isWireSafeEntry (other, p) = false →
          (compare entry.1 other).isLE := by
    have hrefused := List.find?_some hfound
    refine ⟨⟨state_eq_some_iff.2 (List.mem_of_find?_eq_some hfound), by simpa using hrefused⟩, ?_⟩
    intro other p hstate hbad
    exact SortedMap.isLE_of_find? hfound (state_eq_some_iff.1 hstate) (by rw [hbad]; rfl)
  rw [offender?]
  constructor
  · intro h
    obtain ⟨entry, hfound, rfl⟩ := Option.map_eq_some_iff.1 h
    obtain ⟨⟨hstate, hbad⟩, hleast⟩ := hfirst hfound
    exact ⟨⟨entry.2, hstate, hbad⟩, hleast⟩
  · rintro ⟨⟨p, hstate, hbad⟩, hleast⟩
    cases hfound : b.toList.find? fun entry => !isWireSafeEntry entry with
    | none =>
        have hsafe := List.find?_eq_none.1 hfound _ (state_eq_some_iff.1 hstate)
        exact absurd hbad (by simpa using hsafe)
    | some entry =>
        obtain ⟨⟨hstate', hbad'⟩, hleast'⟩ := hfirst hfound
        have hsame := OrientedCmp.isLE_antisymm (hleast' id p hstate hbad)
          (hleast entry.1 entry.2 hstate' hbad')
        rw [Option.map_some, LawfulEqCmp.eq_of_compare hsame]

end Bookmark

namespace Merge

variable {α : Type} [Sortable α]

/-- A merge moves a source on to a cursor: the source has winners, and goes on from there. -/
def MovesTo (m : Merge) (pages : List (SourcePage α)) (n : Nat) (id cursor : String) : Prop :=
  won (m.winners pages n) id ≠ [] ∧
    (m.merge pages n).bookmark.state id = some (.active cursor)

/-- A merge moves a source on to a cursor that would be cut in two, or be read as the mark of
a finished source. -/
def Misplaces (m : Merge) (pages : List (SourcePage α)) (n : Nat) (id : String) : Prop :=
  ∃ cursor, m.MovesTo pages n id cursor ∧
    (';' ∈ cursor.toList ∨ cursor = Progress.completedMark)

end Merge

namespace Gateway

open Merge

variable {α : Type}

theorem isWireSafeId_of_mem_participants {m : Type → Type} {g : Gateway m α} {ids : List String}
    {sources : List (Source m α)} (h : g.participants ids = .ok sources) {s : Source m α}
    (hs : s ∈ sources) : isWireSafeId s.id = true := by
  obtain ⟨entry, hentry, rfl⟩ := List.mem_map.1 ((participants_sublist h).subset hs)
  rw [g.id_eq entry hentry]
  exact g.wireSafe entry hentry

variable {g : Gateway Id α} {request : PageRequest} {plan : Plan Id α}
  {pages : List (SourcePage α)}

/-- What is asked of a source stands for the progress that the client sent. -/
theorem requested_of_answered (hplan : g.plan request = .ok plan) {s : Source Id α}
    {p : SourcePage α} (h : s.Answered plan.bookmark plan.size p) :
    p.requested = plan.bookmark.state s.id := by
  rw [SourcePage.requested, h.requested]
  cases hstate : plan.bookmark.state s.id with
  | none => rfl
  | some state =>
      obtain ⟨hsafe, hne⟩ := progress_of_isWireSafe (isWireSafe_of_plan hplan) s.id state hstate
      exact Progress.ofRequested_toRequested hsafe hne

variable [Sortable α]

/-- A bookmark speaks of the sources that took part. -/
theorem mem_ids_of_state (hpages : g.gather plan = .ok pages) {m : Merge} {n : Nat}
    {id : String} {state : Progress} (h : (m.merge pages n).bookmark.state id = some state) :
    id ∈ plan.participants.map (·.id) := by
  by_contra hid
  rw [← sourceIds_of_gather hpages] at hid
  cases (state_bookmark_of_notMem hid).symm.trans h

/-- A source without winners stands where the client put it, or is finished. -/
theorem isWireSafe_of_won_eq_nil (hplan : g.plan request = .ok plan)
    (hpages : g.gather plan = .ok pages) {id : String} {state : Progress}
    (hstate : (g.merge.merge pages plan.size).bookmark.state id = some state)
    (hnone : won (g.merge.winners pages plan.size) id = []) : state.isWireSafe = true := by
  by_cases hdone : state = .completed
  · rw [hdone]
    rfl
  · obtain ⟨p, hp, rfl⟩ : ∃ p ∈ pages, p.sourceId = id := by
      rw [← List.mem_map, sourceIds_of_gather hpages]
      exact mem_ids_of_state hpages hstate
    obtain ⟨s, -, hanswered⟩ := exists_answered hpages hp
    have hkept := (settles_state (nodup_of_gather hplan hpages) hp plan.size).kept
      (by simpa [hstate] using hdone) hnone
    rw [hstate, requested_of_answered hplan hanswered] at hkept
    exact (progress_of_isWireSafe (isWireSafe_of_plan hplan) s.id state hkept.symm).1

/-- An entry that cannot be carried is one of a source that was misplaced. -/
theorem exists_unsafe_iff_misplaces (hplan : g.plan request = .ok plan)
    (hpages : g.gather plan = .ok pages) {id : String} :
    (∃ p, (g.merge.merge pages plan.size).bookmark.state id = some p ∧
        Bookmark.isWireSafeEntry (id, p) = false) ↔
      g.merge.Misplaces pages plan.size id := by
  constructor
  · rintro ⟨p, hstate, hbad⟩
    obtain ⟨s, hs, rfl⟩ := List.mem_map.1 (mem_ids_of_state hpages hstate)
    have hid := isWireSafeId_of_mem_participants (plan_eq_ok_iff.1 hplan).2.2 hs
    rw [Bookmark.isWireSafeEntry, hid, Bool.true_and] at hbad
    cases p with
    | completed => cases hbad
    | active cursor =>
        refine ⟨cursor, ⟨?_, hstate⟩, Progress.isWireSafe_active_eq_false_iff.1 hbad⟩
        intro hnone
        rw [isWireSafe_of_won_eq_nil hplan hpages hstate hnone] at hbad
        cases hbad
  · rintro ⟨cursor, ⟨-, hstate⟩, hbad⟩
    refine ⟨.active cursor, hstate, ?_⟩
    rw [Bookmark.isWireSafeEntry, Progress.isWireSafe_active_eq_false_iff.2 hbad, Bool.and_false]

/-- A page that is handed out ends exactly when all its sources are finished, and otherwise
carries its whole bookmark, in which only these sources occur. -/
theorem continuation_of_fetch_eq_ok {page : MergedPage α}
    (h : (g.fetch request).run = .ok page) :
    ∃ sources, g.participants request.sources = .ok sources ∧
      (page.page.continuation = none ↔
        ∀ s ∈ sources, page.bookmark.state s.id = some .completed) ∧
      ∀ text, page.page.continuation = some text →
        Bookmark.parse (some text) = .ok page.bookmark ∧
          ∀ id state, page.bookmark.state id = some state → id ∈ sources.map (·.id) := by
  obtain ⟨plan, pages, hplan, hpages, rfl, hsafe⟩ := fetch_eq_ok_iff.1 h
  refine ⟨plan.participants, (plan_eq_ok_iff.1 hplan).2.2, ?_, ?_⟩
  · have hids := sourceIds_of_gather hpages
    rw [continuation_merge_eq_none_iff]
    constructor
    · intro hdone s hs
      obtain ⟨p, hp, hid⟩ := List.mem_map.1 (hids ▸ List.mem_map_of_mem hs)
      exact hid ▸ hdone p hp
    · intro hdone p hp
      obtain ⟨s, hs, hid⟩ := List.mem_map.1 (hids ▸ List.mem_map_of_mem hp)
      exact hid ▸ hdone s hs
  · intro text htext
    refine ⟨?_, fun id state hstate => mem_ids_of_state hpages hstate⟩
    obtain rfl : toString (g.merge.merge pages plan.size).bookmark = text := by
      change (if _ then none else some _) = some text at htext
      split at htext
      · cases htext
      · exact Option.some.inj htext
    exact Bookmark.parse_toString hsafe

/-- Once all sources have answered, a page is refused for the first source that was
misplaced. -/
theorem fetch_eq_unencodableCursor_iff (hplan : g.plan request = .ok plan)
    (hpages : g.gather plan = .ok pages) {id : String} :
    (g.fetch request).run = .error (.unencodableCursor id) ↔
      g.merge.Misplaces pages plan.size id ∧
        ∀ other, g.merge.Misplaces pages plan.size other → (compare id other).isLE := by
  have hrefused : (g.fetch request).run = .error (.unencodableCursor id) ↔
      (g.merge.merge pages plan.size).bookmark.offender? = some id := by
    rw [run_fetch, hplan, Except.bind, hpages, Except.bind, mergePages]
    cases (g.merge.merge pages plan.size).bookmark.offender? with
    | none =>
        constructor
        · intro h
          cases h
        · intro h
          cases h
    | some other =>
        constructor
        · intro h
          cases h
          rfl
        · intro h
          cases h
          rfl
  rw [hrefused, Bookmark.offender?_eq_some_iff, exists_unsafe_iff_misplaces hplan hpages]
  apply and_congr_right
  intro _
  constructor
  · intro hleast other hother
    obtain ⟨p, hstate, hbad⟩ := (exists_unsafe_iff_misplaces hplan hpages).2 hother
    exact hleast other p hstate hbad
  · intro hleast other p hstate hbad
    exact hleast other ((exists_unsafe_iff_misplaces hplan hpages).1 ⟨p, hstate, hbad⟩)

/-- A source that is misplaced ends the request, for itself or for an earlier one. -/
theorem exists_fetch_eq_unencodableCursor (hplan : g.plan request = .ok plan)
    (hpages : g.gather plan = .ok pages) {id : String}
    (hmisplaced : g.merge.Misplaces pages plan.size id) :
    ∃ id, (g.fetch request).run = .error (.unencodableCursor id) := by
  obtain ⟨p, hstate, hbad⟩ := (exists_unsafe_iff_misplaces hplan hpages).2 hmisplaced
  rw [run_fetch, hplan, Except.bind, hpages, Except.bind, mergePages]
  cases hoffender : (g.merge.merge pages plan.size).bookmark.offender? with
  | some other => exact ⟨other, rfl⟩
  | none =>
      have hsafe := Bookmark.isWireSafeEntry_of_isWireSafe
        (Bookmark.offender?_eq_none_iff.1 hoffender) hstate
      rw [hsafe] at hbad
      cases hbad

/-- A page that is handed out ends exactly when all sources that took part are finished, and
otherwise its continuation is read as its bookmark, which speaks of these sources only.  Once
all sources have answered, the request is refused exactly when the merge moves a source on to
a cursor that holds `;` or is spelled like the mark of a finished source, and then for the
first of them; it is never refused for a source that stays where the client put it. -/
theorem fetch_says_or_refuses (g : Gateway Id α) (request : PageRequest) :
    (∀ page, (g.fetch request).run = .ok page →
      ∃ sources, g.participants request.sources = .ok sources ∧
        (page.page.continuation = none ↔
          ∀ s ∈ sources, page.bookmark.state s.id = some .completed) ∧
        ∀ text, page.page.continuation = some text →
          Bookmark.parse (some text) = .ok page.bookmark ∧
            ∀ id state, page.bookmark.state id = some state → id ∈ sources.map (·.id)) ∧
    ∀ plan pages, g.plan request = .ok plan → g.gather plan = .ok pages →
      ((∃ id, (g.fetch request).run = .error (.unencodableCursor id)) ↔
        ∃ s ∈ plan.participants, g.merge.Misplaces pages plan.size s.id) ∧
      (∀ id, (g.fetch request).run = .error (.unencodableCursor id) →
        g.merge.Misplaces pages plan.size id ∧
          ∀ other, g.merge.Misplaces pages plan.size other → (compare id other).isLE) ∧
      ∀ s ∈ plan.participants,
        (g.merge.merge pages plan.size).bookmark.state s.id = plan.bookmark.state s.id →
          (g.fetch request).run ≠ .error (.unencodableCursor s.id) := by
  refine ⟨fun page hpage => continuation_of_fetch_eq_ok hpage, ?_⟩
  intro plan pages hplan hpages
  have hiff (id : String) : (g.fetch request).run = .error (.unencodableCursor id) ↔
      g.merge.Misplaces pages plan.size id ∧
        ∀ other, g.merge.Misplaces pages plan.size other → (compare id other).isLE :=
    fetch_eq_unencodableCursor_iff hplan hpages
  refine ⟨?_, fun id h => (hiff id).1 h, ?_⟩
  · constructor
    · rintro ⟨id, h⟩
      obtain ⟨cursor, ⟨hwon, hstate⟩, hbad⟩ := ((hiff id).1 h).1
      obtain ⟨s, hs, rfl⟩ := List.mem_map.1 (mem_ids_of_state hpages hstate)
      exact ⟨s, hs, cursor, ⟨hwon, hstate⟩, hbad⟩
    · rintro ⟨s, -, hmisplaced⟩
      exact exists_fetch_eq_unencodableCursor hplan hpages hmisplaced
  · intro s _ hstays h
    obtain ⟨p, hstate, hbad⟩ :=
      (exists_unsafe_iff_misplaces hplan hpages).2 ((hiff s.id).1 h).1
    rw [hstays] at hstate
    rw [Bookmark.isWireSafeEntry_of_isWireSafe (isWireSafe_of_plan hplan) hstate] at hbad
    cases hbad

end Gateway

namespace Sample

open Gateway

/-- A source whose item has an id that a bookmark would cut in two. -/
def torn : StaticSource Item :=
  source "east" byTime [item "a;b" 1, item "3" 3] east_isWireSafe

def tornGateway : Gateway Id Item :=
  gateway byTime .abort torn.toSource west.toSource rfl id_west

/-- A page that ends on that item is refused.  A page that holds all items is not, and it is
the last. -/
theorem torn_refused :
    (tornGateway.fetch { size := some 1 }).run = .error (.unencodableCursor "east") ∧
      (∀ other, tornGateway.merge.Misplaces
        [⟨"east", none, ⟨some "1000_a;b", [item "a;b" 1]⟩⟩, ⟨"west", none, ⟨none, [item "2" 2]⟩⟩]
          1 other → (compare "east" other).isLE) ∧
      ∃ page, (tornGateway.fetch {}).run = .ok page ∧
        page.bookmark.state "east" = some .completed := by
  have hplan : tornGateway.plan { size := some 1 } =
      .ok ⟨1, .empty, [torn.toSource, west.toSource]⟩ := by rfl
  have hpages : tornGateway.gather ⟨1, .empty, [torn.toSource, west.toSource]⟩ =
      .ok [⟨"east", none, ⟨some "1000_a;b", [item "a;b" 1]⟩⟩,
        ⟨"west", none, ⟨none, [item "2" 2]⟩⟩] := by cbv
  have hrefused : (tornGateway.fetch { size := some 1 }).run =
      .error (.unencodableCursor "east") := by cbv
  obtain ⟨-, hrefuses⟩ := fetch_says_or_refuses tornGateway { size := some 1 }
  obtain ⟨page, hpage, hend⟩ : ∃ page, (tornGateway.fetch {}).run = .ok page ∧
      page.page.continuation = none := ⟨_, by cbv, by cbv⟩
  obtain ⟨sources, hsources, hdone, -⟩ :=
    (fetch_says_or_refuses tornGateway {}).1 page hpage
  have hall : tornGateway.participants [] = .ok [torn.toSource, west.toSource] := by rfl
  cases hall.symm.trans hsources
  exact ⟨hrefused, ((hrefuses _ _ hplan hpages).2.1 "east" hrefused).2, page, hpage,
    hdone.1 hend torn.toSource List.mem_cons_self⟩

end Sample

end MergedPaging
