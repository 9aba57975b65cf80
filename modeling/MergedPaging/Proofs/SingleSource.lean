/-
One source, asked alone or through the merge.  A request that names a single source is
answered by the page that the source gives when it is asked alone, with the continuation
under the source's id.  The two differ only where a bookmark cannot carry the next cursor.
-/
import MergedPaging.Proofs.Request

namespace MergedPaging

open Std

namespace Bookmark

/-- A cursor that a bookmark gives back as it was set. -/
def CanCarry (cursor : String) : Prop :=
  cursor ≠ "" ∧ ';' ∉ cursor.toList ∧ cursor ≠ Progress.completedMark

instance (cursor : String) : Decidable (CanCarry cursor) :=
  inferInstanceAs (Decidable (_ ∧ _ ∧ _))

/-- The bookmark that knows the progress of one source only. -/
def ofSource (id : String) (state : Option Progress) : Bookmark :=
  empty.set id state

variable {id cursor : String}

theorem state_ofSource (id : String) (state : Option Progress) :
    (ofSource id state).state id = state.filter (· ≠ .active "") := by
  rw [ofSource, state_set, if_pos rfl]

theorem toList_ofSource_active (id : String) (hne : cursor ≠ "") :
    (ofSource id (some (.active cursor))).toList = [(id, .active cursor)] := by
  have hactive : Progress.active cursor ≠ .active "" := by simpa using hne
  simp only [ofSource, set, dif_neg hactive]
  rfl

theorem toString_ofSource_active (id : String) (hne : cursor ≠ "") :
    toString (ofSource id (some (.active cursor))) = id ++ ":" ++ cursor := by
  change String.ofList (printEntries (ofSource id (some (.active cursor))).toList) = _
  rw [toList_ofSource_active id hne, ← String.toList_inj]
  simp [printEntries, printEntry, Progress.toRequested]

theorem isWireSafe_ofSource_active (hid : isWireSafeId id = true) (hne : cursor ≠ "") :
    (ofSource id (some (.active cursor))).isWireSafe = true ↔ CanCarry cursor := by
  rw [isWireSafe, toList_ofSource_active id hne]
  simp [isWireSafeEntry, hid, Progress.isWireSafe, CanCarry, hne, and_comm]

theorem offender?_ofSource_active (hid : isWireSafeId id = true) (hne : cursor ≠ "")
    (hcursor : ¬ CanCarry cursor) :
    (ofSource id (some (.active cursor))).offender? = some id := by
  have hrefused : isWireSafeEntry (id, .active cursor) = false := by
    rw [← isWireSafe_ofSource_active hid hne, isWireSafe, toList_ofSource_active id hne] at hcursor
    simpa using hcursor
  rw [offender?, toList_ofSource_active id hne]
  simp [hrefused]

/-- A source's cursor is read from under its id. -/
theorem parse_under (hid : isWireSafeId id = true) (hcursor : CanCarry cursor) :
    parse (some (id ++ ":" ++ cursor)) = .ok (ofSource id (some (.active cursor))) := by
  have hsafe := (isWireSafe_ofSource_active hid hcursor.1).2 hcursor
  rw [← toString_ofSource_active id hcursor.1, parse_toString hsafe]

end Bookmark

namespace Merge

variable {α : Type} [Sortable α]

/-- A source that is alone wins the first of its rows. -/
theorem winners_singleton (m : Merge) (p : SourcePage α) (n : Nat) :
    m.winners [p] n = ((m.mergeOrder.sort p.supplied).take n).map (p.sourceId, ·) := by
  have hpool : pool [p] = p.supplied.map (p.sourceId, ·) := by simp [pool]
  rw [winners_eq, hpool, inOrder_map_mk, ← List.map_take]
  rfl

end Merge

namespace Progress

/-- The progress of a source behind a page: finished when the page has no continuation. -/
def behind (continuation : Option String) : Progress :=
  match continuation with
  | none => completed
  | some cursor => active cursor

end Progress

namespace Page

variable {α : Type}

/-- Two pages with the same entities, the second of which continues at the cursor of the
first written under an id. -/
structure UnderId (id : String) (alone merged : Page α) : Prop where
  entities : merged.entities = alone.entities
  last : merged.continuation = none ↔ alone.continuation = none
  next (cursor : String) :
    merged.continuation = some (id ++ ":" ++ cursor) ↔ alone.continuation = some cursor

/-- The page with its continuation written under an id. -/
def under (id : String) (page : Page α) : Page α where
  continuation := page.continuation.map (id ++ ":" ++ ·)
  entities := page.entities

theorem underId_under (id : String) (page : Page α) : page.UnderId id (page.under id) where
  entities := rfl
  last := Option.map_eq_none_iff
  next cursor := by
    have hinjective : Function.Injective (id ++ ":" ++ · : String → String) := by
      intro a b h
      simpa [← String.toList_inj] using h
    rw [under, ← Option.map_some (f := (id ++ ":" ++ ·)), (Option.map_injective hinjective).eq_iff]

end Page

namespace Gateway

open Merge Bookmark

variable {α : Type} [Sortable α]

theorem entities_trim (o : SortOrder) (delivered : Page α) (n : Nat) :
    (trim o delivered n).entities = (o.sort delivered.entities).take (max n 1) := by
  rw [← Page.entities_ofBatch, trim]
  split <;> rfl

/-- A page is the last if it takes all that was delivered and nothing was held back. -/
theorem continuation_trim {o : SortOrder} {delivered : Page α} {n : Nat} (hn : 1 ≤ n)
    (hanswer : delivered.entities ≠ [] ∨ delivered.continuation = none) :
    (trim o delivered n).continuation =
      if delivered.entities.length ≤ n ∧ delivered.continuation = none then none
      else ((o.sort delivered.entities).take n).getLast?.map o.continuationOf := by
  have hpage := Page.continuation_ofBatch o delivered.entities n
  rw [Nat.max_eq_left hn] at hpage
  rw [trim, Page.isExhausted, Page.isExhausted, Page.entities_ofBatch, hpage,
    Nat.max_eq_left hn]
  by_cases hshort : delivered.entities.length ≤ n
  · cases hmore : delivered.continuation with
    | none => simp [hpage, hshort]
    | some text =>
        have hrows : delivered.entities ≠ [] := hanswer.resolve_right (by simp [hmore])
        have hne : (o.sort delivered.entities).take n ≠ [] := by
          rw [← List.length_pos_iff] at hrows ⊢
          rw [List.length_take, o.length_sort]
          omega
        simp [hshort, List.getLast?_eq_some_getLast hne]
  · have hne : (o.sort delivered.entities).take n ≠ [] := by
      rw [← List.length_pos_iff, List.length_take, o.length_sort]
      omega
    simp [hpage, hshort, List.getLast?_eq_some_getLast hne]

/-- A source that is alone stands, after the merge, behind the page that was cut for it. -/
theorem advance_singleton {o : SortOrder} {p : SourcePage α} {n : Nat} (hn : 1 ≤ n)
    (hopen : p.isCompleted = false)
    (hanswer : p.page.entities ≠ [] ∨ p.page.continuation = none) :
    (single o).advance p (won ((single o).winners [p] n) p.sourceId) =
      some (.behind (trim o p.page n).continuation) := by
  have hsupplied : p.supplied = p.page.entities := by simp [SourcePage.supplied, hopen]
  have hlength : ((o.sort p.page.entities).take n).length = min n p.page.entities.length := by
    rw [List.length_take, o.length_sort]
  have hwon : won ((single o).winners [p] n) p.sourceId = (o.sort p.page.entities).take n := by
    rw [winners_singleton, won_map_mk, hsupplied]
    rfl
  rw [hwon, advance, continuation_trim hn hanswer, hsupplied]
  generalize (o.sort p.page.entities).take n = rows at *
  cases hlast : rows.getLast? with
  | none =>
      -- Nothing won means nothing delivered, and then nothing was held back either.
      rw [List.getLast?_eq_none_iff, ← List.length_eq_zero_iff, hlength] at hlast
      have hnone : p.page.entities = [] := List.length_eq_zero_iff.1 (by omega)
      have hend : p.page.continuation = none := hanswer.resolve_left (by simp [hnone])
      simp [hnone, hend, Page.isExhausted, Progress.behind]
  | some last =>
      have hall : (decide (rows.length = p.page.entities.length) && p.page.isExhausted) = true ↔
          p.page.entities.length ≤ n ∧ p.page.continuation = none := by
        rw [Bool.and_eq_true, decide_eq_true_eq, hlength, min_eq_right_iff, Page.isExhausted,
          Option.isNone_iff_eq_none]
      simp only [hall]
      split <;> rfl

section Opened

variable {ε β γ : Type} {f : β → γ} {x : Except ε β}

theorem eq_error_of_map_eq_error {error : ε} (h : x.map f = .error error) : x = .error error := by
  cases x with
  | error _ => exact congrArg Except.error (Except.error.inj h)
  | ok _ => cases h

theorem exists_of_map_eq_ok {c : γ} (h : x.map f = .ok c) : ∃ b, x = .ok b ∧ f b = c := by
  cases x with
  | error _ => cases h
  | ok b => exact ⟨b, rfl, Except.ok.inj h⟩

end Opened

/-- A page of one source as the merge hands it out: under the source's id.  A cursor that
a bookmark cannot carry is refused, and an empty one leaves the bookmark empty. -/
def handOut (id : String) (page : Page α) : Except GatewayError (Page α) :=
  match page.continuation with
  | none => .ok page
  | some cursor =>
    if cursor = "" then .ok page
    else if CanCarry cursor then .ok (page.under id)
    else .error (.unencodableCursor id)

omit [Sortable α] in
theorem handOut_of_canCarry {id : String} {page : Page α}
    (h : ∀ cursor, page.continuation = some cursor → CanCarry cursor) :
    handOut id page = .ok (page.under id) := by
  obtain ⟨_ | cursor, entities⟩ := page
  · rfl
  · have hcursor := h cursor rfl
    simp only [handOut, if_neg hcursor.1, if_pos hcursor]

variable {m : Type → Type} {g : Gateway m α}

/-- Merging the answer of a single source. -/
theorem mergePages_singleton {o : SortOrder} (horder : g.merge = .single o) {p : SourcePage α}
    (hid : isWireSafeId p.sourceId = true) {n : Nat} (hn : 1 ≤ n) (hopen : p.isCompleted = false)
    (hanswer : p.page.entities ≠ [] ∨ p.page.continuation = none) :
    (g.mergePages [p] n).map MergedPage.page = handOut p.sourceId (trim o p.page n) := by
  have hentities : ((single o).winners [p] n).map Prod.snd = (trim o p.page n).entities := by
    have hsupplied : p.supplied = p.page.entities := by simp [SourcePage.supplied, hopen]
    rw [winners_singleton, hsupplied, entities_trim, Nat.max_eq_left hn, List.map_map]
    exact List.map_id _
  have hbookmark : (single o).bookmark [p] ((single o).winners [p] n) =
      ofSource p.sourceId (some (.behind (trim o p.page n).continuation)) := by
    rw [← advance_singleton hn hopen hanswer]
    rfl
  rw [mergePages, horder, Merge.merge, hentities, hbookmark]
  obtain ⟨continuation, entities⟩ := trim o p.page n
  simp only [List.map_cons, List.map_nil, allCompleted, List.all_cons, List.all_nil,
    Bool.and_true, isCompleted, state_ofSource]
  cases continuation with
  | none =>
      have hsafe : (ofSource p.sourceId (some .completed)).isWireSafe = true :=
        isWireSafe_set rfl hid fun _ h => by cases h; rfl
      simp only [Progress.behind, offender?_eq_none_iff.2 hsafe]
      rfl
  | some cursor =>
      by_cases hne : cursor = ""
      · subst hne
        rfl
      · have hopen : (Option.filter (· ≠ Progress.active "") (some (.active cursor)) ==
            some .completed) = false := by
          simp [Option.filter, hne]
        simp only [Progress.behind, hopen, handOut, if_neg hne]
        by_cases hcursor : CanCarry cursor
        · have hsafe := (isWireSafe_ofSource_active hid hne).2 hcursor
          rw [offender?_eq_none_iff.2 hsafe, toString_ofSource_active p.sourceId hne,
            if_pos hcursor]
          rfl
        · rw [offender?_ofSource_active hid hne hcursor, if_neg hcursor]
          rfl

section Plan

omit [Sortable α]

/-- Among items under keys of their own, the key of an item picks that item. -/
theorem filter_eq_singleton {β κ : Type} {key : β → κ} {p : β → Bool} {items : List β}
    (hkeys : (items.map key).Nodup) {x : β} (hx : x ∈ items)
    (hp : ∀ y ∈ items, p y = true ↔ key y = key x) : items.filter p = [x] := by
  induction items with
  | nil => cases hx
  | cons y items ih =>
      rw [List.map_cons, List.nodup_cons] at hkeys
      have hrest : ∀ z ∈ items, p z = true ↔ key z = key x :=
        fun z hz => hp z (List.mem_cons_of_mem _ hz)
      rcases List.mem_cons.1 hx with rfl | hx
      · have hothers : ∀ z ∈ items, ¬ p z = true := by
          intro z hz hpz
          exact hkeys.1 ((hrest z hz).1 hpz ▸ List.mem_map_of_mem hz)
        rw [List.filter_cons_of_pos ((hp x List.mem_cons_self).2 rfl),
          List.filter_eq_nil_iff.2 hothers]
      · have hy : ¬ p y = true := by
          intro hpy
          exact hkeys.1 ((hp y List.mem_cons_self).1 hpy ▸ List.mem_map_of_mem hx)
        rw [List.filter_cons_of_neg hy, ih hkeys.2 hx hrest]

variable {id : String} {source : Source m α}

theorem source?_eq_some_iff :
    g.source? id = some source ↔
      g.sources.get? id = some source ∧ g.config.sources.isEnabled id = true := by
  rw [source?, Option.filter_eq_some_iff]

theorem id_of_source? (h : g.source? id = some source) :
    source.id = id ∧ isWireSafeId id = true := by
  have hentry := SortedMap.mem_of_get?_eq_some (source?_eq_some_iff.1 h).1
  exact ⟨g.id_eq _ hentry, g.wireSafe _ hentry⟩

theorem source?_of_mem_available (hs : source ∈ g.available) :
    g.source? source.id = some source := by
  obtain ⟨hvalue, henabled⟩ := List.mem_filter.1 hs
  obtain ⟨entry, hentry, rfl⟩ := List.mem_map.1 hvalue
  rw [source?_eq_some_iff, g.id_eq entry hentry]
  exact ⟨SortedMap.get?_eq_some_of_mem hentry, g.id_eq entry hentry ▸ henabled⟩

/-- A request that names known sources asks those that are named. -/
theorem participants_of_known {ids : List String} (hne : ids ≠ [])
    (hknown : ∀ id ∈ ids, ∃ source, g.source? id = some source) :
    g.participants ids = .ok (g.available.filter fun source => ids.contains source.id) := by
  have hall : (ids.find? fun id => (g.source? id).isNone) = none := by
    rw [List.find?_eq_none]
    intro id hid
    obtain ⟨source, hsource⟩ := hknown id hid
    simp [hsource]
  rw [participants, hall, List.isEmpty_eq_false_iff.2 hne]
  rfl

/-- A request that names one source asks that source. -/
theorem participants_singleton (h : g.source? id = some source) :
    g.participants [id] = .ok [source] := by
  obtain ⟨hget, henabled⟩ := source?_eq_some_iff.1 h
  obtain ⟨rfl, -⟩ := id_of_source? h
  have hmem : source ∈ g.sources.values :=
    List.mem_map_of_mem (SortedMap.mem_of_get?_eq_some hget)
  have hkeys : (g.sources.values.map (·.id)).Nodup := by
    rw [map_id_values]
    exact g.sources.nodup_keys
  have hknown : ∀ id ∈ [source.id], ∃ source, g.source? id = some source :=
    List.forall_mem_singleton.2 ⟨source, h⟩
  rw [participants_of_known (List.cons_ne_nil _ _) hknown, available, List.filter_filter,
    filter_eq_singleton hkeys hmem]
  intro other _
  simp only [List.contains_cons, List.contains_nil, Bool.or_false, Bool.and_eq_true, beq_iff_eq]
  constructor
  · exact And.left
  · intro heq
    exact ⟨heq, heq ▸ henabled⟩

/-- The bookmark of a request that carries one source's cursor. -/
theorem readBookmark_under (hid : isWireSafeId id = true) {cursor : Option String}
    (hcursor : ∀ text, cursor = some text → CanCarry text) :
    g.readBookmark (cursor.map (id ++ ":" ++ ·)) =
      ((g.merge.sourceOrder.parseCursor cursor).map
        fun _ => ofSource id (cursor.map .active)).mapError .badContinuation := by
  cases cursor with
  | none =>
      rw [SortOrder.parseCursor_none]
      rfl
  | some text =>
      have hcarry := hcursor text rfl
      have hentries := toList_ofSource_active id hcarry.1
      rw [Option.map_some, Option.map_some, readBookmark, parse_under hid hcarry]
      cases hparse : g.merge.sourceOrder.parseCursor (some text) with
      | ok position =>
          have hnone : cursorError? g.merge.sourceOrder (ofSource id (some (.active text))) =
              none := by
            rw [cursorError?, hentries]
            simp [hparse]
          simp [Except.mapError, Except.map, bind, Except.bind, pure, Except.pure, hnone]
      | error error =>
          have hsome : cursorError? g.merge.sourceOrder (ofSource id (some (.active text))) =
              some error := by
            rw [cursorError?, hentries]
            simp [hparse]
          simp [Except.mapError, Except.map, bind, Except.bind, hsome]

end Plan

omit [Sortable α] in
theorem interpret_abort_eq_ok {id : String} {requested : Option String}
    {answer : Except SourceError (Page α)} {p : SourcePage α}
    (h : interpret .abort id requested answer = .ok p) :
    ∃ page, answer = .ok page ∧ p = ⟨id, requested, page⟩ := by
  unfold interpret at h
  split at h
  · rename_i page
    cases h
    exact ⟨page, rfl, rfl⟩
  · cases h
  · cases h

section Ask

variable {g : Gateway Id α} {o : SortOrder} {id : String} {source : Source Id α}
  {cursor : Option String} {size : Option Nat} {n : Nat}

omit [Sortable α] in
/-- Through the merge a source is asked with its own cursor. -/
theorem run_fetchSource_ofSource (hpolicy : g.config.failurePolicy = .abort)
    (hid : source.id = id) (hcursor : ∀ text, cursor = some text → CanCarry text) (n : Nat) :
    (g.fetchSource (ofSource id (cursor.map .active)) n source).run =
      interpret .abort id cursor (source.fetch cursor n) := by
  have hstate : (ofSource id (cursor.map .active)).state id = cursor.map .active := by
    rw [state_ofSource]
    cases cursor with
    | none => rfl
    | some text => simp [Option.filter, (hcursor text rfl).1]
  have hopen : (ofSource id (cursor.map .active)).state source.id ≠ some .completed := by
    rw [hid, hstate]
    cases cursor <;> simp
  have hrequested : (cursor.map Progress.active).map Progress.toRequested = cursor := by
    cases cursor <;> rfl
  rw [fetchSource_of_open source hopen, hid, hstate, hrequested, hpolicy]
  rfl

/-- A planned request for one source merges the answer of that source. -/
theorem run_fetch_singleton {request : PageRequest} (hpolicy : g.config.failurePolicy = .abort)
    (hid : source.id = id) (hcursor : ∀ text, cursor = some text → CanCarry text)
    (hplan : g.plan request = .ok ⟨n, ofSource id (cursor.map .active), [source]⟩) :
    (g.fetch request).run =
      Except.bind (interpret .abort id cursor (source.fetch cursor n))
        fun p => g.mergePages [p] n := by
  have hask := run_fetchSource_ofSource hpolicy hid hcursor n
  rw [fetch, hplan]
  change ExceptT.run ([source].mapM (g.fetchSource (ofSource id (cursor.map .active)) n) >>=
    fun pages => ExceptT.mk (pure (g.mergePages pages n))) = _
  rw [List.mapM_cons, List.mapM_nil, bind_assoc, ExceptT.run_bind, hask]
  cases interpret .abort id cursor (source.fetch cursor n) <;> rfl

/-- A source that is asked alone has its answer cut to the page. -/
theorem run_fetchSingle (hsource : g.source? id = some source)
    (hsize : g.resolveSize size = .ok n) {position : Option g.merge.sourceOrder.Cursor}
    (hparse : g.merge.sourceOrder.parseCursor cursor = .ok position) :
    (g.fetchSingle id cursor size).run =
      Except.map (fun p => trim g.merge.sourceOrder p.page n)
        (interpret .abort id cursor (source.fetch cursor n)) := by
  have hresolved : (ExceptT.mk (pure (g.resolveSize size)) : ExceptT GatewayError Id Nat) =
      pure n := by
    rw [hsize]
    rfl
  have hasked : (ExceptT.lift (source.fetch cursor n) : ExceptT GatewayError Id _) =
      pure (source.fetch cursor n) := rfl
  rw [fetchSingle, hresolved, pure_bind, hsource]
  simp only [hparse]
  rw [hasked, pure_bind]
  cases interpret .abort id cursor (source.fetch cursor n) <;> rfl

/-- A request for a single source is answered by the page that the source gives alone, put
under its id. -/
theorem fetch_eq_handOut (hconfig : g.config.check = .ok ()) (hmerge : g.merge = .single o)
    (hpolicy : g.config.failurePolicy = .abort) (hsource : g.source? id = some source)
    (hcursor : ∀ text, cursor = some text → CanCarry text)
    (hanswer : ∀ n page, g.resolveSize size = .ok n → source.fetch cursor n = .ok page →
      page.entities ≠ [] ∨ page.continuation = none) :
    Except.map MergedPage.page (g.fetch ⟨cursor.map (id ++ ":" ++ ·), size, [id]⟩).run =
      Except.bind (g.fetchSingle id cursor size).run (handOut id) := by
  obtain ⟨hid, hsafe⟩ := id_of_source? hsource
  have hread := readBookmark_under (g := g) hsafe hcursor
  -- Both ways check the size first and the cursor next; only then is the source asked.
  cases hsize : g.resolveSize size with
  | error error =>
      rw [fetch, plan, fetchSingle, hsize]
      rfl
  | ok n =>
      cases hparse : g.merge.sourceOrder.parseCursor cursor with
      | error error =>
          rw [hparse] at hread
          rw [fetch, plan, fetchSingle, hsize, hread, hsource]
          simp only [hparse]
          rfl
      | ok position =>
          rw [hparse] at hread
          have hplan : g.plan ⟨cursor.map (id ++ ":" ++ ·), size, [id]⟩ =
              .ok ⟨n, ofSource id (cursor.map .active), [source]⟩ :=
            plan_eq_ok_iff.2 ⟨hsize, hread, participants_singleton hsource⟩
          rw [run_fetch_singleton hpolicy hid hcursor hplan, run_fetchSingle hsource hsize hparse]
          cases hinterpret : interpret .abort id cursor (source.fetch cursor n) with
          | error error => rfl
          | ok p =>
              obtain ⟨page, hpage, rfl⟩ := interpret_abort_eq_ok hinterpret
              have hopen : cursor ≠ some Progress.completedMark := by
                rintro rfl
                exact (hcursor _ rfl).2.2 rfl
              have hmerged := mergePages_singleton hmerge (p := ⟨id, cursor, page⟩) hsafe
                (one_le_size hconfig hsize) (by simpa [SourcePage.isCompleted] using hopen)
                (hanswer n page hsize hpage)
              have hsame : g.merge.sourceOrder = o := by rw [hmerge]; rfl
              rw [hsame]
              exact hmerged

/-- Asked through the merge, a single source fails as it fails alone, or delivers the same
entities and continues where it continues alone.  Only a next cursor that a bookmark cannot
carry makes a difference; unless it is empty, it is refused. -/
theorem fetch_single_agrees (hconfig : g.config.check = .ok ()) (hmerge : g.merge = .single o)
    (hpolicy : g.config.failurePolicy = .abort) (hsource : g.source? id = some source)
    (hcursor : ∀ text, cursor = some text → CanCarry text)
    (hanswer : ∀ n page, g.resolveSize size = .ok n → source.fetch cursor n = .ok page →
      page.entities ≠ [] ∨ page.continuation = none) :
    (∃ error, (g.fetchSingle id cursor size).run = .error error ∧
      (g.fetch ⟨cursor.map (id ++ ":" ++ ·), size, [id]⟩).run = .error error) ∨
    (∃ alone merged, (g.fetchSingle id cursor size).run = .ok alone ∧
      (g.fetch ⟨cursor.map (id ++ ":" ++ ·), size, [id]⟩).run = .ok merged ∧
        alone.UnderId id merged.page) ∨
    ∃ alone next, (g.fetchSingle id cursor size).run = .ok alone ∧
      alone.continuation = some next ∧ ¬ CanCarry next ∧
        (next = "" ∨ (g.fetch ⟨cursor.map (id ++ ":" ++ ·), size, [id]⟩).run =
          .error (.unencodableCursor id)) := by
  have hunder := fetch_eq_handOut hconfig hmerge hpolicy hsource hcursor hanswer
  cases halone : (g.fetchSingle id cursor size).run with
  | error error =>
      rw [halone] at hunder
      exact Or.inl ⟨error, rfl, eq_error_of_map_eq_error hunder⟩
  | ok alone =>
      rw [halone] at hunder
      change _ = handOut id alone at hunder
      by_cases hcarry : ∀ next, alone.continuation = some next → CanCarry next
      · rw [handOut_of_canCarry hcarry] at hunder
        obtain ⟨merged, hmerged, hpage⟩ := exists_of_map_eq_ok hunder
        exact Or.inr (Or.inl ⟨alone, merged, rfl, hmerged, hpage ▸ alone.underId_under id⟩)
      · push Not at hcarry
        obtain ⟨next, hnext, hlost⟩ := hcarry
        refine Or.inr (Or.inr ⟨alone, next, rfl, hnext, hlost, ?_⟩)
        by_cases hempty : next = ""
        · exact Or.inl hempty
        · simp only [handOut, hnext, if_neg hempty, if_neg hlost] at hunder
          exact Or.inr (eq_error_of_map_eq_error hunder)

end Ask

end Gateway

namespace Sample

open Bookmark

/-- A source that answers every request with the same unsorted items, and has more. -/
def scripted : Source Id Item where
  id := "east"
  fetch _ _ := .ok ⟨some "9000_9", [item "3" 3, item "1" 1, item "2" 2]⟩

/-- A gateway in front of that source. -/
def scriptedGateway : Gateway Id Item :=
  gateway byTime .abort scripted west.toSource

/-- The scripted source asked behind the start, for pages of two. -/
theorem fetch_single_scripted :
    ∃ alone merged,
      (scriptedGateway.fetchSingle "east" (some "0_a") (some 2)).run = .ok alone ∧
      (scriptedGateway.fetch ⟨some "east:0_a", some 2, ["east"]⟩).run = .ok merged ∧
      alone.UnderId "east" merged.page := by
  have halone : (scriptedGateway.fetchSingle "east" (some "0_a") (some 2)).run =
      .ok ⟨some "2000_2", [item "1" 1, item "2" 2]⟩ := by
    cbv
  have hsource : scriptedGateway.source? "east" = some scripted := by rfl
  have hcursor : ∀ text, some "0_a" = some text → CanCarry text := by decide
  have hanswer : ∀ n page, scriptedGateway.resolveSize (some 2) = .ok n →
      scripted.fetch (some "0_a") n = .ok page →
        page.entities ≠ [] ∨ page.continuation = none := by
    rintro n page - h
    cases h
    simp
  obtain ⟨error, h, -⟩ | h | ⟨alone, next, h, hnext, hlost, -⟩ :=
    Gateway.fetch_single_agrees (by rfl) rfl rfl hsource hcursor hanswer
  · cases halone.symm.trans h
  · exact h
  · cases halone.symm.trans h
    cases hnext
    exact absurd (by decide) hlost

end Sample

end MergedPaging
