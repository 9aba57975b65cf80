/-
Which sources a request selects, and what a page depends on.  The named sources are looked up one
by one, sorted by id, and neighbours with the same id are taken once: what remains is the set of
the names, in id order.  A page depends on nothing else of the names, and of the continuation only
on the states of the selected sources.
-/
import MergedPaging.Proofs.Precedence
import Mathlib.Data.List.Sort
import Mathlib.Data.List.Destutter
import Mathlib.Data.String.Basic

namespace MergedPaging

namespace Gateway

section Select

variable {m : Type → Type} {α : Type} {g : Gateway m α} {names names' : List String}

/-- The source of a name in a request. -/
def lookUp (g : Gateway m α) (id : String) : Except GatewayError (Source m α) :=
  match g.source? id with
  | none => .error (.unknownSource id)
  | some source => .ok source

/-- Sources in id order, each id once. -/
def distinct (found : List (Source m α)) : List (Source m α) :=
  (found.mergeSort fun s t => s.id ≤ t.id).destutter fun s t => s.id ≠ t.id

/-- The sources that a request selects: those that it names, or without names all. -/
def select (g : Gateway m α) (names : List String) : Except GatewayError (List (Source m α)) :=
  if names = [] then .ok g.available
  else distinct <$> names.mapM g.lookUp

/-- Looking up stops at the first name that is not known. -/
theorem mapM_lookUp (g : Gateway m α) (names : List String) :
    names.mapM g.lookUp = (names.find? fun id => (g.source? id).isNone).elim
      (.ok (names.filterMap g.source?)) fun id => .error (.unknownSource id) := by
  induction names with
  | nil => rfl
  | cons id names ih =>
      rw [List.mapM_cons, lookUp]
      cases hsource : g.source? id with
      | none =>
          rw [List.find?_cons_of_pos (by simp [hsource])]
          rfl
      | some source =>
          rw [List.find?_cons_of_neg (by simp [hsource]), List.filterMap_cons_some hsource, ih]
          cases names.find? fun id => (g.source? id).isNone with
          | none => rfl
          | some unknown => rfl

theorem mem_available_iff {s : Source m α} : s ∈ g.available ↔ g.source? s.id = some s := by
  constructor
  · exact source?_of_mem_available
  · intro hsource
    obtain ⟨hget, henabled⟩ := source?_eq_some_iff.1 hsource
    have hvalue := List.mem_map_of_mem (f := Prod.snd) (SortedMap.mem_of_get?_eq_some hget)
    exact List.mem_filter.2 ⟨hvalue, henabled⟩

theorem mem_ids_available_iff {id : String} :
    id ∈ g.available.map (·.id) ↔ g.terms.Knows id := by
  rw [← exists_source?_iff, List.mem_map]
  apply exists_congr
  intro s
  rw [mem_available_iff]
  constructor
  · rintro ⟨hsource, rfl⟩
    exact hsource
  · intro hsource
    obtain ⟨rfl, -⟩ := id_of_source? hsource
    exact ⟨hsource, rfl⟩

theorem mem_filterMap_source?_iff {s : Source m α} :
    s ∈ names.filterMap g.source? ↔ s ∈ g.available ∧ s.id ∈ names := by
  rw [List.mem_filterMap, mem_available_iff]
  constructor
  · rintro ⟨id, hid, hsource⟩
    obtain ⟨rfl, -⟩ := id_of_source? hsource
    exact ⟨hsource, hid⟩
  · rintro ⟨hsource, hid⟩
    exact ⟨s.id, hid, hsource⟩

/-- Available sources in id order, each once. -/
structure Chosen (g : Gateway m α) (sources : List (Source m α)) : Prop where
  available : ∀ s ∈ sources, s ∈ g.available
  increasing : (sources.map (·.id)).SortedLT

/-- Such sources are known from the set of their ids. -/
theorem Chosen.eq_of_ids {sources sources' : List (Source m α)} (h : g.Chosen sources)
    (h' : g.Chosen sources')
    (hids : ∀ id, id ∈ sources.map (·.id) ↔ id ∈ sources'.map (·.id)) : sources = sources' := by
  have hfound {l : List (Source m α)} (hl : g.Chosen l) :
      l.map some = (l.map (·.id)).map g.source? := by
    rw [List.map_map]
    exact List.map_congr_left fun s hs => (source?_of_mem_available (hl.available s hs)).symm
  apply List.map_injective_iff.2 (Option.some_injective _)
  rw [hfound h, hfound h', h.increasing.eq_of_mem_iff h'.increasing hids]

theorem chosen_of_sublist {sources : List (Source m α)} (h : sources.Sublist g.available) :
    g.Chosen sources where
  available _ hs := h.subset hs
  increasing := by
    have hvalues : (g.sources.values.map (·.id)).Pairwise (· < ·) := by
      rw [map_id_values, List.pairwise_map]
      exact g.sources.increasing.imp compare_lt_iff_lt.1
    exact (hvalues.sublist ((h.trans List.filter_sublist).map _)).sortedLT

theorem sortedLE_mergeSort_id (found : List (Source m α)) :
    ((found.mergeSort fun s t => s.id ≤ t.id).map (·.id)).SortedLE := by
  refine (List.pairwise_map.2 ((List.pairwise_mergeSort ?_ ?_ found).imp ?_)).sortedLE
  · simpa using fun s t u : Source m α => le_trans
  · simpa using fun s t : Source m α => le_total s.id t.id
  · exact fun h => of_decide_eq_true h

/-- In a list sorted by id the neighbours with the same id are all that have it. -/
theorem map_id_distinct (found : List (Source m α)) :
    (distinct found).map (·.id) =
      ((found.mergeSort fun s t => s.id ≤ t.id).map (·.id)).dedup := by
  rw [← (sortedLE_mergeSort_id found).pairwise.destutter_eq_dedup, distinct]
  exact List.map_destutter fun _ _ _ _ => Iff.rfl

theorem mem_ids_distinct_iff {found : List (Source m α)} {id : String} :
    id ∈ (distinct found).map (·.id) ↔ id ∈ found.map (·.id) := by
  rw [map_id_distinct, List.mem_dedup]
  exact ((List.mergeSort_perm found _).map _).mem_iff

theorem chosen_distinct {found : List (Source m α)} (h : ∀ s ∈ found, s ∈ g.available) :
    g.Chosen (distinct found) where
  available s hs :=
    h s ((List.mergeSort_perm _ _).subset ((List.destutter_sublist _ _).subset hs))
  increasing := by
    rw [map_id_distinct]
    have hsorted := (sortedLE_mergeSort_id found).pairwise.sublist (List.dedup_sublist _)
    exact hsorted.sortedLE.sortedLT_of_nodup (List.nodup_dedup _)

/-- The sources that take part are those that are selected. -/
theorem participants_eq_select (g : Gateway m α) (names : List String) :
    g.participants names = g.select names := by
  rw [participants, select, mapM_lookUp]
  split
  · rename_i id hid
    have hne : names ≠ [] := by
      rintro rfl
      cases hid
    rw [if_neg hne, hid]
    rfl
  · rename_i hnone
    rw [hnone]
    split
    · rename_i hnames
      rw [hnames]
      exact congrArg Except.ok (List.filter_eq_self.2 fun _ _ => rfl)
    · rename_i hne
      have hempty : names.isEmpty = false := List.isEmpty_eq_false_iff.2 hne
      have hfound : g.Chosen (distinct (names.filterMap g.source?)) :=
        chosen_distinct fun s hs => (mem_filterMap_source?_iff.1 hs).1
      refine congrArg Except.ok ((chosen_of_sublist List.filter_sublist).eq_of_ids hfound ?_)
      intro id
      rw [mem_ids_distinct_iff]
      simp only [List.mem_map, List.mem_filter, mem_filterMap_source?_iff, hempty, Bool.false_or,
        List.contains_iff_mem]

/-- A source takes part if it is named, or known when no source is named. -/
def TakesPart (g : Gateway m α) (names : List String) (id : String) : Prop :=
  id ∈ names ∨ names = [] ∧ g.terms.Knows id

theorem of_participants_eq_ok {sources : List (Source m α)}
    (h : g.participants names = .ok sources) :
    (∀ id ∈ names, g.terms.Knows id) ∧
      sources = g.available.filter fun s => names.isEmpty || names.contains s.id := by
  rw [participants] at h
  split at h
  · cases h
  · rename_i hnone
    refine ⟨?_, (Except.ok.inj h).symm⟩
    intro id hid
    have hsome := List.find?_eq_none.1 hnone id hid
    rwa [isNone_source?_iff, not_not] at hsome

theorem mem_ids_participants_iff {sources : List (Source m α)}
    (h : g.participants names = .ok sources) {id : String} :
    id ∈ sources.map (·.id) ↔ g.TakesPart names id := by
  obtain ⟨hknown, rfl⟩ := of_participants_eq_ok h
  have hchosen (s : Source m α) :
      (names.isEmpty || names.contains s.id) = true ↔ names = [] ∨ s.id ∈ names := by
    rw [Bool.or_eq_true, List.isEmpty_iff, List.contains_iff_mem]
  constructor
  · intro hid
    obtain ⟨s, hs, rfl⟩ := List.mem_map.1 hid
    obtain ⟨hs, hs'⟩ := List.mem_filter.1 hs
    rcases (hchosen s).1 hs' with hempty | hnamed
    · exact Or.inr ⟨hempty, mem_ids_available_iff.1 (List.mem_map_of_mem hs)⟩
    · exact Or.inl hnamed
  · intro hid
    have hknows : g.terms.Knows id := hid.elim (hknown id) And.right
    obtain ⟨s, hs, rfl⟩ := List.mem_map.1 (mem_ids_available_iff.2 hknows)
    have hs' := (hchosen s).2 (hid.symm.imp_left And.left)
    exact List.mem_map_of_mem (List.mem_filter.2 ⟨hs, hs'⟩)

/-- The sources that take part are known from the set of their ids. -/
theorem participants_congr {sources sources' : List (Source m α)}
    (h : g.participants names = .ok sources) (h' : g.participants names' = .ok sources')
    (hsame : ∀ id, g.TakesPart names id ↔ g.TakesPart names' id) : sources = sources' := by
  have hchosen {names : List String} {sources : List (Source m α)}
      (h : g.participants names = .ok sources) : g.Chosen sources := by
    obtain ⟨-, rfl⟩ := of_participants_eq_ok h
    exact chosen_of_sublist List.filter_sublist
  apply (hchosen h).eq_of_ids (hchosen h')
  intro id
  rw [mem_ids_participants_iff h, mem_ids_participants_iff h', hsame]

end Select

section Fetch

variable {m : Type → Type} {α : Type} {g : Gateway m α} {request request' : PageRequest}

/-- Requests for as many rows of the same sources, whose continuations say the same of each of
these sources. -/
structure Agree (g : Gateway m α) (request request' : PageRequest) : Prop where
  size : g.resolveSize request.size = g.resolveSize request'.size
  sources : ∀ id, g.TakesPart request.sources id ↔ g.TakesPart request'.sources id
  states : ∀ b b', Bookmark.parse request.continuation = .ok b →
    Bookmark.parse request'.continuation = .ok b' →
      ∀ id, g.TakesPart request.sources id → b.state id = b'.state id

variable [Monad m] [LawfulMonad m]

omit [LawfulMonad m] in
/-- A source sees of a bookmark nothing but its own state. -/
theorem fetchSource_congr {b b' : Bookmark} {s : Source m α} (h : b.state s.id = b'.state s.id)
    (n : Nat) : g.fetchSource b n s = g.fetchSource b' n s := by
  rw [fetchSource, fetchSource, h]

theorem mapM_fetchSource_congr {b b' : Bookmark} {sources : List (Source m α)} {n : Nat}
    (h : ∀ s ∈ sources, b.state s.id = b'.state s.id) :
    sources.mapM (g.fetchSource b n) = sources.mapM (g.fetchSource b' n) := by
  induction sources with
  | nil => rfl
  | cons s sources ih =>
      rw [List.mapM_cons, List.mapM_cons, fetchSource_congr (h s List.mem_cons_self),
        ih fun t ht => h t (List.mem_cons_of_mem s ht)]

variable [Sortable α]

/-- Requests that agree and are not refused select the same sources and have the same answer,
with the same effects: the order and repetition of names, and what a continuation says of other
sources, do not show in the page, in its continuation or in an error. -/
theorem fetch_eq_of_agree (hadmitted : ∀ error, ¬ g.terms.Refuses request error)
    (hadmitted' : ∀ error, ¬ g.terms.Refuses request' error) (hagree : g.Agree request request') :
    (∃ sources, g.select request.sources = .ok sources ∧
      g.select request'.sources = .ok sources ∧
        ∀ id, id ∈ sources.map (·.id) ↔ g.TakesPart request.sources id) ∧
    g.fetch request = g.fetch request' := by
  obtain ⟨⟨size, b, sources⟩, hplan⟩ := exists_plan_of_not_refuses hadmitted
  obtain ⟨⟨size', b', sources'⟩, hplan'⟩ := exists_plan_of_not_refuses hadmitted'
  obtain ⟨hsize, hread, hsources⟩ := plan_eq_ok_iff.1 hplan
  obtain ⟨hsize', hread', hsources'⟩ := plan_eq_ok_iff.1 hplan'
  dsimp only at hsize hread hsources hsize' hread' hsources'
  obtain rfl := Except.ok.inj (hsize.symm.trans (hagree.size.trans hsize'))
  obtain rfl := participants_congr hsources hsources' hagree.sources
  have hids {id : String} : id ∈ sources.map (·.id) ↔ g.TakesPart request.sources id :=
    mem_ids_participants_iff hsources
  have hstates : ∀ s ∈ sources, b.state s.id = b'.state s.id := by
    intro s hs
    exact hagree.states b b' (readBookmark_eq_ok_iff.1 hread).1 (readBookmark_eq_ok_iff.1 hread').1
      s.id (hids.1 (List.mem_map_of_mem hs))
  rw [← participants_eq_select, ← participants_eq_select]
  refine ⟨⟨sources, hsources, hsources', fun id => hids⟩, ?_⟩
  rw [fetch, fetch, hplan, hplan']
  change (pure _ : ExceptT GatewayError m _) >>= _ = (pure _ : ExceptT GatewayError m _) >>= _
  rw [pure_bind, pure_bind, mapM_fetchSource_congr hstates]

end Fetch

end Gateway

namespace Sample

open Gateway

/-- Names out of order and repeated, and a continuation with an empty piece, an entry that is
overruled and one of a source that nobody asks. -/
def wordy : PageRequest where
  continuation := some "west:7_9;;north:5_8;east:1000_1;west:COMPLETED;"
  sources := ["west", "east", "west"]

def plain : PageRequest where
  continuation := some "east:1000_1;west:COMPLETED"
  size := some 50

def plainBookmark : Bookmark :=
  .ofList [("east", some (.active "1000_1")), ("west", some .completed)]

theorem agree_wordy_plain : eastAndWest.Agree wordy plain where
  size := rfl
  sources id := by
    have hwordy : eastAndWest.participants wordy.sources = .ok [east.toSource, west.toSource] :=
      rfl
    have hplain : eastAndWest.participants plain.sources = .ok [east.toSource, west.toSource] :=
      rfl
    rw [← mem_ids_participants_iff hwordy, mem_ids_participants_iff hplain]
  states b b' hb hb' id hid := by
    have hparse : Bookmark.parse wordy.continuation =
        .ok (plainBookmark.set "north" (some (.active "5_8"))) := by cbv
    have hparse' : Bookmark.parse plain.continuation = .ok plainBookmark := by cbv
    obtain rfl := Except.ok.inj (hparse.symm.trans hb)
    obtain rfl := Except.ok.inj (hparse'.symm.trans hb')
    rw [Bookmark.state_set, if_neg]
    rintro rfl
    exact absurd hid (by simp [TakesPart, wordy])

/-- The two requests agree, so both have the second row of the eastern source, and the same page
around it. -/
theorem wordy_as_plain :
    eastAndWest.Agree wordy plain ∧
    (∃ page, (eastAndWest.fetch plain).run = .ok page ∧ page.page.entities = [item "3" 3]) ∧
    eastAndWest.fetch wordy = eastAndWest.fetch plain := by
  obtain ⟨-, hsame⟩ :=
    fetch_eq_of_agree (not_refuses_of_plan rfl) (not_refuses_of_plan rfl) agree_wordy_plain
  exact ⟨agree_wordy_plain, ⟨_, by cbv, by cbv⟩, hsame⟩

end Sample

end MergedPaging
