/-
The text of a bookmark.  A wire safe bookmark is read back from its text as itself,
and every bookmark that is read from some text is wire safe.  So a bookmark that a
client sends back says what it said when it was handed out.
-/
import MergedPaging.Proofs.Winners

namespace MergedPaging

open Std

namespace SortedMap

variable {κ ν : Type} [Ord κ] [TransOrd κ] [LawfulEqOrd κ]

theorem get?_eq_some_of_mem {m : SortedMap κ ν} {entry : κ × ν} (h : entry ∈ m.entries) :
    m.get? entry.1 = some entry.2 := by
  obtain ⟨entries, hincreasing⟩ := m
  simp only [get?] at h ⊢
  induction entries with
  | nil => simp at h
  | cons head rest ih =>
      rw [List.pairwise_cons] at hincreasing
      rcases List.mem_cons.1 h with rfl | hrest
      · simp [lookup]
      · have hne : compare entry.1 head.1 ≠ .eq := by
          rw [OrientedCmp.gt_of_lt (hincreasing.1 entry hrest)]
          simp
        rw [lookup, if_neg hne]
        exact ih hincreasing.2 hrest

omit [TransOrd κ] in
theorem mem_of_get?_eq_some {m : SortedMap κ ν} {key : κ} {value : ν}
    (h : m.get? key = some value) : (key, value) ∈ m.entries := by
  obtain ⟨entries, hincreasing⟩ := m
  simp only [get?] at h ⊢
  clear hincreasing
  induction entries with
  | nil => simp [lookup] at h
  | cons head rest ih =>
      obtain ⟨k, v⟩ := head
      rw [lookup] at h
      split at h
      · rename_i heq
        rw [LawfulEqOrd.eq_of_compare heq, Option.some.inj h]
        exact List.mem_cons_self
      · exact List.mem_cons_of_mem _ (ih h)

omit [LawfulEqOrd κ] in
theorem nodup_keys (m : SortedMap κ ν) : (m.entries.map Prod.fst).Nodup := by
  rw [List.Nodup, List.pairwise_map]
  refine m.increasing.imp ?_
  intro a b hlt heq
  rw [heq, ReflOrd.compare_self] at hlt
  cases hlt

omit [LawfulEqOrd κ] in
/-- The first entry with a property has the least key of all that have it. -/
theorem isLE_of_find? {m : SortedMap κ ν} {p : κ × ν → Bool} {entry other : κ × ν}
    (hfound : m.entries.find? p = some entry) (hmem : other ∈ m.entries) (hp : p other = true) :
    (compare entry.1 other.1).isLE := by
  obtain ⟨-, before, after, hsplit, hbefore⟩ := List.find?_eq_some_iff_append.1 hfound
  have hincreasing := m.increasing
  rw [hsplit] at hincreasing hmem
  rcases List.mem_append.1 hmem with hmem | hmem
  · exact absurd hp (by simpa using hbefore other hmem)
  · rcases List.mem_cons.1 hmem with rfl | hmem
    · exact ReflCmp.isLE_rfl
    · rw [List.rel_of_pairwise_cons (List.pairwise_append.1 hincreasing).2.1 hmem]
      rfl

end SortedMap

namespace Text

theorem splitOn_of_notMem {sep : Char} {text : List Char} (hfree : sep ∉ text) :
    splitOn sep text = [text] := by
  induction text with
  | nil => rfl
  | cons c text ih =>
      simp only [List.mem_cons, not_or] at hfree
      rw [splitOn, if_neg (Ne.symm hfree.1), ih hfree.2]
      rfl

theorem splitOn_append {sep : Char} {piece : List Char} (hfree : sep ∉ piece)
    (rest : List Char) : splitOn sep (piece ++ sep :: rest) = piece :: splitOn sep rest := by
  induction piece with
  | nil => simp [splitOn]
  | cons c piece ih =>
      simp only [List.mem_cons, not_or] at hfree
      rw [List.cons_append, splitOn, if_neg (Ne.symm hfree.1), ih hfree.2]
      rfl

/-- No piece holds the separator. -/
theorem notMem_of_mem_splitOn {sep : Char} {text piece : List Char}
    (hpiece : piece ∈ splitOn sep text) : sep ∉ piece := by
  induction text generalizing piece with
  | nil =>
      obtain rfl : piece = [] := by simpa [splitOn] using hpiece
      exact List.not_mem_nil
  | cons c rest ih =>
      have hne : splitOn sep rest ≠ [] := splitOn_ne_nil rest
      obtain ⟨first, pieces, hrest⟩ := List.exists_cons_of_ne_nil hne
      rw [hrest] at ih
      rw [splitOn, hrest] at hpiece
      by_cases hc : c = sep
      · rw [if_pos hc, List.mem_cons] at hpiece
        rcases hpiece with rfl | hpiece
        · exact List.not_mem_nil
        · exact ih hpiece
      · rw [if_neg hc, List.modifyHead_cons, List.mem_cons] at hpiece
        rcases hpiece with rfl | hpiece
        · simp only [List.mem_cons, not_or]
          exact ⟨Ne.symm hc, ih List.mem_cons_self⟩
        · exact ih (List.mem_cons_of_mem _ hpiece)

end Text

namespace Progress

/-- Progress that a requested continuation stands for asks for it again. -/
theorem ofRequested_toRequested {p : Progress} (hsafe : p.isWireSafe = true)
    (hne : p ≠ .active "") : ofRequested (some p.toRequested) = some p := by
  cases p with
  | active cursor =>
      have hcursor : cursor ≠ "" := fun h => hne (by rw [h])
      simp only [isWireSafe, Bool.and_eq_true, bne_iff_ne] at hsafe
      simp [ofRequested, toRequested, hcursor, hsafe.1]
  | completed => rfl

theorem ofRequested_eq_some {cursor : String} {p : Progress}
    (h : ofRequested (some cursor) = some p) :
    p.toRequested = cursor ∧ p ≠ .active completedMark ∧ p ≠ .active "" := by
  unfold ofRequested at h
  split at h
  · cases h
  · rename_i text heq
    obtain rfl : cursor = text := Option.some.inj heq
    split at h
    · cases h
    · rename_i hne
      split at h
      · rename_i hmark
        cases h
        exact ⟨hmark.symm, by simp, by simp⟩
      · rename_i hmark
        cases h
        exact ⟨rfl, by simpa using hmark, by simpa using hne⟩

end Progress

namespace Bookmark

/-- A bookmark is known from the progress of every source. -/
theorem ext_state {b b' : Bookmark} (h : ∀ id, b.state id = b'.state id) : b = b' := by
  obtain ⟨states, hstates⟩ := b
  obtain ⟨states', hstates'⟩ := b'
  obtain rfl : states = states' := SortedMap.ext_get? h
  rfl

theorem state_eq_some_iff {b : Bookmark} {id : String} {p : Progress} :
    b.state id = some p ↔ (id, p) ∈ b.toList :=
  ⟨SortedMap.mem_of_get?_eq_some, fun h => SortedMap.get?_eq_some_of_mem h⟩

theorem isWireSafe_iff {b : Bookmark} :
    b.isWireSafe = true ↔
      ∀ id p, b.state id = some p → isWireSafeId id = true ∧ p.isWireSafe = true := by
  simp only [isWireSafe, List.all_eq_true, isWireSafeEntry, Bool.and_eq_true, Prod.forall,
    state_eq_some_iff]

theorem state_ne_active_empty (b : Bookmark) (id : String) : b.state id ≠ some (.active "") := by
  intro h
  exact b.cursor_ne_empty (id, .active "") (state_eq_some_iff.1 h) rfl

/-- Setting the states of a bookmark one after the other gives it back. -/
theorem ofList_toList (b : Bookmark) :
    ofList (b.toList.map fun entry => (entry.1, some entry.2)) = b := by
  have hkeys : ((b.toList.map fun entry => (entry.1, some entry.2)).map Prod.fst) =
      b.toList.map Prod.fst := by
    simp [Function.comp_def]
  have hnodup : (b.toList.map Prod.fst).Nodup := b.states.nodup_keys
  apply ext_state
  intro id
  cases hstate : b.state id with
  | some p =>
      have hentry : (id, some p) ∈ b.toList.map fun entry => (entry.1, some entry.2) :=
        List.mem_map_of_mem (f := fun entry : String × Progress => (entry.1, some entry.2))
          (state_eq_some_iff.1 hstate)
      rw [state_ofList (hkeys ▸ hnodup) hentry]
      have hne : p ≠ .active "" := fun h => b.state_ne_active_empty id (h ▸ hstate)
      simp [hne]
  | none =>
      apply state_ofList_of_notMem
      rw [hkeys]
      intro hid
      obtain ⟨entry, hentry, rfl⟩ := List.mem_map.1 hid
      rw [state_eq_some_iff.2 hentry] at hstate
      cases hstate

theorem splitOn_printEntries {entries : List (String × Progress)}
    (hfree : ∀ entry ∈ entries, ';' ∉ printEntry entry) :
    (Text.splitOn ';' (printEntries entries)).filter (fun piece => !piece.isEmpty) =
      entries.map printEntry := by
  have hne (entry : String × Progress) : (printEntry entry).isEmpty = false := by
    simp [printEntry]
  induction entries with
  | nil => rfl
  | cons entry rest ih =>
      have hentry := hfree entry List.mem_cons_self
      have hrest := ih fun e he => hfree e (List.mem_cons_of_mem _ he)
      cases rest with
      | nil => simp [printEntries, Text.splitOn_of_notMem hentry, hne]
      | cons next rest =>
          rw [printEntries, Text.splitOn_append hentry, List.filter_cons_of_pos (by simp [hne]),
            hrest]
          · rfl
          · simp

theorem notMem_toList_of_not_contains {text : String} {c : Char}
    (h : text.toList.contains c = false) : c ∉ text.toList := by
  simpa using h

theorem notMem_printEntry {entry : String × Progress} (hsafe : isWireSafeEntry entry = true) :
    ';' ∉ printEntry entry := by
  obtain ⟨id, p⟩ := entry
  simp only [isWireSafeEntry, isWireSafeId, Bool.and_eq_true, Bool.not_eq_true'] at hsafe
  obtain ⟨⟨⟨-, hid⟩, -⟩, hp⟩ := hsafe
  have hcursor : ';' ∉ p.toRequested.toList := by
    cases p with
    | active cursor =>
        simp only [Progress.isWireSafe, Bool.and_eq_true, Bool.not_eq_true'] at hp
        exact notMem_toList_of_not_contains hp.2
    | completed => decide
  have hid' := notMem_toList_of_not_contains hid
  simp [printEntry, hid', hcursor]

theorem parsePiece_printEntry {entry : String × Progress} (hsafe : isWireSafeEntry entry = true)
    (hne : entry.2 ≠ .active "") :
    parsePiece (printEntry entry) = .ok (entry.1, entry.2.toRequested) := by
  obtain ⟨id, p⟩ := entry
  simp only [isWireSafeEntry, isWireSafeId, Bool.and_eq_true, Bool.not_eq_true',
    bne_iff_ne] at hsafe
  obtain ⟨⟨⟨hempty, -⟩, hid⟩, hp⟩ := hsafe
  have hcursor : p.toRequested.toList ≠ [] := by
    cases p with
    | active cursor =>
        intro h
        exact hne (by rw [Progress.toRequested, String.toList_eq_nil_iff] at h; rw [h])
    | completed => decide
  have hid' : id.toList ≠ [] := by simpa using hempty
  rw [parsePiece, printEntry, Text.splitFirst_append _ (notMem_toList_of_not_contains hid)]
  simp [hcursor, hid']

theorem parsePieces_printEntries {entries : List (String × Progress)}
    (hsafe : ∀ entry ∈ entries, isWireSafeEntry entry = true)
    (hne : ∀ entry ∈ entries, entry.2 ≠ .active "") (b : Bookmark) :
    parsePieces b (entries.map printEntry) =
      .ok ((entries.map fun entry => (entry.1, some entry.2)).foldl
        (fun b entry => b.set entry.1 entry.2) b) := by
  induction entries generalizing b with
  | nil => rfl
  | cons entry rest ih =>
      have hentry := hsafe entry List.mem_cons_self
      have hcursor := hne entry List.mem_cons_self
      simp only [isWireSafeEntry, Bool.and_eq_true] at hentry
      rw [List.map_cons, parsePieces,
        parsePiece_printEntry (hsafe entry List.mem_cons_self) hcursor]
      simp only [Progress.ofRequested_toRequested hentry.2 hcursor]
      rw [ih (fun e he => hsafe e (List.mem_cons_of_mem _ he))
        fun e he => hne e (List.mem_cons_of_mem _ he)]
      rfl

/-- A wire safe bookmark is read back from its text. -/
theorem parse_toString {b : Bookmark} (hsafe : b.isWireSafe = true) :
    parse (some (toString b)) = .ok b := by
  have hentries : ∀ entry ∈ b.toList, isWireSafeEntry entry = true := by
    simpa [isWireSafe] using hsafe
  have htext : (toString b).toList = printEntries b.toList := by simp [toString]
  rw [parse]
  simp only [htext]
  rw [splitOn_printEntries fun entry h => notMem_printEntry (hentries entry h),
    parsePieces_printEntries hentries b.cursor_ne_empty]
  exact congrArg Except.ok (ofList_toList b)

theorem isWireSafe_set {b : Bookmark} (hb : b.isWireSafe = true) {id : String}
    {state : Option Progress} (hid : isWireSafeId id = true)
    (hstate : ∀ p, state = some p → p.isWireSafe = true) :
    (b.set id state).isWireSafe = true := by
  rw [isWireSafe_iff] at hb ⊢
  intro id' p hp
  rw [state_set] at hp
  split at hp
  · rename_i heq
    rw [Option.filter_eq_some_iff] at hp
    exact ⟨heq ▸ hid, hstate p hp.1⟩
  · exact hb id' p hp

/-- A piece without `;` names a source that a bookmark can carry, and a cursor. -/
theorem isWireSafeId_of_parsePiece {piece : List Char} (hfree : ';' ∉ piece)
    {id cursor : String} (h : parsePiece piece = .ok (id, cursor)) :
    isWireSafeId id = true ∧ ';' ∉ cursor.toList := by
  rw [parsePiece] at h
  split at h
  · cases h
  · rename_i before after hsplit
    obtain ⟨rfl, hcolon⟩ := Text.eq_append_of_splitFirst hsplit
    simp only [List.mem_append, List.mem_cons, not_or] at hfree
    split at h
    · cases h
    · rename_i hbefore
      split at h
      · cases h
      · cases h
        simp [isWireSafeId, hbefore, hcolon, hfree.1, hfree.2.2]

/-- Pieces that hold no `;` are read into a wire safe bookmark. -/
theorem isWireSafe_of_parsePieces {pieces : List (List Char)}
    (hpieces : ∀ piece ∈ pieces, ';' ∉ piece) {b b' : Bookmark} (hb : b.isWireSafe = true)
    (h : parsePieces b pieces = .ok b') : b'.isWireSafe = true := by
  induction pieces generalizing b with
  | nil =>
      cases h
      exact hb
  | cons piece rest ih =>
      rw [parsePieces] at h
      split at h
      · cases h
      · rename_i id cursor hpiece
        have hread := isWireSafeId_of_parsePiece (hpieces piece List.mem_cons_self) hpiece
        have hset : (b.set id (Progress.ofRequested (some cursor))).isWireSafe = true := by
          apply isWireSafe_set hb hread.1
          intro p hp
          obtain ⟨rfl, hmark, -⟩ := Progress.ofRequested_eq_some hp
          cases p with
          | active text =>
              have hne : text ≠ Progress.completedMark := fun heq => hmark (by rw [heq])
              simpa [Progress.isWireSafe, Progress.toRequested, hne] using hread.2
          | completed => rfl
        exact ih (fun p hp => hpieces p (List.mem_cons_of_mem _ hp)) hset h

/-- What is read from a text is wire safe. -/
theorem isWireSafe_of_parse {text : Option String} {b : Bookmark} (h : parse text = .ok b) :
    b.isWireSafe = true := by
  cases text with
  | none =>
      cases h
      rfl
  | some input =>
      rw [parse] at h
      simp only [Except.mapError] at h
      split at h
      · cases h
      · rename_i hpieces
        cases h
        refine isWireSafe_of_parsePieces ?_ (b := empty) rfl hpieces
        intro piece hpiece
        exact Text.notMem_of_mem_splitOn (List.mem_filter.1 hpiece).1

/-- A bookmark is read back from its text exactly when it is wire safe, in whatever way it
was made.  What is read from any text is wire safe, so writing it and reading it again
changes nothing. -/
theorem parse_toString_exact (b : Bookmark) :
    (b.isWireSafe = true ↔ parse (some (toString b)) = .ok b) ∧
      ∀ text read, parse (some text) = .ok read →
        read.isWireSafe = true ∧ parse (some (toString read)) = .ok read := by
  refine ⟨⟨parse_toString, isWireSafe_of_parse⟩, ?_⟩
  intro text read hread
  have hsafe := isWireSafe_of_parse hread
  exact ⟨hsafe, parse_toString hsafe⟩

end Bookmark

namespace Sample

open Bookmark

/-- A cursor that is spelled like the mark of a finished source. -/
def misspelt : Bookmark :=
  empty.set "east" (some (.active "COMPLETED"))

/-- Two sources, one of them finished. -/
def halfway : Bookmark :=
  ofList [("west", some .completed), ("east", some (.active "1:2"))]

theorem misspelt_not_read_back :
    parse (some (toString misspelt)) ≠ .ok misspelt ∧
      parse (some ";;west:5_x;east:1:2;west:COMPLETED") = .ok halfway ∧
        halfway.isWireSafe = true ∧ parse (some (toString halfway)) = .ok halfway := by
  have hrefused : ¬ misspelt.isWireSafe = true := by decide
  have hread : parse (some ";;west:5_x;east:1:2;west:COMPLETED") = .ok halfway := by rfl
  obtain ⟨hiff, hreread⟩ := parse_toString_exact misspelt
  exact ⟨fun hback => hrefused (hiff.2 hback), hread, hreread _ _ hread⟩

end Sample

end MergedPaging
