/-
Which texts are bookmarks.  A text is read exactly when each of its pieces is empty or names
a source and a cursor.  A source then stands where the last piece that names it puts it, and
if the text is refused, it is for the first piece that is at fault.
-/
import MergedPaging.Proofs.BookmarkText

namespace MergedPaging

namespace Text

/-- What a text is made of: pieces without the separator, with one separator between each
two of them. -/
structure Cuts (sep : Char) (text : List Char) (pieces : List (List Char)) : Prop where
  ne_nil : pieces ≠ []
  free : ∀ piece ∈ pieces, sep ∉ piece
  joined : [sep].intercalate pieces = text

theorem splitOn_eq_splitOn (sep : Char) (text : List Char) :
    splitOn sep text = text.splitOn sep := by
  induction text with
  | nil => rfl
  | cons c rest ih =>
      simp only [splitOn, ih, List.splitOn, List.splitOnP_cons_eq_if_modifyHead, beq_iff_eq]

/-- A text is made of pieces in one way only. -/
theorem cuts_iff {sep : Char} {text : List Char} {pieces : List (List Char)} :
    Cuts sep text pieces ↔ pieces = splitOn sep text := by
  constructor
  · rintro ⟨hne, hfree, rfl⟩
    rw [splitOn_eq_splitOn, List.splitOn_intercalate sep hfree hne]
  · rintro rfl
    refine ⟨splitOn_ne_nil text, fun piece => notMem_of_mem_splitOn, ?_⟩
    rw [splitOn_eq_splitOn, List.intercalate_splitOn]

end Text

namespace Bookmark

/-- A piece that names a source and gives it a cursor, with the first colon between them. -/
structure Names (piece : List Char) (id cursor : String) : Prop where
  text : piece = id.toList ++ ':' :: cursor.toList
  free : ':' ∉ id.toList
  id_ne : id ≠ ""
  cursor_ne : cursor ≠ ""

/-- What is wrong with a piece.  Without a colon there is no source to look at, and without a
source no cursor. -/
inductive Faulty : List Char → BookmarkFault → Prop
  | missingColon {piece : List Char} (hfree : ':' ∉ piece) :
      Faulty piece (.missingColon (String.ofList piece))
  | emptySource (cursor : List Char) :
      Faulty (':' :: cursor) (.emptySource (String.ofList (':' :: cursor)))
  | emptyCursor {id : String} (hfree : ':' ∉ id.toList) (hne : id ≠ "") :
      Faulty (id.toList ++ [':']) (.emptyCursor id)

/-- A piece that a bookmark may have: an empty one, or one that names a source. -/
def Reads (piece : List Char) : Prop :=
  piece = [] ∨ ∃ id cursor, Names piece id cursor

/-- The last of the pieces that name a source gives it the cursor. -/
def Settles (pieces : List (List Char)) (id cursor : String) : Prop :=
  ∃ before piece after, pieces = before ++ piece :: after ∧ Names piece id cursor ∧
    ∀ later ∈ after, ∀ other, ¬ Names later id other

/-- The first of the pieces that a bookmark may not have, and what is wrong with it. -/
def FirstFault (pieces : List (List Char)) (fault : BookmarkFault) : Prop :=
  ∃ before piece after, pieces = before ++ piece :: after ∧ (∀ earlier ∈ before, Reads earlier) ∧
    piece ≠ [] ∧ Faulty piece fault

section Piece

variable {piece : List Char} {id cursor : String} {fault : BookmarkFault}

theorem parsePiece_of_names (h : Names piece id cursor) :
    parsePiece piece = .ok (id, cursor) := by
  rw [parsePiece, h.text, Text.splitFirst_append _ h.free]
  simp [h.id_ne, h.cursor_ne]

theorem parsePiece_of_faulty (h : Faulty piece fault) : parsePiece piece = .error fault := by
  cases h with
  | missingColon hfree => rw [parsePiece, Text.splitFirst_eq_none_iff.2 hfree]
  | emptySource cursor => simp [parsePiece, Text.splitFirst]
  | emptyCursor hfree hne =>
      rw [parsePiece, Text.splitFirst_append _ hfree]
      simp [hne]

/-- A piece names a source or is at fault. -/
theorem names_or_faulty (piece : List Char) :
    (∃ id cursor, Names piece id cursor) ∨ ∃ fault, Faulty piece fault := by
  cases hsplit : Text.splitFirst ':' piece with
  | none => exact Or.inr ⟨_, .missingColon (Text.splitFirst_eq_none_iff.1 hsplit)⟩
  | some cut =>
      obtain ⟨id, cursor⟩ := cut
      obtain ⟨rfl, hfree⟩ := Text.eq_append_of_splitFirst hsplit
      by_cases hid : id = []
      · rw [hid]
        exact Or.inr ⟨_, .emptySource cursor⟩
      · have hfree' : ':' ∉ (String.ofList id).toList := by simpa using hfree
        have hid' : String.ofList id ≠ "" := by simpa using hid
        by_cases hcursor : cursor = []
        · have hfaulty := Faulty.emptyCursor hfree' hid'
          exact Or.inr ⟨_, by simpa [hcursor] using hfaulty⟩
        · exact Or.inl ⟨.ofList id, .ofList cursor, by simp, hfree', hid', by simpa using hcursor⟩

/-- A piece names one source at most, and one cursor for it. -/
theorem Names.unique (h : Names piece id cursor) {id' cursor' : String}
    (h' : Names piece id' cursor') : id = id' ∧ cursor = cursor' := by
  simpa [parsePiece_of_names h] using parsePiece_of_names h'

/-- Of any other source it says nothing. -/
theorem Names.not_names (h : Names piece id cursor) {id' : String} (hne : id ≠ id')
    (cursor' : String) : ¬ Names piece id' cursor' :=
  fun h' => hne (h.unique h').1

theorem not_names_nil : ¬ Names [] id cursor := by
  intro h
  simpa using h.text

theorem not_reads_of_faulty (hne : piece ≠ []) (h : Faulty piece fault) : ¬ Reads piece := by
  rintro (hempty | ⟨id, cursor, hnames⟩)
  · exact hne hempty
  · cases (parsePiece_of_names hnames).symm.trans (parsePiece_of_faulty h)

/-- A cursor that is named is what it says, unless it says that the source is finished. -/
theorem Names.ofRequested (h : Names piece id cursor) :
    Progress.ofRequested (some cursor) =
      some (if cursor = Progress.completedMark then .completed else .active cursor) := by
  rw [Progress.ofRequested]
  simp only [if_neg h.cursor_ne]
  split <;> rfl

end Piece

section Pieces

variable {piece : List Char} {pieces : List (List Char)}

/-- All pieces can be read, or one of them is the first that cannot. -/
theorem reads_or_firstFault (pieces : List (List Char)) :
    (∀ piece ∈ pieces, Reads piece) ∨ ∃ fault, FirstFault pieces fault := by
  induction pieces with
  | nil => exact Or.inl (by simp)
  | cons piece rest ih =>
      by_cases hpiece : Reads piece
      · rcases ih with hrest | ⟨fault, before, bad, after, rfl, hbefore, hbad⟩
        · exact Or.inl (List.forall_mem_cons.2 ⟨hpiece, hrest⟩)
        · exact Or.inr ⟨fault, piece :: before, bad, after, rfl,
            List.forall_mem_cons.2 ⟨hpiece, hbefore⟩, hbad⟩
      · rcases names_or_faulty piece with hnames | ⟨fault, hfaulty⟩
        · exact absurd (Or.inr hnames) hpiece
        · have hne : piece ≠ [] := fun hempty => hpiece (Or.inl hempty)
          exact Or.inr ⟨fault, [], piece, rest, rfl, by simp, hne, hfaulty⟩

theorem not_forall_reads_of_firstFault {fault : BookmarkFault} (h : FirstFault pieces fault) :
    ¬ ∀ piece ∈ pieces, Reads piece := by
  obtain ⟨before, piece, after, rfl, -, hne, hfaulty⟩ := h
  intro hreads
  exact not_reads_of_faulty hne hfaulty (hreads piece (by simp))

/-- Of the first piece and the rest, the rest has the last word. -/
theorem settles_cons {id cursor : String} (h : Settles (piece :: pieces) id cursor) :
    Settles pieces id cursor ∨
      (Names piece id cursor ∧ ∀ later ∈ pieces, ∀ other, ¬ Names later id other) := by
  obtain ⟨before, last, after, heq, hnames, hlast⟩ := h
  cases before with
  | nil =>
      obtain ⟨rfl, rfl⟩ := List.cons.inj heq
      exact Or.inr ⟨hnames, hlast⟩
  | cons first before =>
      obtain ⟨rfl, rfl⟩ := List.cons.inj heq
      exact Or.inl ⟨before, last, after, rfl, hnames, hlast⟩

/-- What pieces make of a bookmark: the sources that they name stand where the last word puts
them, and all others where they stood before. -/
structure Updates (pieces : List (List Char)) (b b' : Bookmark) : Prop where
  settled : ∀ id cursor, Settles pieces id cursor →
    b'.state id = Progress.ofRequested (some cursor)
  kept : ∀ id, (∀ piece ∈ pieces, ∀ cursor, ¬ Names piece id cursor) →
    b'.state id = b.state id

/-- An empty piece says nothing. -/
theorem Updates.skip {b b' : Bookmark} (h : Updates pieces b b') :
    Updates ([] :: pieces) b b' where
  settled id cursor hsettles := by
    rcases settles_cons hsettles with hrest | ⟨hnames, -⟩
    · exact h.settled id cursor hrest
    · exact absurd hnames not_names_nil
  kept id hnone := h.kept id (List.forall_mem_cons.1 hnone).2

/-- A piece that names a source is overruled by the pieces behind it, and by no other. -/
theorem Updates.set {b b' : Bookmark} {id cursor : String} (hnames : Names piece id cursor)
    (h : Updates pieces (b.set id (Progress.ofRequested (some cursor))) b') :
    Updates (piece :: pieces) b b' where
  settled id' cursor' hsettles := by
    rcases settles_cons hsettles with hrest | ⟨hnames', hlast⟩
    · exact h.settled id' cursor' hrest
    · obtain ⟨rfl, rfl⟩ := hnames.unique hnames'
      rw [h.kept id hlast, state_set, if_pos rfl, hnames.ofRequested]
      split <;> simp [hnames.cursor_ne]
  kept id' hnone := by
    obtain ⟨hfirst, hrest⟩ := List.forall_mem_cons.1 hnone
    have hne : id' ≠ id := by
      rintro rfl
      exact hfirst cursor hnames
    rw [h.kept id' hrest, state_set, if_neg hne]

theorem parsePieces_cons_of_names {id cursor : String} (h : Names piece id cursor) (b : Bookmark) :
    parsePieces b (piece :: pieces) =
      parsePieces (b.set id (Progress.ofRequested (some cursor))) pieces := by
  rw [parsePieces, parsePiece_of_names h]

/-- Pieces that can all be read are read to their end. -/
theorem exists_parsePieces_eq_ok (hreads : ∀ piece ∈ pieces, Reads piece) (b : Bookmark) :
    ∃ b', parsePieces b (pieces.filter fun piece => !piece.isEmpty) = .ok b' ∧
      Updates pieces b b' := by
  induction pieces generalizing b with
  | nil =>
      refine ⟨b, rfl, ?_, fun _ _ => rfl⟩
      rintro id cursor ⟨before, piece, after, heq, -⟩
      simp at heq
  | cons piece rest ih =>
      obtain ⟨hpiece, hrest⟩ := List.forall_mem_cons.1 hreads
      rcases hpiece with rfl | ⟨id, cursor, hnames⟩
      · obtain ⟨b', hread, hupdates⟩ := ih hrest b
        exact ⟨b', hread, hupdates.skip⟩
      · obtain ⟨b', hread, hupdates⟩ := ih hrest (b.set id (Progress.ofRequested (some cursor)))
        refine ⟨b', ?_, hupdates.set hnames⟩
        rw [List.filter_cons_of_pos (by simp [hnames.text]), parsePieces_cons_of_names hnames]
        exact hread

/-- The first fault ends the reading, whatever stands behind it. -/
theorem parsePieces_of_firstFault {fault : BookmarkFault} (h : FirstFault pieces fault)
    (b : Bookmark) :
    parsePieces b (pieces.filter fun piece => !piece.isEmpty) = .error fault := by
  obtain ⟨before, piece, after, rfl, hbefore, hne, hfaulty⟩ := h
  induction before generalizing b with
  | nil =>
      rw [List.nil_append, List.filter_cons_of_pos (by simpa using hne), parsePieces,
        parsePiece_of_faulty hfaulty]
  | cons first before ih =>
      obtain ⟨hfirst, hrest⟩ := List.forall_mem_cons.1 hbefore
      rcases hfirst with rfl | ⟨id, cursor, hnames⟩
      · exact ih b hrest
      · rw [List.cons_append, List.filter_cons_of_pos (by simp [hnames.text]),
          parsePieces_cons_of_names hnames]
        exact ih _ hrest

end Pieces

section Text

variable {text : String} {pieces : List (List Char)}

theorem parse_of_cuts (hcuts : Text.Cuts ';' text.toList pieces) :
    parse (some text) = (parsePieces empty (pieces.filter fun piece => !piece.isEmpty)).mapError
      (.malformedCombined text) := by
  rw [Text.cuts_iff.1 hcuts]
  rfl

theorem exists_parse_eq_ok (hcuts : Text.Cuts ';' text.toList pieces)
    (hreads : ∀ piece ∈ pieces, Reads piece) :
    ∃ b, parse (some text) = .ok b ∧ Updates pieces empty b := by
  obtain ⟨b, hread, hupdates⟩ := exists_parsePieces_eq_ok hreads empty
  refine ⟨b, ?_, hupdates⟩
  rw [parse_of_cuts hcuts, hread]
  rfl

theorem parse_of_firstFault (hcuts : Text.Cuts ';' text.toList pieces) {fault : BookmarkFault}
    (h : FirstFault pieces fault) :
    parse (some text) = .error (.malformedCombined text fault) := by
  rw [parse_of_cuts hcuts, parsePieces_of_firstFault h empty]
  rfl

/-- A text is made of pieces in exactly one way.  It is read as a bookmark exactly when each of
its pieces that is not empty names a source and a cursor.  Then a source stands where the last
piece that names it puts it, finished if the cursor is the mark for that, and a source that no
piece names has not been touched.  Otherwise the error carries the text, and what is wrong with
the first piece at fault. -/
theorem parse_exact_grammar (text : String) :
    (∃! pieces, Text.Cuts ';' text.toList pieces) ∧
    ∀ pieces, Text.Cuts ';' text.toList pieces →
      ((∃ b, parse (some text) = .ok b) ↔
        ∀ piece ∈ pieces, piece ≠ [] → ∃ id cursor, Names piece id cursor) ∧
      (∀ b, parse (some text) = .ok b → ∀ id,
        (∀ cursor, Settles pieces id cursor →
          b.state id = some (if cursor = "COMPLETED" then .completed else .active cursor)) ∧
        ((∀ piece ∈ pieces, ∀ cursor, ¬ Names piece id cursor) → b.state id = none)) ∧
      ∀ error, parse (some text) = .error error ↔
        ∃ fault, FirstFault pieces fault ∧ error = .malformedCombined text fault := by
  refine ⟨⟨_, Text.cuts_iff.2 rfl, fun pieces => Text.cuts_iff.1⟩, ?_⟩
  intro pieces hcuts
  have hreads_iff : (∀ piece ∈ pieces, Reads piece) ↔
      ∀ piece ∈ pieces, piece ≠ [] → ∃ id cursor, Names piece id cursor :=
    forall₂_congr fun _ _ => or_iff_not_imp_left
  rw [← hreads_iff]
  rcases reads_or_firstFault pieces with hreads | ⟨fault, hfault⟩
  · obtain ⟨b, hread, hupdates⟩ := exists_parse_eq_ok hcuts hreads
    refine ⟨iff_of_true ⟨b, hread⟩ hreads, ?_, ?_⟩
    · intro b' hread' id
      obtain rfl : b = b' := Except.ok.inj (hread.symm.trans hread')
      refine ⟨?_, hupdates.kept id⟩
      intro cursor hsettles
      have hstate := hupdates.settled id cursor hsettles
      obtain ⟨_, _, _, -, hnames, -⟩ := hsettles
      exact hstate.trans hnames.ofRequested
    · intro error
      refine iff_of_false (fun herror => ?_) ?_
      · cases hread.symm.trans herror
      · rintro ⟨fault, hfault, -⟩
        exact not_forall_reads_of_firstFault hfault hreads
  · have herror := parse_of_firstFault hcuts hfault
    refine ⟨iff_of_false ?_ (not_forall_reads_of_firstFault hfault), ?_, ?_⟩
    · rintro ⟨b, hread⟩
      cases hread.symm.trans herror
    · intro b hread
      cases hread.symm.trans herror
    · intro error
      constructor
      · intro h
        cases herror.symm.trans h
        exact ⟨fault, hfault, rfl⟩
      · rintro ⟨other, hother, rfl⟩
        exact parse_of_firstFault hcuts hother

end Text

end Bookmark

namespace Sample

open Bookmark

/-- A source named twice, an empty piece, and a cursor with a colon in it. -/
def overruled : List (List Char) :=
  ["east:1:2".toList, [], "west:5:x".toList, "east:COMPLETED".toList]

theorem overruled_cuts :
    Text.Cuts ';' "east:1:2;;west:5:x;east:COMPLETED".toList overruled :=
  ⟨by decide, by decide, by rfl⟩

/-- The last word on a source is taken.  A piece that is no more than a colon lacks its source,
and hides that the next piece lacks its colon. -/
theorem overruled_and_refused :
    (∃ b, parse (some "east:1:2;;west:5:x;east:COMPLETED") = .ok b ∧
      b.state "east" = some .completed ∧ b.state "west" = some (.active "5:x") ∧
        b.state "north" = none) ∧
    parse (some "east:1;:;north") =
      .error (.malformedCombined "east:1;:;north" (.emptySource ":")) := by
  obtain ⟨-, hread⟩ := parse_exact_grammar "east:1:2;;west:5:x;east:COMPLETED"
  obtain ⟨-, hrefused⟩ := parse_exact_grammar "east:1;:;north"
  obtain ⟨hiff, hstates, -⟩ := hread overruled overruled_cuts
  have hearly : Names "east:1:2".toList "east" "1:2" :=
    ⟨by rfl, by decide, by decide, by decide⟩
  have hwest : Names "west:5:x".toList "west" "5:x" := ⟨by rfl, by decide, by decide, by decide⟩
  have hlate : Names "east:COMPLETED".toList "east" "COMPLETED" :=
    ⟨by rfl, by decide, by decide, by decide⟩
  have hall : ∀ piece ∈ overruled, piece ≠ [] → ∃ id cursor, Names piece id cursor := by
    simp only [overruled, List.forall_mem_cons]
    exact ⟨fun _ => ⟨_, _, hearly⟩, fun hne => absurd rfl hne, fun _ => ⟨_, _, hwest⟩,
      fun _ => ⟨_, _, hlate⟩, by simp⟩
  constructor
  · obtain ⟨b, hb⟩ := hiff.2 hall
    refine ⟨b, hb, ?_, ?_, ?_⟩
    · exact (hstates b hb "east").1 "COMPLETED" ⟨overruled.take 3, _, [], by rfl, hlate, by simp⟩
    · have hsettles : Settles overruled "west" "5:x" :=
        ⟨overruled.take 2, _, ["east:COMPLETED".toList], by rfl, hwest,
          List.forall_mem_singleton.2 (hlate.not_names (by decide))⟩
      exact (hstates b hb "west").1 "5:x" hsettles
    · apply (hstates b hb "north").2
      simp only [overruled, List.forall_mem_cons]
      exact ⟨hearly.not_names (by decide), fun _ => not_names_nil, hwest.not_names (by decide),
        hlate.not_names (by decide), by simp⟩
  · have hcuts : Text.Cuts ';' "east:1;:;north".toList
        ["east:1".toList, ":".toList, "north".toList] := ⟨by decide, by decide, by rfl⟩
    have hfirst : Names "east:1".toList "east" "1" := ⟨by rfl, by decide, by decide, by decide⟩
    refine ((hrefused _ hcuts).2.2 _).2 ⟨.emptySource ":", ?_, rfl⟩
    exact ⟨["east:1".toList], ":".toList, ["north".toList], rfl,
      List.forall_mem_singleton.2 (Or.inr ⟨_, _, hfirst⟩), by decide, .emptySource []⟩

end Sample

end MergedPaging
