/-
Cutting text at a separator.  `splitFirst` cuts at the first separator only, so
that what follows it may hold separators again; `splitOn` cuts at every one.
Both lose nothing but the separators.
-/

namespace MergedPaging.Text

/-- The text before the first separator and the text after it, if there is one. -/
def splitFirst (sep : Char) : List Char → Option (List Char × List Char)
  | [] => none
  | c :: rest =>
    if c = sep then some ([], rest)
    else (splitFirst sep rest).map fun (before, after) => (c :: before, after)

/-- The pieces between separators; there is always at least one piece. -/
def splitOn (sep : Char) : List Char → List (List Char)
  | [] => [[]]
  | c :: rest =>
    if c = sep then [] :: splitOn sep rest
    else (splitOn sep rest).modifyHead (c :: ·)

theorem splitFirst_append {sep : Char} {before : List Char} (after : List Char)
    (hfree : sep ∉ before) :
    splitFirst sep (before ++ sep :: after) = some (before, after) := by
  induction before with
  | nil => simp [splitFirst]
  | cons c before ih =>
      simp only [List.mem_cons, not_or] at hfree
      simp [splitFirst, Ne.symm hfree.1, ih hfree.2]

theorem splitFirst_eq_none_iff {sep : Char} {text : List Char} :
    splitFirst sep text = none ↔ sep ∉ text := by
  induction text with
  | nil => simp [splitFirst]
  | cons c rest ih =>
      by_cases h : c = sep
      · simp [splitFirst, h]
      · simp [splitFirst, h, ih, Ne.symm h]

/-- A cut is undone by putting the separator back, and the first part holds none. -/
theorem eq_append_of_splitFirst {sep : Char} {text before after : List Char}
    (hcut : splitFirst sep text = some (before, after)) :
    text = before ++ sep :: after ∧ sep ∉ before := by
  induction text generalizing before with
  | nil => simp [splitFirst] at hcut
  | cons c rest ih =>
      by_cases h : c = sep
      · simp only [splitFirst, h, ↓reduceIte, Option.some.injEq, Prod.mk.injEq] at hcut
        simp [← hcut.1, ← hcut.2, h]
      · simp only [splitFirst, h, ↓reduceIte, Option.map_eq_some_iff, Prod.mk.injEq,
          Prod.exists] at hcut
        obtain ⟨first, last, hrest, rfl, rfl⟩ := hcut
        have := ih hrest
        simp [← this.1, this.2, Ne.symm h]

theorem splitOn_ne_nil {sep : Char} (text : List Char) : splitOn sep text ≠ [] := by
  induction text with
  | nil => simp [splitOn]
  | cons c rest ih =>
      by_cases h : c = sep
      · simp [splitOn, h]
      · cases hrest : splitOn sep rest with
        | nil => exact absurd hrest ih
        | cons piece pieces => simp [splitOn, h, hrest]

end MergedPaging.Text
