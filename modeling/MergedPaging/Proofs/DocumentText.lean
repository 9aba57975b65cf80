/-
Documents are read line by line.  A value is read from its text wherever it stands before a
comma, a closing bracket or a line end; that holds of strings, whole numbers, truth values and
lists of strings.  A document that is put together from such values, keys without quotes and
headers is read as the lines that it was put together from.
-/
import MergedPaging.Config.Toml
import MergedPaging.Proofs.NumberText
import MergedPaging.Proofs.QuotedText

namespace MergedPaging

namespace Toml

open Text

variable {rest : List Char}

theorem Delimited.unquoted (h : Delimited rest) : Unquoted rest := by
  cases h <;> exact ⟨by simp, by simp⟩

section Value

/-- A text starts with a character that is no blank, line end or comment. -/
structure Visible (text : List Char) : Prop where
  ne_nil : text ≠ []
  visible : ∀ c ∈ text.head?, isBlank c = false ∧ c ≠ '\n' ∧ c ≠ '#'

theorem skipSpace_of_visible {text : List Char} (h : Visible text) (rest : List Char) :
    skipSpace false (text ++ rest) = text ++ rest := by
  cases text with
  | nil => exact absurd rfl h.ne_nil
  | cons c text =>
      obtain ⟨hblank, hline, hcomment⟩ := h.visible c rfl
      simp [skipSpace, hblank, hline, hcomment]

theorem skipBlanks_of_visible {text : List Char} (h : Visible text) (rest : List Char) :
    skipBlanks (text ++ rest) = text ++ rest := by
  cases text with
  | nil => exact absurd rfl h.ne_nil
  | cons c text =>
      obtain ⟨hblank, -, -⟩ := h.visible c rfl
      simp [skipBlanks, hblank]

/-- A text is read as a value wherever it stands. -/
structure Spells (text : List Char) (value : Toml) : Prop where
  visible : Visible text
  return_notMem : '\r' ∉ text
  read : ∀ {fuel room : Nat} {rest : List Char}, text.length ≤ fuel → Delimited rest →
    readValue fuel (room + 1) (text ++ rest) = some (value, rest)

theorem exists_writeQuoted_eq_cons (text : List Char) :
    ∃ quote more, writeQuoted text = quote :: more ∧ (quote = '"' ∨ quote = '\x27') := by
  have hbasic (long lines : Bool) :
      ∃ quote more, writeBasic long lines text = quote :: more ∧
        (quote = '"' ∨ quote = '\x27') := by
    cases long <;> exact ⟨_, _, rfl, Or.inl rfl⟩
  have hliteral (long lines : Bool) :
      ∃ quote more, writeLiteral long lines text = quote :: more ∧
        (quote = '"' ∨ quote = '\x27') := by
    cases long <;> exact ⟨_, _, rfl, Or.inr rfl⟩
  unfold writeQuoted
  simp only []
  repeat' split
  all_goals first
    | exact hbasic _ _
    | exact hliteral _ _

theorem readValue_writeQuoted (h : Delimited rest) (fuel room : Nat) (text : List Char) :
    readValue (fuel + 1) room (writeQuoted text ++ rest) =
      some (.string (String.ofList text), rest) := by
  have hread := readQuoted_writeQuoted h.unquoted text
  obtain ⟨quote, more, hform, hquote⟩ := exists_writeQuoted_eq_cons text
  rw [hform] at hread ⊢
  rcases hquote with rfl | rfl
  · rw [List.cons_append] at hread ⊢
    simp only [readValue, hread]
    rfl
  · rw [List.cons_append] at hread ⊢
    simp only [readValue, hread]
    rfl

theorem toList_ofString (s : String) : (ofString s).toList = writeQuoted s.toList :=
  String.toList_ofList

theorem visible_writeQuoted (text : List Char) : Visible (writeQuoted text) := by
  obtain ⟨quote, more, hform, hquote⟩ := exists_writeQuoted_eq_cons text
  rw [hform]
  refine ⟨List.cons_ne_nil _ _, ?_⟩
  rintro c ⟨⟩
  rcases hquote with rfl | rfl
  · decide
  · decide

theorem return_notMem_writeQuoted (text : List Char) : '\r' ∉ writeQuoted text := by
  intro hmem
  have hcontrol := isControl_of_mem_writeQuoted text '\r' hmem
  exact absurd hcontrol (by decide)

theorem spells_string (s : String) : Spells (ofString s).toList (.string s) := by
  rw [toList_ofString]
  refine ⟨visible_writeQuoted _, return_notMem_writeQuoted _, ?_⟩
  intro fuel room rest hfuel hrest
  obtain ⟨quote, more, hform, -⟩ := exists_writeQuoted_eq_cons s.toList
  rw [hform, List.length_cons] at hfuel
  obtain ⟨fuel, rfl⟩ := Nat.exists_eq_add_of_le' hfuel
  rw [← Nat.add_assoc, readValue_writeQuoted hrest, String.ofList_toList]

theorem readValue_scalar {c : Char} (hquote : c ≠ '"' ∧ c ≠ '\x27') (hopen : c ≠ '[' ∧ c ≠ '\x7b')
    (fuel room : Nat) (text : List Char) :
    readValue (fuel + 1) room (c :: text) = readScalar (c :: text) := by
  rw [readValue]
  all_goals
    intro more heq
    simp_all

/-- A text without quotes, brackets and braces at its start is read as a value if it is read as
a number or truth value. -/
theorem spells_scalar {c : Char} {text : List Char} {value : Toml}
    (hvisible : isBlank c = false ∧ c ≠ '\n' ∧ c ≠ '#') (hreturn : '\r' ∉ c :: text)
    (hquote : c ≠ '"' ∧ c ≠ '\x27') (hopen : c ≠ '[' ∧ c ≠ '\x7b')
    (hread : ∀ {rest}, Delimited rest → readScalar (c :: text ++ rest) = some (value, rest)) :
    Spells (c :: text) value := by
  refine ⟨⟨List.cons_ne_nil _ _, ?_⟩, hreturn, ?_⟩
  · rintro c ⟨⟩
    exact hvisible
  · intro fuel room rest hfuel hrest
    rw [List.length_cons] at hfuel
    obtain ⟨fuel, rfl⟩ := Nat.exists_eq_add_of_le' hfuel
    rw [← Nat.add_assoc, List.cons_append, readValue_scalar hquote hopen]
    exact hread hrest

theorem spells_nat {n : Nat} (hn : n < int64Limit) :
    Spells (toString n).toList (.integer n) := by
  have hdigits : ∀ c ∈ Nat.toDigits 10 n, c.isDigit = true := fun c => isDigit_of_mem_toDigits
  have hread {rest : List Char} (hrest : Delimited rest) := readScalar_toDigits hrest hn
  rw [Nat.toString_eq_repr, Nat.toList_repr]
  cases hform : Nat.toDigits 10 n with
  | nil => exact absurd hform Nat.toDigits_ne_nil
  | cons c digits =>
      rw [hform] at hdigits hread
      have hne {d : Char} (hd : d.isDigit = false) : d ∉ c :: digits := by
        intro hmem
        simp [hdigits d hmem] at hd
      have hhead {d : Char} (hd : d.isDigit = false) : c ≠ d := by
        rintro rfl
        exact hne hd List.mem_cons_self
      have hspace : c ≠ ' ' := hhead (by decide)
      have htab : c ≠ '\t' := hhead (by decide)
      exact spells_scalar
        ⟨by simp [isBlank, hspace, htab], hhead (by decide), hhead (by decide)⟩ (hne (by decide))
        ⟨hhead (by decide), hhead (by decide)⟩ ⟨hhead (by decide), hhead (by decide)⟩ hread

theorem spells_bool (b : Bool) : Spells (toString b).toList (.boolean b) := by
  cases b with
  | false =>
      have hform : (toString false).toList = ['f', 'a', 'l', 's', 'e'] := rfl
      rw [hform]
      exact spells_scalar (by decide) (by decide) (by decide) (by decide) fun _ => by
        simp [readScalar, readWord]
  | true =>
      have hform : (toString true).toList = ['t', 'r', 'u', 'e'] := rfl
      rw [hform]
      exact spells_scalar (by decide) (by decide) (by decide) (by decide) fun _ => by
        simp [readScalar, readWord]

/-- Strings as the items of a list, each on a line of its own. -/
def writeItems (strings : List String) : List Char :=
  strings.flatMap fun s => [' ', ' ', ' ', ' '] ++ (writeQuoted s.toList ++ [',', '\n'])

/-- One item of a list is read, with what there is to skip before it. -/
theorem readItems_string {text : List Char} {s : String} (hrest : Delimited rest)
    (hskip : skipSpace false text = writeQuoted s.toList ++ rest) (fuel room : Nat) :
    readItems (fuel + 2) room text =
      match skipSpace false rest with
      | ',' :: rest => do
        let (items, rest) ← readItems (fuel + 1) room rest
        return (.string s :: items, rest)
      | ']' :: rest => return ([.string s], rest)
      | _ => none := by
  have hread := readValue_writeQuoted hrest fuel room s.toList
  rw [String.ofList_toList] at hread
  obtain ⟨quote, more, hform, hquote⟩ := exists_writeQuoted_eq_cons s.toList
  rw [readItems, hskip]
  split
  · rename_i heq
    rw [hform, List.cons_append, List.cons.injEq] at heq
    rcases hquote with rfl | rfl
    · exact absurd heq.1 (by decide)
    · exact absurd heq.1 (by decide)
  · rw [hread]
    rfl

theorem readItems_writeItems (strings : List String) {fuel : Nat} (hfuel : strings.length ≤ fuel)
    (room : Nat) (rest : List Char) :
    readItems (fuel + 1) room ('\n' :: (writeItems strings ++ ']' :: rest)) =
      some (strings.map .string, rest) := by
  induction strings generalizing fuel with
  | nil => rfl
  | cons s strings ih =>
      obtain ⟨fuel, rfl⟩ := Nat.exists_eq_add_of_le' hfuel
      have hskip : skipSpace false ('\n' :: (writeItems (s :: strings) ++ ']' :: rest)) =
          writeQuoted s.toList ++ ',' :: '\n' :: (writeItems strings ++ ']' :: rest) := by
        have hitem := skipSpace_of_visible (visible_writeQuoted s.toList)
          (',' :: '\n' :: (writeItems strings ++ ']' :: rest))
        rw [← hitem]
        simp [writeItems, skipSpace, isBlank]
      have hitems := ih (Nat.le_add_left strings.length fuel)
      have hitem := readItems_string (.comma _) hskip (fuel + strings.length) room
      rw [List.length_cons, ← Nat.add_assoc, hitem]
      simp [skipSpace, isBlank, hitems]

theorem length_le_length_writeItems (strings : List String) :
    strings.length ≤ (writeItems strings).length := by
  induction strings with
  | nil => exact Nat.zero_le _
  | cons s strings ih =>
      simp only [writeItems, List.flatMap_cons, List.length_append, List.length_cons] at ih ⊢
      omega

theorem return_notMem_writeItems (strings : List String) : '\r' ∉ writeItems strings := by
  intro hmem
  obtain ⟨s, -, hs⟩ := List.mem_flatMap.1 hmem
  simp [return_notMem_writeQuoted] at hs

/-- What a list of strings holds between its brackets. -/
def listText : List String → List Char
  | [] => []
  | [s] => writeQuoted s.toList
  | strings => '\n' :: writeItems strings

theorem toList_ofStrings (strings : List String) :
    (ofStrings strings).toList = '[' :: (listText strings ++ [']']) := by
  have hitem (s : String) : ("    " ++ ofString s ++ ",\n").toList =
      [' ', ' ', ' ', ' '] ++ (writeQuoted s.toList ++ [',', '\n']) := by
    simp [toList_ofString]
  match strings with
  | [] => rfl
  | [s] => simp [ofStrings, listText, toList_ofString]
  | s :: t :: strings =>
      simp only [ofStrings, listText, String.toList_append, String.toList_join, List.flatMap_map,
        hitem]
      rfl

theorem length_le_length_listText (strings : List String) :
    strings.length ≤ (listText strings).length := by
  match strings with
  | [] => exact Nat.le_refl 0
  | [s] =>
      obtain ⟨quote, more, hform, -⟩ := exists_writeQuoted_eq_cons s.toList
      simp [listText, hform]
  | s :: t :: strings =>
      exact Nat.le_succ_of_le (length_le_length_writeItems (s :: t :: strings))

theorem return_notMem_listText (strings : List String) : '\r' ∉ listText strings := by
  match strings with
  | [] => exact List.not_mem_nil
  | [s] => exact return_notMem_writeQuoted s.toList
  | s :: t :: strings => simp [listText, return_notMem_writeItems]

theorem readItems_listText (strings : List String) {fuel : Nat} (hfuel : strings.length ≤ fuel)
    (room : Nat) (rest : List Char) :
    readItems (fuel + 1) room (listText strings ++ ']' :: rest) =
      some (strings.map .string, rest) := by
  match strings with
  | [] => rfl
  | [s] =>
      obtain ⟨fuel, rfl⟩ := Nat.exists_eq_add_of_le' hfuel
      exact readItems_string (.bracket rest) (skipSpace_of_visible (visible_writeQuoted _) _) _ _
  | s :: t :: strings => exact readItems_writeItems (s :: t :: strings) hfuel room rest

theorem spells_strings (strings : List String) :
    Spells (ofStrings strings).toList (.array (strings.map .string)) := by
  rw [toList_ofStrings]
  refine ⟨⟨List.cons_ne_nil _ _, ?_⟩, ?_, ?_⟩
  · rintro c ⟨⟩
    decide
  · simp [return_notMem_listText]
  · intro fuel room rest hfuel hrest
    have hlength := length_le_length_listText strings
    simp only [List.length_cons, List.length_append, List.length_nil] at hfuel
    obtain ⟨fuel, rfl⟩ := Nat.exists_eq_add_of_le' hfuel
    have hsteps : strings.length ≤ fuel + (listText strings).length := by omega
    have hitems := readItems_listText strings hsteps room rest
    rw [← Nat.add_assoc, List.cons_append, List.append_assoc, List.singleton_append, readValue]
    simp only []
    rw [← Nat.add_assoc, hitems]
    rfl

end Value

section Line

/-- A name that needs no quotes as a key. -/
structure BareName (name : String) : Prop where
  ne_nil : name.toList ≠ []
  bare : ∀ c ∈ name.toList, isBare c = true

instance (name : String) : Decidable (BareName name) :=
  decidable_of_iff (name.toList ≠ [] ∧ name.toList.all isBare = true)
    ⟨fun h => ⟨h.1, List.all_eq_true.1 h.2⟩, fun h => ⟨h.ne_nil, List.all_eq_true.2 h.bare⟩⟩

variable {name : String} {text : List Char} {lines : List Line}

theorem ne_of_isBare {c d : Char} (hc : isBare c = true) (hd : isBare d = false) : c ≠ d := by
  rintro rfl
  cases hc.symm.trans hd

theorem BareName.exists_eq_cons (h : BareName name) :
    ∃ c more, name.toList = c :: more ∧ ∀ d, isBare d = false → c ≠ d := by
  obtain ⟨c, more, hform⟩ := List.exists_cons_of_ne_nil h.ne_nil
  have hc := h.bare c (by simp [hform])
  exact ⟨c, more, hform, fun d => ne_of_isBare hc⟩

theorem BareName.visible (h : BareName name) : Visible name.toList := by
  refine ⟨h.ne_nil, ?_⟩
  obtain ⟨c, more, hform, hne⟩ := h.exists_eq_cons
  rw [hform]
  rintro c ⟨⟩
  refine ⟨?_, hne _ (by decide), hne _ (by decide)⟩
  simp [isBlank, hne ' ' (by decide), hne '\t' (by decide)]

theorem BareName.return_notMem (h : BareName name) : '\r' ∉ name.toList := by
  intro hmem
  exact ne_of_isBare (h.bare _ hmem) (by decide : isBare '\r' = false) rfl

theorem readPart_name (h : BareName name) (hrest : ∀ c ∈ rest.head?, isBare c = false) :
    readPart (name.toList ++ rest) = some (name, rest) := by
  have htake : (name.toList ++ rest).takeWhile isBare = name.toList := by
    rw [List.takeWhile_append_of_pos h.bare]
    cases rest with
    | nil => simp
    | cons c rest => simp [hrest c rfl]
  have hdrop : (name.toList ++ rest).dropWhile isBare = rest := by
    rw [List.dropWhile_append_of_pos h.bare]
    cases rest with
    | nil => rfl
    | cons c rest => simp [hrest c rfl]
  obtain ⟨c, more, hform, hne⟩ := h.exists_eq_cons
  unfold readPart
  split
  · rename_i heq
    rw [hform] at heq
    exact absurd (List.cons.inj heq).1 (hne _ (by decide))
  · rename_i heq
    rw [hform] at heq
    exact absurd (List.cons.inj heq).1 (hne _ (by decide))
  · rw [htake, hdrop]
    simp [h.ne_nil]

/-- A key of one part is read up to the sign behind it. -/
theorem readKey_name (h : BareName name) (hrest : ∀ c ∈ rest.head?, isBare c = false)
    (hdot : (skipBlanks rest).head? ≠ some '.') (room : Nat) :
    readKey (room + 1) (name.toList ++ rest) = some (⟨name, []⟩, skipBlanks rest) := by
  rw [readKey, skipBlanks_of_visible h.visible, readPart_name h hrest]
  simp only [Option.bind_eq_bind, Option.bind_some]
  split
  · rename_i heq
    rw [heq] at hdot
    exact absurd rfl hdot
  · rfl

/-- A header before the lines behind it. -/
def writeHeader (name : String) (rest : List Char) : List Char :=
  '[' :: (name.toList ++ ']' :: '\n' :: rest)

/-- An entry before the lines behind it. -/
def writeEntry (name value : String) (rest : List Char) : List Char :=
  name.toList ++ ' ' :: '=' :: ' ' :: (value.toList ++ '\n' :: rest)

theorem readLine_writeHeader (h : BareName name) (rest : List Char) :
    readLine (writeHeader name rest) = some (.table ⟨name, []⟩, rest) := by
  have hkey : readKey depthLimit (name.toList ++ ']' :: '\n' :: rest) =
      some (⟨name, []⟩, ']' :: '\n' :: rest) := by
    apply readKey_name h
    · rintro c ⟨⟩
      decide
    · simp [skipBlanks, isBlank]
  obtain ⟨c, more, hform, hne⟩ := h.exists_eq_cons
  unfold readLine writeHeader
  split
  · rename_i heq
    rw [hform] at heq
    obtain ⟨hopen, -⟩ := List.cons.inj (List.cons.inj heq).2
    exact absurd hopen (hne _ (by decide))
  · rename_i heq
    obtain rfl := (List.cons.inj heq).2
    rw [hkey]
    rfl
  · rename_i hopen
    exact absurd rfl (hopen _)

theorem readLine_writeEntry (h : BareName name) {value : String} {v : Toml}
    (hvalue : Spells value.toList v) (rest : List Char) :
    readLine (writeEntry name value rest) = some (.entry ⟨name, []⟩ v, rest) := by
  have hkey : readEntryKey (writeEntry name value rest) =
      some (⟨name, []⟩, value.toList ++ '\n' :: rest) := by
    have hsign : skipBlanks (' ' :: '=' :: ' ' :: (value.toList ++ '\n' :: rest)) =
        '=' :: ' ' :: (value.toList ++ '\n' :: rest) := by
      simp [skipBlanks, isBlank]
    have hspace : skipBlanks (' ' :: (value.toList ++ '\n' :: rest)) =
        value.toList ++ '\n' :: rest :=
      skipBlanks_of_visible hvalue.visible ('\n' :: rest)
    unfold readEntryKey depthLimit writeEntry
    rw [readKey_name h (by rintro c ⟨⟩; decide) (by simp [hsign]), hsign]
    simp [hspace]
  have hread : readValue (2 * (value.toList ++ '\n' :: rest).length + 2) depthLimit
      (value.toList ++ '\n' :: rest) = some (v, '\n' :: rest) := by
    apply hvalue.read _ (.lineEnd rest)
    simp only [List.length_append]
    omega
  obtain ⟨c, more, hform, hne⟩ := h.exists_eq_cons
  have hopen := hne '[' (by decide)
  have hhead : writeEntry name value rest =
      c :: (more ++ ' ' :: '=' :: ' ' :: (value.toList ++ '\n' :: rest)) := by
    rw [writeEntry, hform, List.cons_append]
  unfold readLine
  split
  · rename_i heq
    exact absurd (List.cons.inj (hhead.symm.trans heq)).1 hopen
  · rename_i heq
    exact absurd (List.cons.inj (hhead.symm.trans heq)).1 hopen
  · rw [hkey]
    simp only [Option.bind_eq_bind, Option.bind_some]
    rw [hread]
    rfl

/-- A document that is put together from lines. -/
inductive Document : List Char → List Line → Prop
  | nil : Document [] []
  | blank {text : List Char} {lines : List Line} (more : Document text lines) :
      Document ('\n' :: text) lines
  | table {name : String} {text : List Char} {lines : List Line} (bare : BareName name)
      (more : Document text lines) :
      Document (writeHeader name text) (.table ⟨name, []⟩ :: lines)
  | entry {name value : String} {v : Toml} {text : List Char} {lines : List Line}
      (bare : BareName name) (spells : Spells value.toList v) (more : Document text lines) :
      Document (writeEntry name value text) (.entry ⟨name, []⟩ v :: lines)

/-- A line that says something is read before the lines behind it. -/
theorem readLines_cons {line : Line} (hskip : skipSpace false text = text)
    (hread : readLine text = some (line, rest)) {fuel : Nat}
    (hlines : readLines fuel rest = some lines) :
    readLines (fuel + 1) text = some (line :: lines) := by
  rw [readLines, hskip]
  cases text with
  | nil => cases hread
  | cons c text => simp [hread, hlines]

theorem Document.readLines_eq (h : Document text lines) {fuel : Nat} (hfuel : text.length < fuel) :
    readLines fuel text = some lines := by
  induction h generalizing fuel with
  | nil =>
      obtain ⟨fuel, rfl⟩ := Nat.exists_eq_add_one_of_ne_zero (Nat.ne_zero_of_lt hfuel)
      rfl
  | blank more ih =>
      -- A line end is skipped without a step.
      rw [← ih (Nat.lt_of_succ_lt hfuel)]
      obtain ⟨fuel, rfl⟩ := Nat.exists_eq_add_one_of_ne_zero (Nat.ne_zero_of_lt hfuel)
      rfl
  | table bare more ih =>
      obtain ⟨fuel, rfl⟩ := Nat.exists_eq_add_one_of_ne_zero (Nat.ne_zero_of_lt hfuel)
      simp only [writeHeader, List.length_cons, List.length_append] at hfuel
      exact readLines_cons rfl (readLine_writeHeader bare _) (ih (by omega))
  | entry bare spells more ih =>
      obtain ⟨fuel, rfl⟩ := Nat.exists_eq_add_one_of_ne_zero (Nat.ne_zero_of_lt hfuel)
      simp only [writeEntry, List.length_cons, List.length_append] at hfuel
      have hskip := skipSpace_of_visible bare.visible
      exact readLines_cons (hskip _) (readLine_writeEntry bare spells _) (ih (by omega))

theorem Document.return_notMem (h : Document text lines) : '\r' ∉ text := by
  induction h with
  | nil => exact List.not_mem_nil
  | blank more ih => simpa using ih
  | table bare more ih => simp [writeHeader, bare.return_notMem, ih]
  | entry bare spells more ih =>
      simp [writeEntry, bare.return_notMem, spells.return_notMem, ih]

theorem dropMark_cons {c : Char} (hc : c ≠ '\uFEFF') (text : List Char) :
    dropMark (c :: text) = c :: text := by
  unfold dropMark
  split
  · rename_i heq
    exact absurd (List.cons.inj heq).1 hc
  · rfl

theorem Document.dropMark_eq (h : Document text lines) : dropMark text = text := by
  cases h with
  | nil => rfl
  | blank more => exact dropMark_cons (by decide) _
  | table bare more => exact dropMark_cons (by decide) _
  | entry bare spells more =>
      obtain ⟨c, more, hform, hne⟩ := bare.exists_eq_cons
      rw [writeEntry, hform]
      exact dropMark_cons (hne _ (by decide)) _

theorem joinLineEnds_of_notMem (h : '\r' ∉ text) : joinLineEnds text = text := by
  induction text with
  | nil => rfl
  | cons c text ih =>
      obtain ⟨hc, htext⟩ := List.ne_and_not_mem_of_not_mem_cons h
      rw [joinLineEnds, ih htext]
      rintro rest rfl
      exact absurd rfl hc

/-- A document is read as the lines that it was put together from. -/
theorem parse_eq_build {document : String} (h : Document document.toList lines) :
    parse document = Fields.build [] [] lines := by
  rw [parse, h.dropMark_eq, joinLineEnds_of_notMem h.return_notMem]
  simp [h.readLines_eq (Nat.lt_succ_self _)]

end Line

end Toml

end MergedPaging
