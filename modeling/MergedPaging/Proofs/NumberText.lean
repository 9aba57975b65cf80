/-
Whole numbers are read from their digits.  A number ends at what may follow a value, so nothing
that has a sign or letter behind its first digits is read in its place: no time, no number with
a base or a sign, and no number that is not finite.
-/
import MergedPaging.Toml.Scalar
import MergedPaging.Proofs.CursorText

namespace MergedPaging

namespace Text

theorem valueOf_eq_ofDigitChars {digits : List Char} (h : ∀ c ∈ digits, c.isDigit = true) :
    valueOf 10 digits = Nat.ofDigitChars 10 digits 0 := by
  apply List.foldl_ext
  intro n c hc
  rw [hexValue, if_pos (h c hc)]
  rfl

/-- The digits of a number start with a zero only if there is no other digit. -/
theorem head?_toDigits_ne {n : Nat} (hpos : 0 < n) : (Nat.toDigits 10 n).head? ≠ some '0' := by
  induction n using Nat.strong_induction_on with
  | _ n ih =>
      by_cases hsmall : n < 10
      · have hdigit : ∀ d < 10, 0 < d → Nat.digitChar d ≠ '0' := by decide
        rw [Nat.toDigits_of_lt_base hsmall]
        simpa using hdigit n hsmall hpos
      · have hne : Nat.toDigits 10 (n / 10) ≠ [] := Nat.toDigits_ne_nil
        rw [Nat.toDigits_of_base_le (by decide) (by omega), List.head?_append_of_ne_nil _ hne]
        exact ih (n / 10) (by omega) (by omega)

end Text

namespace Toml

open Text

/-- What follows a value. -/
inductive Delimited : List Char → Prop
  | comma (rest : List Char) : Delimited (',' :: rest)
  | bracket (rest : List Char) : Delimited (']' :: rest)
  | lineEnd (rest : List Char) : Delimited ('\n' :: rest)

variable {digits rest : List Char}

/-- The number ends where what follows it starts. -/
theorem Delimited.dropWhile_append (h : Delimited rest) (hdigits : ∀ c ∈ digits, c.isDigit = true) :
    (digits ++ rest).dropWhile Char.isDigit = rest := by
  rw [List.dropWhile_append_of_pos hdigits]
  cases h <;> rfl

theorem readGroups_digits (h : Delimited rest) (hdigits : ∀ c ∈ digits, c.isDigit = true)
    (begun : Bool) (hbegun : digits = [] → begun = true) :
    readGroups Char.isDigit begun (digits ++ rest) = some (digits, rest) := by
  induction digits generalizing begun with
  | nil =>
      rw [hbegun rfl]
      cases h <;> rfl
  | cons c digits ih =>
      obtain ⟨hc, htail⟩ := List.forall_mem_cons.1 hdigits
      rw [List.cons_append, readGroups, if_pos hc, ih htail true fun _ => rfl]
      rfl

theorem isDigit_of_digitValue {c : Char} {d : Nat} (h : digitValue c = some d) :
    c.isDigit = true := by
  unfold digitValue at h
  split at h
  · assumption
  · cases h

theorem eq_append_of_readWord {word text rest : List Char} (h : readWord word text = some rest) :
    text = word ++ rest := by
  unfold readWord at h
  split at h
  · rename_i hprefix
    obtain ⟨more, rfl⟩ := List.isPrefixOf_iff_prefix.1 hprefix
    cases h
    rw [List.drop_left]
  · cases h

theorem exists_of_readTwo {low high n : Nat} {text rest : List Char}
    (h : readTwo low high text = some (n, rest)) :
    ∃ a b, text = a :: b :: rest ∧ a.isDigit = true ∧ b.isDigit = true := by
  unfold readTwo at h
  split at h
  · rename_i a b more
    simp only [Option.bind_eq_bind, Option.bind_eq_some_iff] at h
    obtain ⟨d, hd, e, he, h⟩ := h
    split at h
    · cases h
      exact ⟨a, b, rfl, isDigit_of_digitValue hd, isDigit_of_digitValue he⟩
    · cases h
  · cases h

/-- Only a day has a hyphen behind its first digits. -/
theorem dropWhile_of_readDay {text rest : List Char} (h : readDay text = some rest) :
    ∃ more, text.dropWhile Char.isDigit = '-' :: more := by
  unfold readDay at h
  simp only [Option.bind_eq_bind, Option.bind_eq_some_iff, Prod.exists] at h
  obtain ⟨century, text₁, hcentury, year, text₂, hyear, text₃, hhyphen, -⟩ := h
  obtain ⟨a, b, rfl, ha, hb⟩ := exists_of_readTwo hcentury
  obtain ⟨c, d, rfl, hc, hd⟩ := exists_of_readTwo hyear
  rw [eq_append_of_readWord hhyphen]
  exact ⟨text₃, by simp [ha, hb, hc, hd]⟩

/-- Only a time of day has a colon behind its first digits. -/
theorem dropWhile_of_readClock {text rest : List Char} (h : readClock text = some rest) :
    ∃ more, text.dropWhile Char.isDigit = ':' :: more := by
  unfold readClock at h
  simp only [Option.bind_eq_bind, Option.bind_eq_some_iff, Prod.exists] at h
  obtain ⟨hour, text₁, hhour, text₂, hcolon, -⟩ := h
  obtain ⟨a, b, rfl, ha, hb⟩ := exists_of_readTwo hhour
  rw [eq_append_of_readWord hcolon]
  exact ⟨text₂, by simp [ha, hb]⟩

/-- Only a word has its first letter behind its first digits. -/
theorem dropWhile_of_readWord {c : Char} (hc : c.isDigit = false) {word text rest : List Char}
    (h : readWord (c :: word) text = some rest) :
    ∃ more, text.dropWhile Char.isDigit = c :: more := by
  rw [eq_append_of_readWord h]
  exact ⟨word ++ rest, by simp [hc]⟩

/-- What is told from its sign behind the first digits is not read where there is a number. -/
theorem eq_none_of_sign {α : Type} (h : Delimited rest) (hdigits : ∀ c ∈ digits, c.isDigit = true)
    {read : List Char → Option α} {sign : Char} (hsign : ∀ more, ¬ Delimited (sign :: more))
    (hread : ∀ {text result}, read text = some result →
      ∃ more, text.dropWhile Char.isDigit = sign :: more) :
    read (digits ++ rest) = none := by
  cases hresult : read (digits ++ rest) with
  | none => rfl
  | some result =>
      obtain ⟨more, hmore⟩ := hread hresult
      exact absurd ((h.dropWhile_append hdigits).symm.trans hmore ▸ h) (hsign more)

theorem readTime_digits (h : Delimited rest) (hdigits : ∀ c ∈ digits, c.isDigit = true) :
    readTime (digits ++ rest) = none := by
  have hday : readDay (digits ++ rest) = none :=
    eq_none_of_sign h hdigits (by rintro more ⟨⟩) dropWhile_of_readDay
  have hclock : readClock (digits ++ rest) = none :=
    eq_none_of_sign h hdigits (by rintro more ⟨⟩) dropWhile_of_readClock
  rw [readTime, hday, hclock]
  rfl

theorem readNumber_digits (h : Delimited rest) (hdigits : ∀ c ∈ digits, c.isDigit = true) :
    readNumber (digits ++ rest) = readSigned false (digits ++ rest) := by
  have hdrop := h.dropWhile_append hdigits
  unfold readNumber
  -- A number with a sign or a base has a letter or sign behind its first digits.
  split
  all_goals first
    | rfl
    | rename_i heq
      rw [heq] at hdrop
      cases h <;> cases hdrop

theorem readNonFinite_digits (h : Delimited rest) (hdigits : ∀ c ∈ digits, c.isDigit = true) :
    readNonFinite (digits ++ rest) = none := by
  have hinf : readWord ['i', 'n', 'f'] (digits ++ rest) = none :=
    eq_none_of_sign h hdigits (by rintro more ⟨⟩) (dropWhile_of_readWord (by decide))
  have hnan : readWord ['n', 'a', 'n'] (digits ++ rest) = none :=
    eq_none_of_sign h hdigits (by rintro more ⟨⟩) (dropWhile_of_readWord (by decide))
  rw [readNonFinite, hinf, hnan]
  rfl

/-- A whole number of 64 bits is read from its digits. -/
theorem readScalar_toDigits (h : Delimited rest) {n : Nat} (hn : n < int64Limit) :
    readScalar (Nat.toDigits 10 n ++ rest) = some (.integer n, rest) := by
  have hdigits : ∀ c ∈ Nat.toDigits 10 n, c.isDigit = true := fun c => isDigit_of_mem_toDigits
  have hdrop := h.dropWhile_append hdigits
  have hgroups := readGroups_digits h hdigits false fun hnil => absurd hnil Nat.toDigits_ne_nil
  have hlead : ¬ ((Nat.toDigits 10 n).head? = some '0' ∧ Nat.toDigits 10 n ≠ ['0']) := by
    rintro ⟨hhead, hne⟩
    rcases Nat.eq_zero_or_pos n with rfl | hpos
    · exact hne rfl
    · exact head?_toDigits_ne hpos hhead
  have hvalue : valueOf 10 (Nat.toDigits 10 n) = n := by
    rw [valueOf_eq_ofDigitChars hdigits, Nat.ofDigitChars_ten_toDigits]
  have hdecimal : readDecimal false (Nat.toDigits 10 n ++ rest) = some (.integer n, rest) := by
    unfold readDecimal
    rw [hgroups]
    simp only [Option.bind_eq_bind, Option.bind_some, if_neg hlead]
    cases h <;> simp [readExponent?, ofInteger, hvalue, hn]
  have hsigned : readSigned false (Nat.toDigits 10 n ++ rest) = some (.integer n, rest) := by
    rw [readSigned, readNonFinite_digits h hdigits, hdecimal]
    rfl
  unfold readScalar
  -- The first letter of a truth value is no digit.
  split
  · rename_i heq
    rw [heq] at hdrop
    cases h <;> cases hdrop
  · rename_i heq
    rw [heq] at hdrop
    cases h <;> cases hdrop
  · rw [readTime_digits h hdigits, readNumber_digits h hdigits, hsigned]
    rfl

end Toml

end MergedPaging
