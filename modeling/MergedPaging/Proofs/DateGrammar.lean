/-
Which texts are cursors by time.  Without an underscore a text is the start of the stream.
With one, it is a cursor exactly when the part before the first underscore is a numeral and its
number counts milliseconds of the calendar.  Every other text is refused: none is taken for the
start, and a number that is too far out is told apart from one that no 64 bits can hold.
-/
import MergedPaging.Proofs.CursorRoundTrip

namespace MergedPaging

namespace Text

/-- Digits, at least one. -/
structure IsDigits (digits : List Char) : Prop where
  ne_nil : digits ≠ []
  isDigit : ∀ c ∈ digits, c.isDigit = true

/-- A numeral and the number that it stands for.  It has one sign at most, and may have zeros
before its digits. -/
inductive Denotes : List Char → Int → Prop
  | unsigned {digits : List Char} (h : IsDigits digits) :
      Denotes digits (Nat.ofDigitChars 10 digits 0)
  | plus {digits : List Char} (h : IsDigits digits) :
      Denotes ('+' :: digits) (Nat.ofDigitChars 10 digits 0)
  | minus {digits : List Char} (h : IsDigits digits) :
      Denotes ('-' :: digits) (-(Nat.ofDigitChars 10 digits 0 : Int))

section Digits

variable {bound n : Nat} {beyond : NumeralFault} {digits : List Char}

/-- Digits that pass the bound are refused for that, wherever they pass it. -/
theorem readDigits_of_lt (hdigits : ∀ c ∈ digits, c.isDigit = true) (hn : n ≤ bound)
    (hbeyond : bound < Nat.ofDigitChars 10 digits n) :
    readDigits bound beyond n digits = .error beyond := by
  induction digits generalizing n with
  | nil =>
      rw [Nat.ofDigitChars_nil] at hbeyond
      omega
  | cons c digits ih =>
      rw [Nat.ofDigitChars_cons] at hbeyond
      have hc := digitValue_of_isDigit (hdigits c List.mem_cons_self)
      by_cases hfit : 10 * n + (c.toNat - '0'.toNat) ≤ bound
      · simp only [readDigits, hc, if_pos hfit]
        exact ih (fun d hd => hdigits d (List.mem_cons_of_mem _ hd)) hfit hbeyond
      · simp only [readDigits, hc, if_neg hfit]

/-- Whatever is read to its end consists of digits, and they stand for what is read. -/
theorem ofDigitChars_of_readDigits {value : Nat}
    (h : readDigits bound beyond n digits = .ok value) :
    (∀ c ∈ digits, c.isDigit = true) ∧ Nat.ofDigitChars 10 digits n = value := by
  induction digits generalizing n with
  | nil =>
      obtain rfl : n = value := Except.ok.inj h
      simp
  | cons c digits ih =>
      by_cases hc : c.isDigit = true
      · simp only [readDigits, digitValue_of_isDigit hc] at h
        split at h
        · obtain ⟨hdigits, hvalue⟩ := ih h
          exact ⟨List.forall_mem_cons.2 ⟨hc, hdigits⟩, hvalue⟩
        · cases h
      · simp only [readDigits, digitValue, if_neg hc] at h
        cases h

end Digits

section Numeral

variable {text digits : List Char} {n : Int}

theorem readInt64_plus (hne : digits ≠ []) :
    readInt64 ('+' :: digits) =
      (readDigits (int64Limit - 1) .tooLarge 0 digits).map fun n => (n : Int) := by
  cases digits with
  | nil => exact absurd rfl hne
  | cons c digits => rfl

/-- What becomes of a numeral depends on its number alone. -/
theorem readInt64_of_denotes (h : Denotes text n) :
    readInt64 text =
      if n < -(int64Limit : Int) then .error .tooSmall
      else if n < int64Limit then .ok n
      else .error .tooLarge := by
  have hnatural {digits : List Char} (h : IsDigits digits) :
      (readDigits (int64Limit - 1) .tooLarge 0 digits).map (fun n => (n : Int)) =
        if (Nat.ofDigitChars 10 digits 0 : Int) < -(int64Limit : Int) then .error .tooSmall
        else if (Nat.ofDigitChars 10 digits 0 : Int) < int64Limit then
          .ok (Nat.ofDigitChars 10 digits 0 : Int)
        else .error .tooLarge := by
    rw [if_neg (by omega)]
    split
    · rw [readDigits_of_isDigit h.isDigit (by omega)]
      rfl
    · rw [readDigits_of_lt h.isDigit (Nat.zero_le _) (by unfold int64Limit at *; omega)]
      rfl
  cases h with
  | unsigned h => rw [readInt64_digits h.ne_nil h.isDigit, hnatural h]
  | plus h => rw [readInt64_plus h.ne_nil, hnatural h]
  | @minus digits h =>
      rw [readInt64_minus h.ne_nil]
      split
      · rw [readDigits_of_lt h.isDigit (Nat.zero_le _) (by omega)]
        rfl
      · rw [if_pos (by unfold int64Limit; omega), readDigits_of_isDigit h.isDigit (by omega)]
        rfl

example : (readInt64 "-9223372036854775808".toList).toOption = some (-9223372036854775808) := by
  decide
example : readInt64 "+9223372036854775808".toList matches .error .tooLarge := by decide

theorem exists_of_map_readDigits {bound : Nat} {beyond : NumeralFault} {f : Int → Int}
    (h : (readDigits bound beyond 0 digits).map f = .ok n) :
    (∀ c ∈ digits, c.isDigit = true) ∧ f (Nat.ofDigitChars 10 digits 0) = n := by
  cases hread : readDigits bound beyond 0 digits with
  | error fault =>
      rw [hread] at h
      cases h
  | ok value =>
      rw [hread] at h
      obtain ⟨hdigits, rfl⟩ := ofDigitChars_of_readDigits hread
      exact ⟨hdigits, Except.ok.inj h⟩

/-- Nothing but numerals is read. -/
theorem denotes_of_readInt64 (h : readInt64 text = .ok n) : Denotes text n := by
  unfold readInt64 at h
  split at h
  · cases h
  · cases h
  · cases h
  · rename_i digits hne
    obtain ⟨hdigits, rfl⟩ := exists_of_map_readDigits h
    exact .minus ⟨hne, hdigits⟩
  · rename_i digits hne
    obtain ⟨hdigits, rfl⟩ := exists_of_map_readDigits h
    exact .plus ⟨hne, hdigits⟩
  · rename_i hne _ _ _ _
    obtain ⟨hdigits, rfl⟩ := exists_of_map_readDigits h
    exact .unsigned ⟨hne, hdigits⟩

end Numeral

end Text

namespace DateCursor

/-- The text of a cursor: a numeral before the first underscore, and an id behind it. -/
def Written (text : String) (millis : Int) (id : String) : Prop :=
  ∃ key, text.toList = key ++ '_' :: id.toList ∧ '_' ∉ key ∧ Text.Denotes key millis

/-- Milliseconds of the years -262143 to 262142. -/
def InCalendar (millis : Int) : Prop :=
  -8334601228800000 ≤ millis ∧ millis ≤ 8210266876799999

/-- What is wrong with a number of milliseconds: 64 bits do not hold it, or they do and the
calendar does not reach so far. -/
inductive Wrong : Int → CursorFault → Prop
  | tooSmall {millis : Int} (h : millis < -9223372036854775808) :
      Wrong millis (.dateKey .tooSmall)
  | tooLarge {millis : Int} (h : 9223372036854775807 < millis) : Wrong millis (.dateKey .tooLarge)
  | outOfRange {millis : Int} (hlow : -9223372036854775808 ≤ millis)
      (hhigh : millis ≤ 9223372036854775807) (h : ¬ InCalendar millis) :
      Wrong millis .dateOutOfRange

/-- The text is refused, in an error that carries it and gives the reason. -/
def Refused (text reason : String) : Prop :=
  ∃ fault, parse (some text) = .error (.malformed text fault) ∧ fault.message = reason

section Key

variable {key : List Char} {millis : Int} {fault : CursorFault}

theorem inCalendar_or_wrong (millis : Int) :
    InCalendar millis ∨ ∃ fault, Wrong millis fault := by
  by_cases hlow : millis < -9223372036854775808
  · exact Or.inr ⟨_, .tooSmall hlow⟩
  · by_cases hhigh : 9223372036854775807 < millis
    · exact Or.inr ⟨_, .tooLarge hhigh⟩
    · by_cases hcalendar : InCalendar millis
      · exact Or.inl hcalendar
      · exact Or.inr ⟨_, .outOfRange (by omega) (by omega) hcalendar⟩

/-- The wording tells these faults apart. -/
theorem Wrong.eq_of_message (h : Wrong millis fault) {millis' : Int} {fault' : CursorFault}
    (h' : Wrong millis' fault') (heq : fault.message = fault'.message) : fault = fault' := by
  cases h <;> cases h' <;> first | rfl | exact absurd heq (by decide)

theorem readKey_of_inCalendar (h : Text.Denotes key millis) (hcalendar : InCalendar millis) :
    ∃ date, readKey key = .ok date ∧ date.millis = millis := by
  obtain ⟨hlow, hhigh⟩ := hcalendar
  obtain ⟨c, hmade, hmillis, -⟩ := exists_ofMillis? hlow hhigh ""
  obtain ⟨date, hdate, rfl⟩ := Option.map_eq_some_iff.1 hmade
  refine ⟨date, ?_, hmillis⟩
  have hread : Text.readInt64 key = .ok millis := by
    rw [Text.readInt64_of_denotes h, if_neg (by unfold Text.int64Limit; omega),
      if_pos (by unfold Text.int64Limit; omega)]
  simp only [readKey, hread, hdate]

theorem readKey_of_wrong (h : Text.Denotes key millis) (hwrong : Wrong millis fault) :
    readKey key = .error fault := by
  have hread := Text.readInt64_of_denotes h
  unfold Text.int64Limit at hread
  cases hwrong with
  | tooSmall hlow =>
      rw [if_pos (by omega)] at hread
      simp only [readKey, hread]
  | tooLarge hhigh =>
      rw [if_neg (by omega), if_neg (by omega)] at hread
      simp only [readKey, hread]
  | outOfRange hlow hhigh hcalendar =>
      rw [if_neg (by omega), if_pos (by omega)] at hread
      have hnone : Instant.ofMillis? millis = none := by
        unfold InCalendar at hcalendar
        rw [Instant.ofMillis?_eq_none_iff]
        omega
      simp only [readKey, hread, hnone]

theorem denotes_of_readKey {date : Instant} (h : readKey key = .ok date) :
    Text.Denotes key date.millis := by
  unfold readKey at h
  split at h
  · cases h
  · rename_i millis hread
    split at h
    · rename_i hdate
      cases h
      rw [Instant.millis_of_ofMillis? hdate]
      exact Text.denotes_of_readInt64 hread
    · cases h

end Key

section Text

variable {text id : String} {key : List Char} {millis : Int}

theorem parse_of_notMem (h : '_' ∉ text.toList) : parse (some text) = .ok none := by
  have hsplit : Cursor.splitKey text = none := by
    rw [Cursor.splitKey, Text.splitFirst_eq_none_iff.2 h]
    rfl
  rw [parse, Cursor.readKeyed, hsplit]
  rfl

/-- A text is cut at its first underscore, and its key decides what becomes of it. -/
theorem parse_of_cut (htext : text.toList = key ++ '_' :: id.toList) (hfree : '_' ∉ key) :
    parse (some text) =
      match readKey key with
      | .ok date => .ok (some ⟨date, id⟩)
      | .error fault => .error (.malformed text fault) := by
  obtain rfl : text = Cursor.joinKey key id := by
    rw [Cursor.joinKey, ← htext, String.ofList_toList]
  rw [parse, Cursor.readKeyed_joinKey hfree]
  cases readKey key <;> rfl

theorem exists_cut (h : '_' ∈ text.toList) :
    ∃ key id, text.toList = key ++ '_' :: String.toList id ∧ '_' ∉ key := by
  cases hsplit : Text.splitFirst '_' text.toList with
  | none => exact absurd h (Text.splitFirst_eq_none_iff.1 hsplit)
  | some cut =>
      obtain ⟨key, id⟩ := cut
      obtain ⟨htext, hfree⟩ := Text.eq_append_of_splitFirst hsplit
      exact ⟨key, .ofList id, by rw [htext, String.toList_ofList], hfree⟩

theorem parse_of_written (h : Written text millis id) (hcalendar : InCalendar millis) :
    ∃ c, parse (some text) = .ok (some c) ∧ c.millis = millis ∧ c.id = id := by
  obtain ⟨key, htext, hfree, hdenotes⟩ := h
  obtain ⟨date, hread, hmillis⟩ := readKey_of_inCalendar hdenotes hcalendar
  refine ⟨⟨date, id⟩, ?_, hmillis, rfl⟩
  rw [parse_of_cut htext hfree, hread]

theorem parse_of_wrong (h : Written text millis id) {fault : CursorFault}
    (hwrong : Wrong millis fault) : parse (some text) = .error (.malformed text fault) := by
  obtain ⟨key, htext, hfree, hdenotes⟩ := h
  rw [parse_of_cut htext hfree, readKey_of_wrong hdenotes hwrong]

/-- Only a numeral behind which there is an underscore is read as a cursor; everything else
with an underscore is refused. -/
theorem written_or_refused (h : '_' ∈ text.toList) :
    (∃ c, parse (some text) = .ok (some c) ∧ Written text c.millis c.id ∧
      InCalendar c.millis) ∨ ∃ fault, parse (some text) = .error (.malformed text fault) := by
  obtain ⟨key, id, htext, hfree⟩ := exists_cut h
  have hparse := parse_of_cut htext hfree
  cases hread : readKey key with
  | error fault =>
      rw [hread] at hparse
      exact Or.inr ⟨fault, hparse⟩
  | ok date =>
      rw [hread] at hparse
      have hwritten : Written text date.millis id :=
        ⟨key, htext, hfree, denotes_of_readKey hread⟩
      rcases inCalendar_or_wrong date.millis with hcalendar | ⟨fault, hwrong⟩
      · exact Or.inl ⟨_, hparse, hwritten, hcalendar⟩
      · exact Or.inr ⟨fault, parse_of_wrong hwritten hwrong⟩

/-- The reason for which a numeral is refused is what is wrong with its number. -/
theorem refused_message_iff (h : Written text millis id) {fault : CursorFault} {other : Int}
    (hfault : Wrong other fault) : Refused text fault.message ↔ Wrong millis fault := by
  constructor
  · rintro ⟨fault', hparse, hreason⟩
    rcases inCalendar_or_wrong millis with hcalendar | ⟨fault'', hwrong⟩
    · obtain ⟨c, hread, -⟩ := parse_of_written h hcalendar
      cases hread.symm.trans hparse
    · cases (parse_of_wrong h hwrong).symm.trans hparse
      exact hwrong.eq_of_message hfault hreason ▸ hwrong
  · intro hwrong
    exact ⟨fault, parse_of_wrong h hwrong, rfl⟩

/-- There are three outcomes of reading a text.  It is the start exactly when it has no
underscore, and a cursor exactly when it is a numeral, an underscore and an id, and the number
is in the calendar; the cursor is then of that number and that id.  All other texts are refused
in an error that carries the text.  If there is a numeral before the underscore, the reason is
the date's range exactly when 64 bits can hold the number, and otherwise their bound that it
passes. -/
theorem parse_three_outcomes (text : String) :
    (parse (some text) = .ok none ↔ '_' ∉ text.toList) ∧
    (∀ millis id, (∃ c, parse (some text) = .ok (some c) ∧ c.millis = millis ∧ c.id = id) ↔
      Written text millis id ∧ InCalendar millis) ∧
    ((∃ reason, Refused text reason) ↔
      '_' ∈ text.toList ∧ ∀ millis id, Written text millis id → ¬ InCalendar millis) ∧
    ∀ millis id, Written text millis id →
      (Refused text "date out of range" ↔
        (-9223372036854775808 ≤ millis ∧ millis ≤ 9223372036854775807) ∧ ¬ InCalendar millis) ∧
      (Refused text "date key: number too large to fit in target type" ↔
        9223372036854775807 < millis) ∧
      (Refused text "date key: number too small to fit in target type" ↔
        millis < -9223372036854775808) := by
  refine ⟨⟨?_, parse_of_notMem⟩, ?_, ⟨?_, ?_⟩, ?_⟩
  · intro hstart hmem
    rcases written_or_refused hmem with ⟨c, hread, -⟩ | ⟨fault, hrefused⟩
    · cases hread.symm.trans hstart
    · cases hrefused.symm.trans hstart
  · intro millis id
    constructor
    · rintro ⟨c, hread, rfl, rfl⟩
      have hmem : '_' ∈ text.toList := by
        by_contra hfree
        cases (parse_of_notMem hfree).symm.trans hread
      rcases written_or_refused hmem with ⟨c', hread', hwritten⟩ | ⟨fault, hrefused⟩
      · cases hread'.symm.trans hread
        exact hwritten
      · cases hrefused.symm.trans hread
    · rintro ⟨hwritten, hcalendar⟩
      exact parse_of_written hwritten hcalendar
  · rintro ⟨reason, fault, hrefused, -⟩
    constructor
    · by_contra hfree
      cases (parse_of_notMem hfree).symm.trans hrefused
    · intro millis id hwritten hcalendar
      obtain ⟨c, hread, -⟩ := parse_of_written hwritten hcalendar
      cases hread.symm.trans hrefused
  · rintro ⟨hmem, hnone⟩
    rcases written_or_refused hmem with ⟨c, -, hwritten, hcalendar⟩ | ⟨fault, hrefused⟩
    · exact absurd hcalendar (hnone _ _ hwritten)
    · exact ⟨fault.message, fault, hrefused, rfl⟩
  · intro millis id hwritten
    have hfar : Wrong 8210266876800000 .dateOutOfRange :=
      .outOfRange (by omega) (by omega) fun h => absurd h.2 (by omega)
    have hrange := refused_message_iff hwritten hfar
    have hlarge := refused_message_iff hwritten
      (.tooLarge (by omega) : Wrong 9223372036854775808 (.dateKey .tooLarge))
    have hsmall := refused_message_iff hwritten
      (.tooSmall (by omega) : Wrong (-9223372036854775809) (.dateKey .tooSmall))
    refine ⟨hrange.trans ?_, hlarge.trans ?_, hsmall.trans ?_⟩
    · constructor
      · intro hwrong
        cases hwrong with
        | outOfRange hlow hhigh h => exact ⟨⟨hlow, hhigh⟩, h⟩
      · rintro ⟨⟨hlow, hhigh⟩, h⟩
        exact .outOfRange hlow hhigh h
    · exact ⟨fun | .tooLarge h => h, .tooLarge⟩
    · exact ⟨fun | .tooSmall h => h, .tooSmall⟩

end Text

end DateCursor

namespace Sample

open DateCursor

/-- A sign, zeros before the digits and an underscore in the id do no harm.  One millisecond
behind the calendar and one behind 64 bits are refused for different reasons. -/
theorem date_texts_told_apart :
    (∃ c, parse (some "-007_a_b") = .ok (some c) ∧ c.millis = -7 ∧ c.id = "a_b") ∧
    Refused "+8210266876800000_x" "date out of range" ∧
    Refused "9223372036854775808_x" "date key: number too large to fit in target type" ∧
    parse (some "7") = .ok none := by
  obtain ⟨-, hread, -⟩ := parse_three_outcomes "-007_a_b"
  obtain ⟨-, -, -, hcalendar⟩ := parse_three_outcomes "+8210266876800000_x"
  obtain ⟨-, -, -, hbits⟩ := parse_three_outcomes "9223372036854775808_x"
  obtain ⟨hstart, -⟩ := parse_three_outcomes "7"
  have hseven : Written "-007_a_b" (-7) "a_b" :=
    ⟨['-', '0', '0', '7'], by decide, by decide, .minus ⟨by decide, List.all_eq_true.1 rfl⟩⟩
  have hfar : Written "+8210266876800000_x" 8210266876800000 "x" :=
    ⟨'+' :: "8210266876800000".toList, by decide, by decide,
      .plus ⟨by decide, List.all_eq_true.1 rfl⟩⟩
  have hlong : Written "9223372036854775808_x" 9223372036854775808 "x" :=
    ⟨"9223372036854775808".toList, by decide, by decide,
      .unsigned ⟨by decide, List.all_eq_true.1 rfl⟩⟩
  refine ⟨(hread _ _).2 ⟨hseven, by omega, by omega⟩, ?_, ?_, hstart.2 (by decide)⟩
  · exact (hcalendar _ _ hfar).1.2 ⟨by omega, fun h => absurd h.2 (by omega)⟩
  · exact (hbits _ _ hlong).2.1.2 (by omega)

end Sample

end MergedPaging
