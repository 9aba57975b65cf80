/-
What is written is read.  Numerals, decimal numbers and the cursors made of them are
read back from their own text: the number with its scale, and the cursor as the same
position.
-/
import MergedPaging.Proofs.Pending

namespace MergedPaging

namespace Text

theorem digitValue_of_isDigit {c : Char} (h : c.isDigit = true) :
    digitValue c = some (c.toNat - '0'.toNat) := by
  rw [digitValue, if_pos h]

/-- Digits stand for a number that is at least the one they continue. -/
theorem le_ofDigitChars (digits : List Char) (n : Nat) : n ≤ Nat.ofDigitChars 10 digits n := by
  induction digits generalizing n with
  | nil => simp
  | cons c digits ih =>
      rw [Nat.ofDigitChars_cons]
      exact Nat.le_trans (by omega) (ih _)

/-- Digits within the bound are read to their end. -/
theorem readDigits_of_isDigit {digits : List Char} (hdigits : ∀ c ∈ digits, c.isDigit = true)
    {bound n : Nat} (hbound : Nat.ofDigitChars 10 digits n ≤ bound) (beyond : NumeralFault) :
    readDigits bound beyond n digits = .ok (Nat.ofDigitChars 10 digits n) := by
  induction digits generalizing n with
  | nil => simp [readDigits]
  | cons c digits ih =>
      rw [Nat.ofDigitChars_cons] at hbound ⊢
      have hfit : 10 * n + (c.toNat - '0'.toNat) ≤ bound := (le_ofDigitChars _ _).trans hbound
      rw [readDigits, digitValue_of_isDigit (hdigits c List.mem_cons_self)]
      simp only [if_pos hfit]
      exact ih (fun d hd => hdigits d (List.mem_cons_of_mem _ hd)) hbound

theorem isDigit_of_mem_toDigits {n : Nat} {c : Char} (h : c ∈ Nat.toDigits 10 n) :
    c.isDigit = true :=
  Nat.isDigit_of_mem_toDigits (by decide) (by decide) h

theorem readDigits_toDigits {n bound : Nat} (h : n ≤ bound) (beyond : NumeralFault) :
    readDigits bound beyond 0 (Nat.toDigits 10 n) = .ok n := by
  have hvalue : Nat.ofDigitChars 10 (Nat.toDigits 10 n) 0 = n := Nat.ofDigitChars_ten_toDigits
  rw [readDigits_of_isDigit (fun c => isDigit_of_mem_toDigits) (hvalue.symm ▸ h), hvalue]

theorem toList_toString_of_nonneg {n : Int} (h : 0 ≤ n) :
    (toString n).toList = Nat.toDigits 10 n.toNat := by
  rw [Int.toString_eq_repr, Int.repr_eq_if, if_pos h, Nat.toList_repr]

theorem toList_toString_of_neg {n : Int} (h : n < 0) :
    (toString n).toList = '-' :: Nat.toDigits 10 (-n).toNat := by
  rw [Int.toString_eq_repr, Int.repr_eq_if, if_neg (by omega), String.toList_append,
    Nat.toList_repr]
  rfl

theorem readInt64_minus {digits : List Char} (hne : digits ≠ []) :
    readInt64 ('-' :: digits) =
      (readDigits int64Limit .tooSmall 0 digits).map fun n => -(n : Int) := by
  cases digits with
  | nil => exact absurd rfl hne
  | cons c digits => rfl

theorem readInt64_digits {digits : List Char} (hne : digits ≠ [])
    (hdigits : ∀ c ∈ digits, c.isDigit = true) :
    readInt64 digits = (readDigits (int64Limit - 1) .tooLarge 0 digits).map fun n => (n : Int) := by
  have hsign {c : Char} {rest : List Char} (heq : digits = c :: rest) (hc : c.isDigit = false) :
      False := by
    have hdigit := hdigits c (heq ▸ List.mem_cons_self)
    rw [hc] at hdigit
    cases hdigit
  unfold readInt64
  split
  · exact absurd rfl hne
  · exact (hsign rfl (by decide)).elim
  · exact (hsign rfl (by decide)).elim
  · exact (hsign rfl (by decide)).elim
  · exact (hsign rfl (by decide)).elim
  · rfl

/-- A 64-bit number is read from its text. -/
theorem readInt64_toString {n : Int} (hlow : -(int64Limit : Int) ≤ n) (hhigh : n < int64Limit) :
    readInt64 (toString n).toList = .ok n := by
  by_cases hneg : n < 0
  · rw [toList_toString_of_neg hneg, readInt64_minus Nat.toDigits_ne_nil,
      readDigits_toDigits (by omega)]
    have hvalue : -((-n).toNat : Int) = n := by omega
    exact congrArg Except.ok hvalue
  · rw [toList_toString_of_nonneg (by omega),
      readInt64_digits Nat.toDigits_ne_nil (fun c => isDigit_of_mem_toDigits),
      readDigits_toDigits (by omega)]
    have hvalue : (n.toNat : Int) = n := by omega
    exact congrArg Except.ok hvalue

theorem underscore_notMem_toString (n : Int) : '_' ∉ (toString n).toList := by
  by_cases hneg : n < 0
  · rw [toList_toString_of_neg hneg, List.mem_cons, not_or]
    exact ⟨by decide, Nat.underscore_not_in_toDigits⟩
  · rw [toList_toString_of_nonneg (by omega)]
    exact Nat.underscore_not_in_toDigits

theorem isDigit_of_mem_padded {width n : Nat} {c : Char} (h : c ∈ padded width n) :
    c.isDigit = true := by
  rcases List.mem_append.1 h with hzero | hdigit
  · rw [List.eq_of_mem_replicate hzero]
    decide
  · exact isDigit_of_mem_toDigits hdigit

theorem ofDigitChars_padded (width n : Nat) : Nat.ofDigitChars 10 (padded width n) 0 = n := by
  rw [padded, Nat.ofDigitChars_append, Nat.ofDigitChars_replicate_zero, Nat.mul_zero,
    Nat.ofDigitChars_ten_toDigits]

theorem le_length_padded (width n : Nat) : width ≤ (padded width n).length := by
  rw [padded, List.length_append, List.length_replicate]
  omega

end Text

namespace Decimal

theorem scan_nil (m : Magnitude) (point : Bool) : scan m point true [] = .ok m :=
  rfl

theorem scan_digit {m : Magnitude} {point digits : Bool} {c : Char} {d : Nat}
    (hroom : ¬ (point = true ∧ m.scale = 28)) (hdigit : Text.digitValue c = some d)
    (hfit : 10 * m.mantissa + d < 79228162514264337593543950336)
    (hscale : (if point then m.scale + 1 else m.scale) ≤ 28) (rest : List Char) :
    scan m point digits (c :: rest) =
      scan ⟨10 * m.mantissa + d, if point then m.scale + 1 else m.scale, hfit, hscale⟩
        point true rest := by
  change dite _ _ _ = _
  rw [dif_neg hroom]
  split
  · rename_i d' hdigit'
    obtain rfl : d = d' := Option.some.inj (hdigit.symm.trans hdigit')
    rw [dif_pos hfit]
  · rename_i hnone
    cases hdigit.symm.trans hnone

theorem scan_point (m : Magnitude) (digits : Bool) (rest : List Char) :
    scan m false digits ('.' :: rest) = scan m true digits rest := by
  change dite _ _ _ = _
  rw [dif_neg (by simp)]
  rfl

/-- Digits that fit are read one by one, before the point and behind it. -/
theorem scan_digits {ds : List Char} (hdigits : ∀ c ∈ ds, c.isDigit = true) {m : Magnitude}
    {point digits : Bool}
    (hfit : Nat.ofDigitChars 10 ds m.mantissa < 79228162514264337593543950336)
    (hscale : (if point then m.scale + ds.length else m.scale) ≤ 28) (rest : List Char) :
    scan m point digits (ds ++ rest) =
      scan ⟨Nat.ofDigitChars 10 ds m.mantissa, if point then m.scale + ds.length else m.scale,
        hfit, hscale⟩ point (digits || !ds.isEmpty) rest := by
  induction ds generalizing m digits with
  | nil =>
      obtain ⟨mantissa, scale, hmantissa, hs⟩ := m
      simp
  | cons c ds ih =>
      have hroom : ¬ (point = true ∧ m.scale = 28) := by
        rintro ⟨rfl, hfull⟩
        simp only [↓reduceIte, List.length_cons] at hscale
        omega
      have hplaces : (if point then m.scale + 1 else m.scale) ≤ 28 := by
        cases point with
        | false => exact hscale
        | true =>
            simp only [↓reduceIte, List.length_cons] at hscale ⊢
            omega
      have hnext : 10 * m.mantissa + (c.toNat - '0'.toNat) < 79228162514264337593543950336 := by
        rw [Nat.ofDigitChars_cons] at hfit
        exact (Text.le_ofDigitChars _ _).trans_lt hfit
      rw [List.cons_append, scan_digit hroom
        (Text.digitValue_of_isDigit (hdigits c List.mem_cons_self)) hnext hplaces]
      rw [ih (fun d hd => hdigits d (List.mem_cons_of_mem _ hd))]
      · simp only [Nat.ofDigitChars_cons, List.length_cons, List.isEmpty_cons, Bool.not_false,
          Bool.or_true, Bool.true_or]
        cases point with
        | false => rfl
        | true => simp only [↓reduceIte, Nat.add_assoc, Nat.add_comm 1]
      · cases point with
        | false => exact hscale
        | true =>
            simp only [↓reduceIte, List.length_cons] at hscale ⊢
            omega

/-- Digits without a point are read as a whole number. -/
theorem scan_whole {ds : List Char} (hdigits : ∀ c ∈ ds, c.isDigit = true) (hne : ds ≠ [])
    {m : Magnitude} (hvalue : Nat.ofDigitChars 10 ds 0 = m.mantissa) (hscale : m.scale = 0) :
    scan zero.toMagnitude false false ds = .ok m := by
  obtain ⟨mantissa, scale, hmantissa, hplaces⟩ := m
  obtain rfl : Nat.ofDigitChars 10 ds 0 = mantissa := hvalue
  obtain rfl : scale = 0 := hscale
  have hread : scan zero.toMagnitude false false (ds ++ []) =
      scan ⟨Nat.ofDigitChars 10 ds 0, 0, hmantissa, hplaces⟩ false (!ds.isEmpty) [] :=
    scan_digits hdigits hmantissa (Nat.zero_le _) []
  rw [List.append_nil, List.isEmpty_eq_false_iff.2 hne] at hread
  exact hread

/-- Digits with a point among them are read to as many places as stand behind it. -/
theorem scan_fraction {front back : List Char} (hfront : ∀ c ∈ front, c.isDigit = true)
    (hback : ∀ c ∈ back, c.isDigit = true) (hne : front ≠ []) {m : Magnitude}
    (hvalue : Nat.ofDigitChars 10 (front ++ back) 0 = m.mantissa) (hscale : m.scale = back.length) :
    scan zero.toMagnitude false false (front ++ '.' :: back) = .ok m := by
  obtain ⟨mantissa, scale, hmantissa, hplaces⟩ := m
  obtain rfl : scale = back.length := hscale
  rw [Nat.ofDigitChars_append] at hvalue
  obtain rfl : Nat.ofDigitChars 10 back (Nat.ofDigitChars 10 front 0) = mantissa := hvalue
  have hwhole : Nat.ofDigitChars 10 front 0 < 79228162514264337593543950336 :=
    (Text.le_ofDigitChars back _).trans_lt hmantissa
  have hread : scan zero.toMagnitude false false (front ++ '.' :: back) =
      scan ⟨Nat.ofDigitChars 10 front 0, 0, hwhole, Nat.zero_le _⟩ false (!front.isEmpty)
        ('.' :: back) :=
    scan_digits hfront hwhole (Nat.zero_le _) _
  have hrest : scan ⟨Nat.ofDigitChars 10 front 0, 0, hwhole, Nat.zero_le _⟩ true true
      (back ++ []) = scan ⟨Nat.ofDigitChars 10 back (Nat.ofDigitChars 10 front 0),
        0 + back.length, hmantissa, by omega⟩ true true [] :=
    scan_digits hback hmantissa (by simpa using hplaces) []
  rw [hread, scan_point, List.isEmpty_eq_false_iff.2 hne]
  rw [List.append_nil] at hrest
  rw [Bool.not_false, hrest, scan_nil]
  simp only [Nat.zero_add]

/-- The digits of a magnitude are read as that magnitude, to its scale. -/
theorem scan_magnitude_digits (m : Magnitude) :
    scan zero.toMagnitude false false m.digits = .ok m := by
  have hdigits : ∀ c ∈ Text.padded (m.scale + 1) m.mantissa, c.isDigit = true :=
    fun c => Text.isDigit_of_mem_padded
  have hvalue := Text.ofDigitChars_padded (m.scale + 1) m.mantissa
  have hlength := Text.le_length_padded (m.scale + 1) m.mantissa
  rw [Magnitude.digits]
  generalize Text.padded (m.scale + 1) m.mantissa = all at *
  by_cases hscale : m.scale = 0
  · simp only [if_pos hscale]
    exact scan_whole hdigits (List.ne_nil_of_length_pos (by omega)) hvalue hscale
  · simp only [if_neg hscale]
    apply scan_fraction (fun c hc => hdigits c (List.mem_of_mem_take hc))
      (fun c hc => hdigits c (List.mem_of_mem_drop hc))
    · apply List.ne_nil_of_length_pos
      rw [List.length_take]
      omega
    · rw [List.take_append_drop]
      exact hvalue
    · rw [List.length_drop]
      omega

theorem mem_digits {m : Magnitude} {c : Char} (h : c ∈ m.digits) :
    c.isDigit = true ∨ c = '.' := by
  rw [Magnitude.digits] at h
  split at h
  · exact Or.inl (Text.isDigit_of_mem_padded h)
  · rcases List.mem_append.1 h with hfront | htail
    · exact Or.inl (Text.isDigit_of_mem_padded (List.mem_of_mem_take hfront))
    · rcases List.mem_cons.1 htail with rfl | hback
      · exact Or.inr rfl
      · exact Or.inl (Text.isDigit_of_mem_padded (List.mem_of_mem_drop hback))

theorem digits_ne_nil (m : Magnitude) : m.digits ≠ [] := by
  have hlength := Text.le_length_padded (m.scale + 1) m.mantissa
  rw [Magnitude.digits]
  split
  · exact List.ne_nil_of_length_pos (by omega)
  · simp

theorem print_ne_nil (d : Decimal) : d.print ≠ [] := by
  rw [print]
  split
  · exact List.cons_ne_nil _ _
  · exact digits_ne_nil _

/-- The text of a number holds digits, a point and a sign only. -/
theorem notMem_print {c : Char} (hdigit : c.isDigit = false) (hpoint : c ≠ '.')
    (hsign : c ≠ '-') (d : Decimal) : c ∉ d.print := by
  have hdigits : c ∉ d.digits := by
    intro h
    rcases mem_digits h with hdigit' | hpoint'
    · exact absurd hdigit' (by simp [hdigit])
    · exact hpoint hpoint'
  rw [print]
  split
  · rw [List.mem_cons, not_or]
    exact ⟨hsign, hdigits⟩
  · exact hdigits

theorem underscore_notMem_print (d : Decimal) : '_' ∉ d.print :=
  notMem_print (by decide) (by decide) (by decide) d

/-- Text without a sign is read as a number without one. -/
theorem readPlain_digits (m : Magnitude) : readPlain m.digits = .ok (ofMagnitude false m) := by
  have hsign {c : Char} {rest : List Char} (heq : m.digits = c :: rest)
      (hc : c.isDigit = false) (hpoint : c ≠ '.') : False := by
    rcases mem_digits (heq ▸ List.mem_cons_self : c ∈ m.digits) with hdigit | hdot
    · rw [hc] at hdigit
      cases hdigit
    · exact hpoint hdot
  have hscan := scan_magnitude_digits m
  have hne := digits_ne_nil m
  generalize m.digits = digits at *
  unfold readPlain
  split
  · exact absurd rfl hne
  · exact (hsign rfl (by decide) (by decide)).elim
  · exact (hsign rfl (by decide) (by decide)).elim
  · rw [hscan]
    rfl

/-- A number is read from its text, to its scale; only the sign of a zero is lost. -/
theorem read_print (d : Decimal) : read d.print = .ok (ofMagnitude d.negative d.toMagnitude) := by
  have hplain : readPlain d.print = .ok (ofMagnitude d.negative d.toMagnitude) := by
    rw [print]
    cases d.negative with
    | true =>
        rw [if_pos rfl]
        change (scan zero.toMagnitude false false d.digits).map (ofMagnitude true) = _
        rw [scan_magnitude_digits]
        rfl
    | false => exact readPlain_digits d.toMagnitude
  rw [read, hplain]

-- The scale of a number is kept, the sign of zero is not.
example : (read "1.50".toList).toOption.map print = some "1.50".toList := by decide +kernel
example : (read "-0.00".toList).toOption.map print = some "0.00".toList := by decide +kernel

theorem compare_ofMagnitude (d : Decimal) :
    compare (ofMagnitude d.negative d.toMagnitude) d = .eq := by
  have hvalue : (ofMagnitude d.negative d.toMagnitude).numerator = d.numerator := by
    rw [numerator, numerator, ofMagnitude]
    by_cases hzero : d.mantissa = 0
    · simp [hzero]
    · simp [hzero]
  change compare ((ofMagnitude d.negative d.toMagnitude).numerator * _) (d.numerator * _) = _
  rw [hvalue]
  exact Std.ReflCmp.compare_self

end Decimal

namespace Cursor

variable {κ : Type} {readKey : List Char → Except CursorFault κ} {key : List Char}

/-- A key that holds no underscore is read back, whatever the id holds. -/
theorem readKeyed_joinKey (hkey : '_' ∉ key) (id : String) :
    readKeyed readKey (some (joinKey key id)) =
      match readKey key with
      | .ok value => .ok (some (value, id))
      | .error fault => .error (.malformed (joinKey key id) fault) := by
  have hsplit : splitKey (joinKey key id) = some (key, id) := by
    rw [splitKey, joinKey, String.toList_ofList, Text.splitFirst_append _ hkey, Option.map_some]
    simp
  cases hread : readKey key with
  | error fault => simp only [readKeyed, hsplit, hread]
  | ok value => simp only [readKeyed, hsplit, hread]

theorem joinKey_ne_empty (key : List Char) (id : String) : joinKey key id ≠ "" := by
  intro hempty
  have hlist := congrArg String.toList hempty
  rw [joinKey, String.toList_ofList] at hlist
  simp at hlist

end Cursor

namespace Instant

/-- A time lies well within the milliseconds that 64 bits can count. -/
theorem millis_bounds (t : Instant) :
    -(Text.int64Limit : Int) ≤ t.millis ∧ t.millis < Text.int64Limit := by
  have hlow := t.seconds_ge
  have hhigh := t.seconds_le
  have hnanos := t.nanos_lt
  simp only [millis, Text.int64Limit]
  omega

/-- A time to the millisecond is the time of its milliseconds, if that is in range. -/
theorem eq_truncate_of_ofMillis? {t t' : Instant} (h : ofMillis? t.truncate.millis = some t') :
    t' = t.truncate := by
  rw [truncate] at h ⊢
  cases hread : ofMillis? t.millis with
  | none =>
      rw [hread, Option.getD_none, hread] at h
      cases h
  | some read =>
      rw [hread, Option.getD_some, millis_of_ofMillis? hread, hread] at h
      exact (Option.some.inj h).symm

end Instant

namespace DateCursor

theorem readKey_millis (t : Instant) :
    readKey (toString t.millis).toList =
      match Instant.ofMillis? t.millis with
      | some date => .ok date
      | none => .error .dateOutOfRange := by
  have hread := Text.readInt64_toString t.millis_bounds.1 t.millis_bounds.2
  cases hmillis : Instant.ofMillis? t.millis with
  | none => simp only [readKey, hread, hmillis]
  | some date => simp only [readKey, hread, hmillis]

/-- What the text of a time and an id is read as has the same milliseconds and id. -/
theorem parse_toString (c : DateCursor) :
    parse (some (toString c)) =
      match Instant.ofMillis? c.millis with
      | some date => .ok (some ⟨date, c.id⟩)
      | none => .error (.malformed (toString c) .dateOutOfRange) := by
  change (Cursor.readKeyed readKey
    (some (Cursor.joinKey (toString c.date.millis).toList c.id))).map _ = _
  rw [Cursor.readKeyed_joinKey (Text.underscore_notMem_toString _), readKey_millis, millis]
  cases Instant.ofMillis? c.date.millis <;> rfl

/-- If the cursor of a time can be read from its text at all, it is read as itself. -/
theorem parse_toString_ofInstant {t : Instant} {id : String} {read : Option DateCursor}
    (h : parse (some (toString (ofInstant t id))) = .ok read) :
    parse (some (toString (ofInstant t id))) = .ok (some (ofInstant t id)) := by
  have hparse := parse_toString (ofInstant t id)
  rw [millis, ofInstant] at hparse
  cases hmillis : Instant.ofMillis? t.truncate.millis with
  | none =>
      simp only [hmillis] at hparse
      cases hparse.symm.trans h
  | some date =>
      simp only [hmillis, Instant.eq_truncate_of_ofMillis? hmillis] at hparse
      exact hparse

end DateCursor

namespace PriceCursor

theorem underscore_notMem_key (price : Option Decimal) :
    '_' ∉ (price.map Decimal.print).getD [] := by
  cases price with
  | none => exact List.not_mem_nil
  | some price => exact price.underscore_notMem_print

/-- A price is read from its text but for the sign of a zero, and a missing one stays
missing. -/
theorem readKey_print (price : Option Decimal) :
    readKey ((price.map Decimal.print).getD []) =
      .ok (price.map fun d => .ofMagnitude d.negative d.toMagnitude) := by
  cases price with
  | none => rfl
  | some price =>
      change readKey price.print = _
      rw [readKey, if_neg price.print_ne_nil, price.read_print]
      rfl

theorem parse_toString (c : PriceCursor) :
    parse (some (toString c)) =
      .ok (some ⟨c.price.map fun d => .ofMagnitude d.negative d.toMagnitude, c.id⟩) := by
  change (Cursor.readKeyed readKey
    (some (Cursor.joinKey ((c.price.map Decimal.print).getD []) c.id))).map _ = _
  rw [Cursor.readKeyed_joinKey (underscore_notMem_key _), readKey_print]
  rfl

end PriceCursor

namespace SortOrder

open Std

variable {α : Type} [Sortable α]

theorem continuationOf_ne_empty_of_key_ne_id {o : SortOrder} (h : o.key ≠ .id) (row : α) :
    o.continuationOf row ≠ "" := by
  obtain ⟨key, d⟩ := o
  cases key with
  | updated => exact Cursor.joinKey_ne_empty _ _
  | price => exact Cursor.joinKey_ne_empty _ _
  | id => exact absurd rfl h

theorem compareCursors_self (o : SortOrder) (cursor : o.Cursor) :
    o.compareCursors cursor cursor = .eq :=
  ReflCmp.compare_self

theorem restores_updated {d : Direction} {row : α}
    {read : Option (SortOrder.Cursor ⟨.updated, d⟩)}
    (hread : parseCursor ⟨.updated, d⟩ (some (continuationOf ⟨.updated, d⟩ row)) = .ok read) :
    Restores ⟨.updated, d⟩ row :=
  ⟨_, DateCursor.parse_toString_ofInstant hread, compareCursors_self ⟨.updated, d⟩ _⟩

theorem restores_price (d : Direction) (row : α) : Restores ⟨.price, d⟩ row := by
  refine ⟨_, PriceCursor.parse_toString ⟨Sortable.price row, Sortable.id row⟩, ?_⟩
  change comparePrices d ⟨(Sortable.price row).map _, _⟩ ⟨Sortable.price row, _⟩ = .eq
  cases Sortable.price row with
  | none => exact compareCursors_self ⟨.price, d⟩ _
  | some price =>
      have hvalue := price.compare_ofMagnitude
      change (Ordering.then .eq (d.apply ((Ord.compare (Decimal.ofMagnitude _ _) price).then
        (Ord.compare (Sortable.id row) (Sortable.id row))))) = .eq
      rw [hvalue, ReflOrd.compare_self]
      cases d <;> rfl

theorem restores_id {d : Direction} {row : α} (hne : Sortable.id row ≠ "") :
    Restores ⟨.id, d⟩ row := by
  refine ⟨⟨Sortable.id row⟩, ?_, compareCursors_self ⟨.id, d⟩ _⟩
  change IdCursor.parse (some (Sortable.id row)) = _
  rw [IdCursor.parse, if_neg hne]

/-- A row's text that can be read stands for the row, unless it is empty. -/
theorem restores_of_parseCursor {o : SortOrder} {row : α}
    (hne : o.continuationOf row ≠ "") {read : Option o.Cursor}
    (hread : o.parseCursor (some (o.continuationOf row)) = .ok read) : o.Restores row := by
  obtain ⟨key, d⟩ := o
  cases key with
  | updated => exact restores_updated hread
  | price => exact restores_price d row
  | id => exact restores_id hne

end SortOrder

end MergedPaging
