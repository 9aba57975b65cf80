/-
Every cursor survives its text.  Whatever a cursor was made of, and whatever text it
was read from, the text that it prints is read back as an equal cursor; only the sign of
a zero price can get lost on the way.
-/
import MergedPaging.Proofs.CursorText

namespace MergedPaging

namespace Decimal

/-- A zero with a sign, which a negative number was rounded to. -/
def isNegativeZero (d : Decimal) : Bool :=
  d.negative && d.mantissa == 0

/-- Every other number has the sign that its text has. -/
theorem ofMagnitude_eq_self {d : Decimal} (h : d.isNegativeZero = false) :
    ofMagnitude d.negative d.toMagnitude = d := by
  obtain ⟨m, negative⟩ := d
  cases negative with
  | false => rfl
  | true =>
      have hmantissa : m.mantissa ≠ 0 := by simpa [isNegativeZero] using h
      simp [ofMagnitude, hmantissa]

end Decimal

namespace Cursor

variable {κ : Type} {readKey : List Char → Except CursorFault κ}

theorem exists_readKey_of_readKeyed {text : Option String} {value : κ} {id : String}
    (h : readKeyed readKey text = .ok (some (value, id))) : ∃ key, readKey key = .ok value := by
  unfold readKeyed at h
  split at h
  · cases h
  · split at h
    · cases h
    · rename_i key _ _
      split at h
      · rename_i hread
        cases h
        exact ⟨key, hread⟩
      · cases h

end Cursor

namespace DateCursor

/-- A cursor made of milliseconds is read from its text. -/
theorem parse_toString_of_ofMillis? {millis : Int} {id : String} {c : DateCursor}
    (h : ofMillis? millis id = some c) : parse (some (toString c)) = .ok (some c) := by
  obtain ⟨date, hdate, rfl⟩ := Option.map_eq_some_iff.1 h
  have hmillis : Instant.ofMillis? date.millis = some date := by
    rw [Instant.millis_of_ofMillis? hdate, hdate]
  rw [parse_toString, DateCursor.millis, hmillis]

/-- All milliseconds in the range of times make a cursor. -/
theorem exists_ofMillis? {millis : Int} (hlow : -8334601228800000 ≤ millis)
    (hhigh : millis ≤ 8210266876799999) (id : String) :
    ∃ c, ofMillis? millis id = some c ∧ c.millis = millis ∧ c.id = id := by
  cases hdate : Instant.ofMillis? millis with
  | none =>
      have hrange := Instant.ofMillis?_eq_none_iff.1 hdate
      omega
  | some date =>
      refine ⟨⟨date, id⟩, ?_, Instant.millis_of_ofMillis? hdate, rfl⟩
      rw [ofMillis?, hdate, Option.map_some]

theorem ofMillis?_of_readKey {key : List Char} {date : Instant} (h : readKey key = .ok date) :
    ∃ millis, Instant.ofMillis? millis = some date := by
  unfold readKey at h
  split at h
  · cases h
  · rename_i millis _
    split at h
    · rename_i hdate
      cases h
      exact ⟨millis, hdate⟩
    · cases h

/-- What has been read was made of milliseconds. -/
theorem ofMillis?_of_parse {text : Option String} {c : DateCursor}
    (h : parse text = .ok (some c)) : ∃ millis, ofMillis? millis c.id = some c := by
  obtain ⟨date, id⟩ := c
  have hread : Cursor.readKeyed readKey text = .ok (some (date, id)) := by
    unfold parse at h
    rcases hread : Cursor.readKeyed readKey text with fault | _ | read <;> rw [hread] at h <;>
      cases h
    rfl
  obtain ⟨key, hkey⟩ := Cursor.exists_readKey_of_readKeyed hread
  obtain ⟨millis, hdate⟩ := ofMillis?_of_readKey hkey
  exact ⟨millis, by rw [ofMillis?, hdate, Option.map_some]⟩

end DateCursor

namespace PriceCursor

/-- The text of the cursor is read back as an equal cursor of the same scale, and as the
cursor itself unless its price is a zero with a sign. -/
def IsReadBack (c : PriceCursor) : Prop :=
  ∃ read, parse (some (toString c)) = .ok (some read) ∧ (read == c) = true ∧
    read.price.map (·.scale) = c.price.map (·.scale) ∧
      (c.price.any Decimal.isNegativeZero = false → read = c)

theorem isReadBack (c : PriceCursor) : c.IsReadBack := by
  refine ⟨_, c.parse_toString, ?_, ?_, ?_⟩
  · change ((comparePrice (c.price.map _) c.price).then (compare c.id c.id) == .eq) = true
    rw [Std.ReflOrd.compare_self]
    cases c.price with
    | none => rfl
    | some price =>
        change ((compare (Decimal.ofMagnitude price.negative price.toMagnitude) price).then .eq ==
          .eq) = true
        rw [price.compare_ofMagnitude]
        rfl
  · rw [Option.map_map]
    rfl
  · intro hsigned
    obtain ⟨price, id⟩ := c
    cases price with
    | none => rfl
    | some price => simp only [Option.map_some, Decimal.ofMagnitude_eq_self hsigned]

end PriceCursor

namespace IdCursor

theorem parse_toString {c : IdCursor} (hne : c.id ≠ "") :
    parse (some (toString c)) = .ok (some c) := by
  change Except.ok (if c.id = "" then none else some c) = _
  rw [if_neg hne]

theorem id_ne_empty_of_parse {text : Option String} {c : IdCursor}
    (h : parse text = .ok (some c)) : c.id ≠ "" := by
  unfold parse at h
  split at h
  · cases h
  · split at h
    · cases h
    · rename_i hne
      cases h
      exact hne

end IdCursor

/-- Cursors of all three kinds are read back from their text: by time for all milliseconds
in range, by price for all prices, and by id for all ids but the empty one, which stands
for the start.  So what has been read from any text is read again from its own. -/
theorem cursors_read_back :
    (∀ (millis : Int) (id : String), -8334601228800000 ≤ millis → millis ≤ 8210266876799999 →
      ∃ c, DateCursor.ofMillis? millis id = some c ∧ c.millis = millis ∧ c.id = id ∧
        DateCursor.parse (some (toString c)) = .ok (some c)) ∧
    (∀ c : PriceCursor, c.IsReadBack) ∧
    (∀ c : IdCursor, c.id ≠ "" → IdCursor.parse (some (toString c)) = .ok (some c)) ∧
    ∀ text : String,
      (∀ c, DateCursor.parse (some text) = .ok (some c) →
        DateCursor.parse (some (toString c)) = .ok (some c)) ∧
      (∀ c, PriceCursor.parse (some text) = .ok (some c) → c.IsReadBack) ∧
      ∀ c, IdCursor.parse (some text) = .ok (some c) →
        IdCursor.parse (some (toString c)) = .ok (some c) := by
  refine ⟨?_, PriceCursor.isReadBack, fun c => IdCursor.parse_toString, fun text => ⟨?_, ?_, ?_⟩⟩
  · intro millis id hlow hhigh
    obtain ⟨c, hmade, hmillis, hid⟩ := DateCursor.exists_ofMillis? hlow hhigh id
    exact ⟨c, hmade, hmillis, hid, DateCursor.parse_toString_of_ofMillis? hmade⟩
  · intro c hread
    obtain ⟨millis, hmade⟩ := DateCursor.ofMillis?_of_parse hread
    exact DateCursor.parse_toString_of_ofMillis? hmade
  · intro c _
    exact c.isReadBack
  · intro c hread
    exact IdCursor.parse_toString (IdCursor.id_ne_empty_of_parse hread)

namespace Sample

/-- The first moment of the calendar, and a price that is rounded to a zero with a sign, both
beside an id that looks like a key. -/
theorem cursors_read_back_at_limits :
    (∃ c, DateCursor.ofMillis? (-8334601228800000) "5_x" = some c ∧
      c.millis = -8334601228800000 ∧ c.id = "5_x" ∧
        DateCursor.parse (some (toString c)) = .ok (some c)) ∧
    ∃ c, PriceCursor.parse (some "-0.4e-28_5_x") = .ok (some c) ∧
      c.price.any Decimal.isNegativeZero = true ∧ c.IsReadBack := by
  obtain ⟨c, hread, hsigned⟩ : ∃ c, PriceCursor.parse (some "-0.4e-28_5_x") = .ok (some c) ∧
      c.price.any Decimal.isNegativeZero = true := ⟨_, rfl, rfl⟩
  obtain ⟨hdate, -, -, htext⟩ := cursors_read_back
  exact ⟨hdate _ _ (by decide) (by decide), c, hread, hsigned, (htext _).2.1 c hread⟩

end Sample

end MergedPaging
