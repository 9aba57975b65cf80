/-
Strings are read back from what is written.  The writer picks one of the forms of a string by
what the text holds, and whichever it picks, the reader finds the text and stops behind it: the
quotes at the end of a long string belong to the text, as long as none follows the string.
-/
import MergedPaging.Toml.Quoted

namespace MergedPaging.Toml

open Text

/-- What follows a string does not start with a quote. -/
structure Unquoted (rest : List Char) : Prop where
  double : rest.head? ≠ some '"'
  single : rest.head? ≠ some '\x27'

section Close

variable {quote : Char} {rest : List Char}

theorem close_append {count : Nat} (hcount : count ≤ 2) (hrest : rest.head? ≠ some quote) :
    close quote (List.replicate count quote ++ rest) = (List.replicate count quote, rest) := by
  have htake : (List.replicate count quote ++ rest).takeWhile (· = quote) =
      List.replicate count quote := by
    rw [List.takeWhile_append_of_pos (by simp)]
    cases rest with
    | nil => simp
    | cons c rest =>
        have hc : ¬ c = quote := fun h => hrest (by simp [h])
        simp [hc]
  have hall : (List.replicate count quote).take 2 = List.replicate count quote := by
    rw [List.take_replicate, Nat.min_eq_right hcount]
  simp only [close, htake, hall, List.drop_left]

theorem isPrefixOf_of_fst_ne {a : Char} (h : a ≠ quote) (rest : List Char) :
    [quote, quote].isPrefixOf (a :: rest) = false := by
  simp [List.isPrefixOf, Ne.symm h]

theorem isPrefixOf_of_snd_ne {b : Char} (h : b ≠ quote) (a : Char) (rest : List Char) :
    [quote, quote].isPrefixOf (a :: b :: rest) = false := by
  simp [List.isPrefixOf, Ne.symm h]

end Close

section Escape

variable {c : Char} {long : Bool}

theorem charOfCode_toNat (c : Char) : charOfCode c.toNat = some c := by
  have hvalid : c.toNat.isValidChar := c.valid
  rw [charOfCode, dif_pos hvalid]
  rfl

theorem hexValue_toUpper_digitChar : ∀ d < 16, hexValue (Nat.digitChar d).toUpper = some d := by
  decide

/-- Two digits make up a character that needs an escape. -/
theorem toNat_lt_of_isControl (h : isControl c = true) : c.toNat < 128 := by
  simp only [isControl, isPlain, Bool.and_eq_true, Bool.not_eq_true', Bool.or_eq_false_iff,
    Bool.and_eq_false_iff, decide_eq_false_iff_not, bne_eq_false_iff_eq] at h
  omega

theorem readBasic_code (h : isControl c = true) (rest : List Char) :
    readBasic long .escape ('u' :: '0' :: '0' :: (Nat.digitChar (c.toNat / 16)).toUpper ::
      (Nat.digitChar (c.toNat % 16)).toUpper :: rest) =
        emit c (readBasic long (.text false) rest) := by
  have hlt := toNat_lt_of_isControl h
  have hhigh := hexValue_toUpper_digitChar (c.toNat / 16) (by omega)
  have hlow := hexValue_toUpper_digitChar (c.toNat % 16) (by omega)
  have hcode : charOfCode (16 * (c.toNat / 16) + c.toNat % 16) = some c := by
    rw [Nat.div_add_mod, charOfCode_toNat]
  have hzero : hexValue '0' = some 0 := by decide
  simp [readBasic, hzero, hhigh, hlow, hcode]

/-- A character is read back from how it is written. -/
theorem readBasic_escape (hquote : c ≠ '"') (rest : List Char) :
    readBasic long (.text false) (escape long c ++ rest) =
      emit c (readBasic long (.text false) rest) := by
  by_cases hslash : c = '\\'
  · rw [hslash]
    cases long <;> rfl
  by_cases hbackspace : c = '\x08'
  · rw [hbackspace]
    cases long <;> rfl
  by_cases htab : c = '\t'
  · rw [htab]
    cases long <;> rfl
  by_cases hline : c = '\n'
  · rw [hline]
    cases long <;> rfl
  by_cases hfeed : c = '\x0c'
  · rw [hfeed]
    cases long <;> rfl
  by_cases hreturn : c = '\r'
  · rw [hreturn]
    cases long <;> rfl
  simp only [escape, hslash, hbackspace, htab, hline, hfeed, hreturn, if_false]
  by_cases hcontrol : isControl c = true
  · rw [if_pos hcontrol]
    exact readBasic_code hcontrol rest
  · have hplain : isPlain c = true := by
      simpa [isControl, hline] using hcontrol
    rw [if_neg hcontrol]
    simp [readBasic, hquote, hslash, hplain]

/-- A character is written as itself or behind a backslash. -/
theorem escape_eq (long : Bool) (c : Char) :
    escape long c = [c] ∨ ∃ code, escape long c = '\\' :: code := by
  unfold escape
  repeat' split
  all_goals simp [*]

theorem isControl_toUpper_digitChar :
    ∀ d < 16, isControl (Nat.digitChar d).toUpper = false := by
  decide

/-- No character is written as one that needs an escape. -/
theorem isControl_of_mem_escape : ∀ d ∈ escape long c, isControl d = false := by
  unfold escape
  repeat' split
  any_goals
    simp only [List.mem_cons, List.not_mem_nil, or_false, forall_eq_or_imp, forall_eq]
    decide
  · rename_i hcontrol
    have hlt := toNat_lt_of_isControl hcontrol
    have hhigh := isControl_toUpper_digitChar (c.toNat / 16) (by omega)
    have hlow := isControl_toUpper_digitChar (c.toNat % 16) (by omega)
    simp only [List.mem_cons, List.not_mem_nil, or_false, forall_eq_or_imp, forall_eq, hhigh, hlow]
    decide
  · rename_i hplain
    simpa using hplain

end Escape

section Encode

variable {long : Bool} {quotes : Nat} {c : Char}

theorem encode_standing (hroom : quotes < 2) (text : List Char) :
    encode true quotes ('"' :: text) = '"' :: encode true (quotes + 1) text := by
  simp [encode, hroom]

theorem encode_escaped (hfull : long = true → 2 ≤ quotes) (text : List Char) :
    encode long quotes ('"' :: text) = '\\' :: '"' :: encode long 0 text := by
  cases long with
  | false => simp [encode]
  | true =>
      have hroom : ¬ quotes < 2 := Nat.not_lt.2 (hfull rfl)
      simp [encode, hroom]

theorem encode_cons (hquote : c ≠ '"') (text : List Char) :
    encode long quotes (c :: text) = escape long c ++ encode long 0 text := by
  simp [encode, hquote]

/-- A text is not written as if it started with a quote, unless that may stand as it is. -/
theorem exists_encode_eq_cons (hfull : c = '"' → long = true → 2 ≤ quotes) (text : List Char) :
    ∃ d ds, encode long quotes (c :: text) = d :: ds ∧ d ≠ '"' := by
  by_cases hquote : c = '"'
  · rw [hquote, encode_escaped (hfull hquote)]
    exact ⟨_, _, rfl, by decide⟩
  · rw [encode_cons hquote]
    rcases escape_eq long c with hescape | ⟨code, hescape⟩
    · rw [hescape]
      exact ⟨_, _, rfl, hquote⟩
    · rw [hescape]
      exact ⟨_, _, rfl, by decide⟩

/-- Behind a quote that stands as it is, there are not two more, unless the text ends before
there could be. -/
theorem encode_ends (hone : 1 ≤ quotes) (text : List Char) :
    text = [] ∨ (text = ['"'] ∧ quotes = 1) ∨
      ∀ rest, ['"', '"'].isPrefixOf (encode true quotes text ++ rest) = false := by
  cases text with
  | nil => exact Or.inl rfl
  | cons c text =>
      by_cases hstands : c = '"' ∧ quotes = 1
      · obtain ⟨rfl, rfl⟩ := hstands
        cases text with
        | nil => exact Or.inr (Or.inl ⟨rfl, rfl⟩)
        | cons c text =>
            obtain ⟨d, ds, hencode, hd⟩ :
                ∃ d ds, encode true 2 (c :: text) = d :: ds ∧ d ≠ '"' :=
              exists_encode_eq_cons (fun _ _ => Nat.le_refl 2) text
            refine Or.inr (Or.inr fun rest => ?_)
            rw [encode_standing (by decide), hencode]
            exact isPrefixOf_of_snd_ne hd _ _
      · obtain ⟨d, ds, hencode, hd⟩ : ∃ d ds, encode true quotes (c :: text) = d :: ds ∧ d ≠ '"' :=
          exists_encode_eq_cons (fun hquote _ => by have := not_and.1 hstands hquote; omega) text
        refine Or.inr (Or.inr fun rest => ?_)
        rw [hencode]
        exact isPrefixOf_of_fst_ne hd _

theorem isControl_of_mem_encode (text : List Char) :
    ∀ d ∈ encode long quotes text, isControl d = false := by
  induction text generalizing quotes with
  | nil => simp [encode]
  | cons c text ih =>
      by_cases hquote : c = '"'
      · have hdouble : isControl '"' = false := by decide
        have hslash : isControl '\\' = false := by decide
        simp only [hquote, encode, ↓reduceIte]
        split
        · exact List.forall_mem_cons.2 ⟨hdouble, ih⟩
        · exact List.forall_mem_cons.2 ⟨hslash, List.forall_mem_cons.2 ⟨hdouble, ih⟩⟩
      · rw [encode_cons hquote]
        exact List.forall_mem_append.2 ⟨isControl_of_mem_escape, ih⟩

/-- A text without line ends is not written as if it started with one. -/
theorem head?_encode_ne {text : List Char} (hline : '\n' ∉ text) :
    (encode long quotes text).head? ≠ some '\n' := by
  cases text with
  | nil => simp [encode]
  | cons c text =>
      by_cases hquote : c = '"'
      · simp only [hquote, encode, ↓reduceIte]
        split
        · simp
        · simp
      · rw [encode_cons hquote]
        rcases escape_eq long c with hescape | ⟨code, hescape⟩
        · simp only [List.mem_cons, not_or] at hline
          simpa [hescape] using Ne.symm hline.1
        · simp [hescape]

end Encode

section Basic

variable {rest : List Char}

theorem readBasic_escaped_quote (long : Bool) (rest : List Char) :
    readBasic long (.text false) ('\\' :: '"' :: rest) =
      emit '"' (readBasic long (.text false) rest) := by
  cases long <;> rfl

/-- A quote behind which there are not two more belongs to the text. -/
theorem readBasic_quote (h : ['"', '"'].isPrefixOf rest = false) :
    readBasic true (.text false) ('"' :: rest) = emit '"' (readBasic true (.text false) rest) := by
  simp [readBasic, h]

theorem readBasic_close {count : Nat} (hcount : count ≤ 2) (hrest : rest.head? ≠ some '"') :
    readBasic true (.text false) ('"' :: '"' :: '"' :: (List.replicate count '"' ++ rest)) =
      some (List.replicate count '"', rest) := by
  have hclose := close_append hcount hrest
  simpa [readBasic] using hclose

theorem readBasic_short (text rest : List Char) :
    readBasic false (.text false) (encode false 0 text ++ '"' :: rest) = some (text, rest) := by
  induction text with
  | nil => rfl
  | cons c text ih =>
      by_cases hquote : c = '"'
      · rw [hquote, encode_escaped (by simp), List.cons_append, List.cons_append,
          readBasic_escaped_quote, ih]
        rfl
      · rw [encode_cons hquote, List.append_assoc, readBasic_escape hquote, ih]
        rfl

theorem readBasic_long (hrest : rest.head? ≠ some '"') {quotes : Nat} (hquotes : quotes ≤ 2)
    (text : List Char) :
    readBasic true (.text false) (encode true quotes text ++ '"' :: '"' :: '"' :: rest) =
      some (text, rest) := by
  induction text generalizing quotes with
  | nil => exact readBasic_close (Nat.zero_le 2) hrest
  | cons c text ih =>
      by_cases hquote : c = '"'
      · subst hquote
        by_cases hroom : quotes < 2
        · rw [encode_standing hroom, List.cons_append]
          rcases encode_ends (Nat.le_add_left 1 quotes) text with rfl | ⟨rfl, hquotes⟩ | hends
          · exact readBasic_close (by decide : 1 ≤ 2) hrest
          · rw [hquotes, encode_standing (by decide)]
            exact readBasic_close (by decide : 2 ≤ 2) hrest
          · rw [readBasic_quote (hends _), ih (by omega)]
            rfl
        · rw [encode_escaped (fun _ => by omega), List.cons_append, List.cons_append,
            readBasic_escaped_quote, ih (by omega)]
          rfl
      · rw [encode_cons hquote, List.append_assoc, readBasic_escape hquote, ih (by omega)]
        rfl

end Basic

section Literal

variable {rest : List Char}

theorem readLiteral_cons {long : Bool} {c : Char} (hquote : c ≠ '\x27')
    (hline : long = false → c ≠ '\n') (hcontrol : isControl c = false) (rest : List Char) :
    readLiteral long (c :: rest) = emit c (readLiteral long rest) := by
  have hplain : isPlain c = true ∨ long = true ∧ c = '\n' := by
    by_cases hc : c = '\n'
    · cases long with
      | false => exact absurd hc (hline rfl)
      | true => exact Or.inr ⟨rfl, hc⟩
    · exact Or.inl (by simpa [isControl, hc] using hcontrol)
  simp [readLiteral, hquote, hplain]

theorem readLiteral_quote (h : ['\x27', '\x27'].isPrefixOf rest = false) :
    readLiteral true ('\x27' :: rest) = emit '\x27' (readLiteral true rest) := by
  simp [readLiteral, h]

theorem readLiteral_close {count : Nat} (hcount : count ≤ 2) (hrest : rest.head? ≠ some '\x27') :
    readLiteral true ('\x27' :: '\x27' :: '\x27' :: (List.replicate count '\x27' ++ rest)) =
      some (List.replicate count '\x27', rest) := by
  have hclose := close_append hcount hrest
  simpa [readLiteral] using hclose

theorem hasTriple_of_cons {quote c : Char} {text : List Char}
    (h : hasTriple quote (c :: text) = false) : hasTriple quote text = false := by
  rcases text with _ | ⟨a, _ | ⟨b, text⟩⟩
  · rfl
  · rfl
  · exact (Bool.or_eq_false_iff.1 h).2

/-- In a text without three quotes in a row, there are not two behind a quote, unless the text
ends before there could be. -/
theorem hasTriple_ends {quote : Char} {text : List Char}
    (h : hasTriple quote (quote :: text) = false) :
    text = [] ∨ text = [quote] ∨ ∀ rest, [quote, quote].isPrefixOf (text ++ rest) = false := by
  rcases text with _ | ⟨a, _ | ⟨b, text⟩⟩
  · exact Or.inl rfl
  · by_cases ha : a = quote
    · exact Or.inr (Or.inl (by rw [ha]))
    · exact Or.inr (Or.inr fun rest => isPrefixOf_of_fst_ne ha _)
  · have hpair : ¬ (a = quote ∧ b = quote) := by
      simpa [hasTriple] using (Bool.or_eq_false_iff.1 h).1
    refine Or.inr (Or.inr fun rest => ?_)
    by_cases ha : a = quote
    · have hb : b ≠ quote := fun hb => hpair ⟨ha, hb⟩
      exact isPrefixOf_of_snd_ne hb _ _
    · exact isPrefixOf_of_fst_ne ha _

theorem readLiteral_short {text : List Char} (hquote : '\x27' ∉ text) (hline : '\n' ∉ text)
    (hcontrol : ∀ c ∈ text, isControl c = false) (rest : List Char) :
    readLiteral false (text ++ '\x27' :: rest) = some (text, rest) := by
  induction text with
  | nil => rfl
  | cons c text ih =>
      simp only [List.mem_cons, not_or, forall_eq_or_imp] at hquote hline hcontrol
      rw [List.cons_append, readLiteral_cons (Ne.symm hquote.1) (fun _ => Ne.symm hline.1)
        hcontrol.1, ih hquote.2 hline.2 hcontrol.2]
      rfl

theorem readLiteral_long (hrest : rest.head? ≠ some '\x27') {text : List Char}
    (htriple : hasTriple '\x27' text = false) (hcontrol : ∀ c ∈ text, isControl c = false) :
    readLiteral true (text ++ '\x27' :: '\x27' :: '\x27' :: rest) = some (text, rest) := by
  induction text with
  | nil => exact readLiteral_close (Nat.zero_le 2) hrest
  | cons c text ih =>
      obtain ⟨hc, htext⟩ := List.forall_mem_cons.1 hcontrol
      have hread := ih (hasTriple_of_cons htriple) htext
      by_cases hquote : c = '\x27'
      · subst hquote
        rcases hasTriple_ends htriple with rfl | rfl | hends
        · exact readLiteral_close (by decide : 1 ≤ 2) hrest
        · exact readLiteral_close (by decide : 2 ≤ 2) hrest
        · rw [List.cons_append, readLiteral_quote (hends _), hread]
          rfl
      · rw [List.cons_append, readLiteral_cons hquote (by simp) hc, hread]
        rfl

end Literal

section Quoted

variable {text rest : List Char}

theorem readQuoted_of_ne (hdouble : ∀ more, text ≠ '"' :: '"' :: '"' :: more)
    (hsingle : ∀ more, text ≠ '\x27' :: '\x27' :: '\x27' :: more) :
    readQuoted text = readShort text := by
  unfold readQuoted
  split
  · exact absurd rfl (hdouble _)
  · exact absurd rfl (hsingle _)
  · rfl

/-- The line end that a text of several lines is written behind is dropped. -/
theorem dropLineEnd_append {lines : Bool} (h : lines = false → text.head? ≠ some '\n') :
    dropLineEnd ((if lines then ['\n'] else []) ++ text) = text := by
  cases lines with
  | true => rfl
  | false =>
      have hhead := h rfl
      change dropLineEnd text = text
      unfold dropLineEnd
      split
      · simp at hhead
      · rfl

theorem head?_append_ne {quote : Char} (hquote : quote ≠ '\n') (h : text.head? ≠ some '\n') :
    (text ++ quote :: rest).head? ≠ some '\n' := by
  cases text with
  | nil => simpa using hquote
  | cons c text => simpa using h

theorem readQuoted_writeBasic (hrest : rest.head? ≠ some '"') (long : Bool) (text : List Char) :
    readQuoted (writeBasic long (text.contains '\n') text ++ rest) = some (text, rest) := by
  cases long with
  | false =>
      have hform : writeBasic false (text.contains '\n') text ++ rest =
          '"' :: (encode false 0 text ++ '"' :: rest) := by
        simp [writeBasic]
      rw [hform, readQuoted_of_ne _ (by simp)]
      · exact readBasic_short text rest
      · intro more heq
        cases text with
        | nil => simp_all [encode]
        | cons c text =>
            obtain ⟨d, ds, hencode, hd⟩ : ∃ d ds, encode false 0 (c :: text) = d :: ds ∧ d ≠ '"' :=
              exists_encode_eq_cons (by simp) text
            rw [hencode] at heq
            simp_all
  | true =>
      have hform : writeBasic true (text.contains '\n') text ++ rest =
          '"' :: '"' :: '"' :: ((if text.contains '\n' then ['\n'] else []) ++
            (encode true 0 text ++ '"' :: '"' :: '"' :: rest)) := by
        simp [writeBasic, quoteLong]
      rw [hform]
      change readBasic true (.text false) (dropLineEnd _) = _
      rw [dropLineEnd_append]
      · exact readBasic_long hrest (Nat.zero_le 2) text
      · intro hlines
        exact head?_append_ne (by decide) (head?_encode_ne (by simpa using hlines))

theorem readQuoted_writeLiteral_short (hrest : rest.head? ≠ some '\x27') (hquote : '\x27' ∉ text)
    (hline : '\n' ∉ text) (hcontrol : ∀ c ∈ text, isControl c = false) (lines : Bool) :
    readQuoted (writeLiteral false lines text ++ rest) = some (text, rest) := by
  have hform : writeLiteral false lines text ++ rest = '\x27' :: (text ++ '\x27' :: rest) := by
    simp [writeLiteral]
  rw [hform, readQuoted_of_ne (by simp)]
  · exact readLiteral_short hquote hline hcontrol rest
  · intro more heq
    cases text with
    | nil => simp_all
    | cons c text => simp_all

theorem readQuoted_writeLiteral_long (hrest : rest.head? ≠ some '\x27')
    (htriple : hasTriple '\x27' text = false) (hcontrol : ∀ c ∈ text, isControl c = false) :
    readQuoted (writeLiteral true (text.contains '\n') text ++ rest) = some (text, rest) := by
  have hform : writeLiteral true (text.contains '\n') text ++ rest =
      '\x27' :: '\x27' :: '\x27' :: ((if text.contains '\n' then ['\n'] else []) ++
        (text ++ '\x27' :: '\x27' :: '\x27' :: rest)) := by
    simp [writeLiteral, quoteLong]
  rw [hform]
  change readLiteral true (dropLineEnd _) = _
  rw [dropLineEnd_append]
  · exact readLiteral_long hrest htriple hcontrol
  · intro hlines
    apply head?_append_ne (by decide)
    have hline : '\n' ∉ text := by simpa using hlines
    exact fun hhead => hline (List.mem_of_mem_head? hhead)

/-- Whatever the form, the text that is written is read, up to the end of the string. -/
theorem readQuoted_writeQuoted (hrest : Unquoted rest) (text : List Char) :
    readQuoted (writeQuoted text ++ rest) = some (text, rest) := by
  unfold writeQuoted
  simp only []
  split
  · exact readQuoted_writeBasic hrest.double false text
  split
  · rename_i h
    obtain ⟨⟨hquote, hcontrol⟩, hline⟩ :
        ('\x27' ∉ text ∧ ∀ c ∈ text, isControl c = false) ∧ '\n' ∉ text := by simpa using h
    exact readQuoted_writeLiteral_short hrest.single hquote hline hcontrol _
  split
  · exact readQuoted_writeBasic hrest.double true text
  split
  · rename_i h
    obtain ⟨hcontrol, htriple⟩ :
        (∀ c ∈ text, isControl c = false) ∧ hasTriple '\x27' text = false := by simpa using h
    exact readQuoted_writeLiteral_long hrest.single htriple hcontrol
  · exact readQuoted_writeBasic hrest.double _ text

-- With both kinds of quotes in it, and a line end.
example :
    readQuoted (writeQuoted ['\x27', '"', '\n'] ++ [']']) =
      some (['\x27', '"', '\n'], [']']) := by
  decide

/-- A text between quotes holds no more characters that need an escape than the text. -/
theorem isControl_of_mem_quoteLong {quote : Char} (hquote : isControl quote = false)
    (htext : ∀ c ∈ text, isControl c = false) (lines : Bool) :
    ∀ c ∈ quoteLong quote lines text, isControl c = false := by
  have hquotes : ∀ c ∈ [quote, quote, quote], isControl c = false := by simp [hquote]
  have hline : ∀ c ∈ (if lines then ['\n'] else []), isControl c = false := by
    cases lines with
    | false => exact List.forall_mem_nil _
    | true => exact List.forall_mem_singleton.2 (by decide)
  unfold quoteLong
  simp only [List.forall_mem_append]
  exact ⟨⟨⟨hquotes, hline⟩, htext⟩, hquotes⟩

theorem isControl_of_mem_writeBasic (long lines : Bool) (text : List Char) :
    ∀ c ∈ writeBasic long lines text, isControl c = false := by
  have hquote : isControl '"' = false := by decide
  cases long with
  | false =>
      change ∀ c ∈ '"' :: encode false 0 text ++ ['"'], isControl c = false
      simp only [List.forall_mem_append, List.forall_mem_cons]
      exact ⟨⟨hquote, isControl_of_mem_encode text⟩, hquote, by simp⟩
  | true => exact isControl_of_mem_quoteLong hquote (isControl_of_mem_encode text) lines

theorem isControl_of_mem_writeLiteral (long lines : Bool)
    (htext : ∀ c ∈ text, isControl c = false) :
    ∀ c ∈ writeLiteral long lines text, isControl c = false := by
  have hquote : isControl '\x27' = false := by decide
  cases long with
  | false =>
      change ∀ c ∈ '\x27' :: text ++ ['\x27'], isControl c = false
      simp only [List.forall_mem_append, List.forall_mem_cons]
      exact ⟨⟨hquote, htext⟩, hquote, by simp⟩
  | true => exact isControl_of_mem_quoteLong hquote htext lines

/-- What is written of a string needs no escape any more. -/
theorem isControl_of_mem_writeQuoted (text : List Char) :
    ∀ c ∈ writeQuoted text, isControl c = false := by
  unfold writeQuoted
  simp only []
  split
  · exact isControl_of_mem_writeBasic _ _ text
  split
  · rename_i h
    have hcontrol : ∀ c ∈ text, isControl c = false := by simp_all
    exact isControl_of_mem_writeLiteral _ _ hcontrol
  split
  · exact isControl_of_mem_writeBasic _ _ text
  split
  · rename_i h
    have hcontrol : ∀ c ∈ text, isControl c = false := by simp_all
    exact isControl_of_mem_writeLiteral _ _ hcontrol
  · exact isControl_of_mem_writeBasic _ _ text

end Quoted

end MergedPaging.Toml
