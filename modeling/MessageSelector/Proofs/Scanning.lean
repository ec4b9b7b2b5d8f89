import MessageSelector.Token.Scanning

/-!
# What scanning makes of a text

The lexemes of a text, told without the places where they stand. `lexemes_cons` cuts the first one
off, `end_only_last` says that nothing but the end of the text is its end, and the words among the
lexemes are what the grammar of words allows.
-/

namespace MessageSelector

namespace Token

/-- The lexemes of a text, of which the last is the end. -/
def lexemes (text : List Char) : List Lexeme :=
  (scan text).map (·.lexeme)

/-- The tokens found before only stand in front. -/
theorem scan_from_found (found : List Token) (position skip : Nat) (text : List Char) :
    scanFrom found position skip text = found.reverse ++ scanFrom [] position skip text := by
  induction text generalizing found position skip with
  | nil => simp [scanFrom]
  | cons c rest ih =>
      cases skip with
      | succ skip => simpa only [scanFrom] using ih found (position + c.utf8Size) skip
      | zero =>
          by_cases hlayout : isLayout c = true
          · simpa only [scanFrom, if_pos hlayout] using ih found (position + c.utf8Size) 0
          · simp only [scanFrom, if_neg hlayout]
            rw [ih (_ :: found), ih [_]]
            simp

/-- Where a text begins does not matter to its lexemes, and characters skipped are as good as
dropped. -/
theorem lexemes_scan_from (position skip : Nat) (text : List Char) :
    (scanFrom [] position skip text).map (·.lexeme) = lexemes (text.drop skip) := by
  have hplace (position other skip : Nat) (text : List Char) :
      (scanFrom [] position skip text).map (·.lexeme) =
        (scanFrom [] other 0 (text.drop skip)).map (·.lexeme) := by
    induction text generalizing position other skip with
    | nil => simp [scanFrom]
    | cons c rest ih =>
        cases skip with
        | succ skip => simpa only [scanFrom, List.drop_succ_cons] using ih _ other skip
        | zero =>
            simp only [List.drop_zero]
            by_cases hlayout : isLayout c = true
            · simp only [scanFrom, if_pos hlayout]
              exact (ih _ 0 0).trans (ih _ 0 0).symm
            · simp only [scanFrom, if_neg hlayout]
              rw [scan_from_found [_], scan_from_found [_]]
              simp only [List.reverse_cons, List.reverse_nil, List.nil_append, List.map_cons,
                List.cons_append, List.cons.injEq, true_and]
              exact (ih _ 0 _).trans (ih _ 0 _).symm
  exact hplace position 0 skip text

/-- Layout separates lexemes and is none. -/
theorem lexemes_layout {c : Char} (h : isLayout c = true) (rest : List Char) :
    lexemes (c :: rest) = lexemes rest := by
  change (scanFrom [] 0 0 (c :: rest)).map (·.lexeme) = _
  rw [scanFrom, if_pos h, lexemes_scan_from, List.drop_zero]

/-- The first lexeme of a text, and then those of what it leaves. -/
theorem lexemes_cons {c : Char} (h : isLayout c = false) (rest : List Char) :
    lexemes (c :: rest) =
      (Lexeme.atFront c rest).1 :: lexemes (rest.drop (Lexeme.atFront c rest).2) := by
  change (scanFrom [] 0 0 (c :: rest)).map (·.lexeme) = _
  simp only [scanFrom, h, Bool.false_eq_true, if_false]
  rw [scan_from_found, List.map_append, lexemes_scan_from]
  rfl

/-- A text is scanned to lexemes that stand at the front of something, and then to the end. -/
theorem lexemes_front (text : List Char) :
    ∃ before, lexemes text = before ++ [.endOfText] ∧
      ∀ lexeme ∈ before, ∃ c rest, isLayout c = false ∧ lexeme = (Lexeme.atFront c rest).1 := by
  -- A lexeme takes any number of characters, so the induction is on the length of the text.
  generalize hlength : text.length = length
  induction length using Nat.strongRecOn generalizing text with
  | _ length ih =>
      cases text with
      | nil => exact ⟨[], rfl, nofun⟩
      | cons c rest =>
          simp only [List.length_cons] at hlength
          by_cases hlayout : isLayout c = true
          · rw [lexemes_layout hlayout]
            exact ih rest.length (by omega) rest rfl
          · rw [Bool.not_eq_true] at hlayout
            rw [lexemes_cons hlayout]
            obtain ⟨before, hbefore, hfront⟩ := ih _ (by simp only [List.length_drop]; omega)
              (rest.drop (Lexeme.atFront c rest).2) rfl
            refine ⟨(Lexeme.atFront c rest).1 :: before, by rw [hbefore]; rfl, ?_⟩
            intro lexeme hmem
            rcases List.mem_cons.mp hmem with rfl | hmem
            · exact ⟨c, rest, hlayout, rfl⟩
            · exact hfront lexeme hmem

end Token

/-- A token of a known lexeme is known up to its place. -/
theorem eq_token_cons {tokens : List Token} {lexeme : Lexeme} {ls : List Lexeme}
    (h : tokens.map (·.lexeme) = lexeme :: ls) :
    ∃ span rest, tokens = ⟨lexeme, span⟩ :: rest ∧ rest.map (·.lexeme) = ls := by
  obtain ⟨⟨_, span⟩, rest, rfl, rfl, hrest⟩ := List.map_eq_cons_iff.mp h
  exact ⟨span, rest, rfl, hrest⟩

/-- A single token of a known lexeme is known up to its place. -/
theorem eq_token_singleton {tokens : List Token} {lexeme : Lexeme}
    (h : tokens.map (·.lexeme) = [lexeme]) : ∃ span, tokens = [⟨lexeme, span⟩] := by
  obtain ⟨span, rest, rfl, hrest⟩ := eq_token_cons h
  rw [List.map_eq_nil_iff] at hrest
  exact ⟨span, by rw [hrest]⟩

/-- A text with known lexemes is scanned to tokens that have them, and its end. -/
theorem Token.scan_of_lexemes {text : List Char} {ls : List Lexeme}
    (h : lexemes text = ls ++ [.endOfText]) :
    ∃ tokens stop, scan text = tokens ++ [⟨.endOfText, stop⟩] ∧ tokens.map (·.lexeme) = ls := by
  obtain ⟨tokens, rest, htokens, hls, hrest⟩ := List.map_eq_append_iff.mp h
  obtain ⟨stop, rfl⟩ := eq_token_singleton hrest
  exact ⟨tokens, stop, htokens, hls⟩

/-! ## Words -/

/-- The eleven words that are no identifiers, in lower case. -/
def reservedWords : List String :=
  ["not", "and", "or", "between", "like", "in", "is", "null", "escape", "true", "false"]

/-- A word that names a header or property: it begins and goes on as words do, and is not reserved
in any ASCII case. -/
def IsIdentifier (name : String) : Prop :=
  (∃ first rest, name.toList = first :: rest ∧ isWordStart first = true ∧
    rest.all isWordChar = true) ∧ name.toLower ∉ reservedWords

/-- A digit is no letter. -/
theorem not_alpha_of_digit {c : Char} (h : c.isDigit = true) : c.isAlpha = false := by
  have hall : ∀ n < 128, (Char.ofNat n).isDigit = true → (Char.ofNat n).isAlpha = false := by
    decide
  have hascii := Nat.lt_of_le_of_lt (Char.isDigit_iff_toNat.mp h).2 (show 57 < 128 by decide)
  rw [← Char.ofNat_toNat c] at h ⊢
  exact hall c.toNat hascii h

/-- What is of a kind that no layout is of is no layout. -/
theorem not_layout_of_kind {kind : Char → Bool}
    (hkind : [' ', '\t', '\n', '\x0c', '\r'].any kind = false) {c : Char} (h : kind c = true) :
    isLayout c = false := by
  cases hlayout : isLayout c with
  | false => rfl
  | true =>
      simp only [isLayout, Bool.or_eq_true, decide_eq_true_eq] at hlayout
      rw [List.any_eq_false] at hkind
      rcases hlayout with (((rfl | rfl) | rfl) | rfl) | rfl <;> exact absurd h (hkind _ (by simp))

namespace Lexeme

/-- What begins with a digit is a number. -/
theorem at_front_digit {c : Char} (h : c.isDigit = true) (rest : List Char) :
    isLayout c = false ∧ atFront c rest = numberAt c rest := by
  have hrange := Char.isDigit_iff_toNat.mp h
  have hlayout : isLayout c = false := not_layout_of_kind (by decide) h
  have hword : isWordStart c = false := by
    have hascii : c.toNat < 0x80 := Nat.lt_of_le_of_lt hrange.2 (by decide)
    have halpha := not_alpha_of_digit h
    have hmark : c ≠ '_' ∧ c ≠ '$' := by
      constructor <;> rintro rfl <;> exact absurd h (by decide)
    simp [isWordStart, Text.isAlphabetic, hascii, halpha, hmark.1, hmark.2]
  have hquote : c ≠ '\'' := by
    rintro rfl
    exact absurd h (by decide)
  refine ⟨hlayout, ?_⟩
  unfold atFront
  rw [hword, h]
  simp [hquote]

/-- A word is an identifier unless it is reserved. -/
theorem of_word_eq_identifier (word name : String) :
    ofWord word = identifier name ↔ word = name ∧ word.toLower ∉ reservedWords := by
  unfold ofWord
  split <;> simp_all [reservedWords]

/-- Only words are identifiers. What begins as no word is none, and is not the end either. -/
theorem at_front_of_not_word_start {c : Char} (h : isWordStart c = false) (rest : List Char) :
    (∀ name, (atFront c rest).1 ≠ identifier name) ∧ (atFront c rest).1 ≠ endOfText := by
  unfold atFront
  rw [if_neg (by simp [h])]
  split
  · unfold stringAt
    split <;> simp
  · split
    · unfold numberAt
      split
      · simp
      · split <;> simp
    · unfold symbolAt
      split <;> simp

/-- An identifier at the front of a text is one by the grammar of words. -/
theorem is_identifier_of_at_front {c : Char} {rest : List Char} {name : String}
    (h : (atFront c rest).1 = identifier name) : IsIdentifier name := by
  cases hstart : isWordStart c with
  | false => exact absurd h ((at_front_of_not_word_start hstart rest).1 name)
  | true =>
      unfold atFront at h
      rw [if_pos hstart] at h
      obtain ⟨rfl, hreserved⟩ := (of_word_eq_identifier _ _).mp h
      exact ⟨⟨c, rest.takeWhile isWordChar, String.toList_ofList, hstart, List.all_takeWhile⟩,
        hreserved⟩

/-- No text begins with its end. -/
theorem at_front_ne_end_of_text (c : Char) (rest : List Char) :
    (atFront c rest).1 ≠ endOfText := by
  cases hstart : isWordStart c with
  | false => exact (at_front_of_not_word_start hstart rest).2
  | true =>
      unfold atFront wordAt ofWord
      rw [if_pos hstart]
      dsimp only
      split <;> simp

end Lexeme

namespace Token

/-- Nothing follows the end of a text. -/
theorem eq_nil_of_scan_end {text : List Char} {before rest : List Token} {stop : Span}
    (h : scan text = before ++ ⟨.endOfText, stop⟩ :: rest) : rest = [] := by
  obtain ⟨front, hfront, hmem⟩ := lexemes_front text
  unfold lexemes at hfront
  rw [h, List.map_append, List.map_cons] at hfront
  rcases List.eq_nil_or_concat rest with hnil | ⟨init, last, rfl⟩
  · exact hnil
  · rw [List.concat_eq_append, List.map_append, List.map_singleton, ← List.cons_append,
      ← List.append_assoc] at hfront
    obtain ⟨rfl, -⟩ := List.append_inj' hfront rfl
    obtain ⟨c, following, -, hend⟩ := hmem .endOfText (by simp)
    exact absurd hend.symm (Lexeme.at_front_ne_end_of_text c following)

/-- What another token follows is not the end. -/
theorem ne_end_of_followed {text : List Char} {before following : List Token} {token next : Token}
    (h : scan text = before ++ token :: next :: following) : token.lexeme ≠ .endOfText := by
  intro hend
  obtain ⟨lexeme, span⟩ := token
  obtain rfl : lexeme = .endOfText := hend
  cases eq_nil_of_scan_end h

/-- No token in front of the last one is the end. -/
theorem ne_end_of_mem {text : List Char} {tokens : List Token} {token last : Token}
    (h : scan text = tokens ++ [last]) (hmem : token ∈ tokens) : token.lexeme ≠ .endOfText := by
  obtain ⟨before, following, rfl⟩ := List.append_of_mem hmem
  rw [List.append_assoc, List.cons_append] at h
  obtain ⟨next, more, hmore⟩ := List.exists_cons_of_ne_nil
    (List.append_ne_nil_of_right_ne_nil following (List.cons_ne_nil last []))
  rw [hmore] at h
  exact ne_end_of_followed h

/-- The identifiers among the tokens of a text are well formed. -/
theorem is_identifier_of_scan {text : List Char} {token : Token} {name : String}
    (hmem : token ∈ scan text) (h : token.lexeme = .identifier name) : IsIdentifier name := by
  obtain ⟨front, hfront, hatFront⟩ := lexemes_front text
  have hlexeme : token.lexeme ∈ lexemes text := List.mem_map_of_mem hmem
  rw [h, hfront, List.mem_append] at hlexeme
  rcases hlexeme with hlexeme | hlexeme
  · obtain ⟨c, rest, -, hname⟩ := hatFront _ hlexeme
    exact Lexeme.is_identifier_of_at_front hname.symm
  · cases List.mem_singleton.mp hlexeme

end Token

end MessageSelector
