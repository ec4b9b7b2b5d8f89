import MessageSelector.Proofs.Lexical.Numbers
import MessageSelector.Proofs.Nesting.Marks

/-!
# The depth of a number

A number is several marks where it has a point or a signed exponent. The sign in it comes right
after a letter, so it is not in front of an operand, and all the marks of a number together leave
the levels around it as they are.
-/

namespace MessageSelector.Nesting

/-! ## The characters of numbers -/

/-- The letters of numbers: digits of either base, and the marks of base, exponent and suffix. No
word that is told apart is made of them. -/
def isNumberLetter (c : Char) : Bool :=
  Integer.isHexDigit c || c = 'x' || c = 'X' || c = 'l' || c = 'L'

/-- The characters of a number: letters, points, and signs that come right after a letter. -/
def IsNumberText (afterLetter : Bool) : List Char → Prop
  | [] => True
  | c :: rest =>
    (isNumberLetter c = true ∨ c = '.' ∨ (c = '+' ∨ c = '-') ∧ afterLetter = true) ∧
      IsNumberText (isNumberLetter c) rest

/-- Whether a text ends in a letter of a number. An empty one goes by what is in front of it. -/
def endsInLetter (afterLetter : Bool) : List Char → Bool
  | [] => afterLetter
  | c :: rest => endsInLetter (isNumberLetter c) rest

/-- The last character of a text settles what it ends in. -/
theorem ends_in_letter_eq {text : List Char} (h : text ≠ []) (afterLetter : Bool) :
    endsInLetter afterLetter text = text.getLast?.any isNumberLetter := by
  induction text generalizing afterLetter with
  | nil => exact absurd rfl h
  | cons c rest ih =>
      cases rest with
      | nil => rfl
      | cons next rest => exact ih (by simp) (isNumberLetter c)

/-- The characters of two parts of a number are checked one after the other. -/
theorem is_number_text_append (afterLetter : Bool) (before after : List Char) :
    IsNumberText afterLetter (before ++ after) ↔
      IsNumberText afterLetter before ∧ IsNumberText (endsInLetter afterLetter before) after := by
  induction before generalizing afterLetter with
  | nil => simp [IsNumberText, endsInLetter]
  | cons c before ih => simp only [List.cons_append, IsNumberText, endsInLetter, ih, and_assoc]

/-- What a text ends in goes by its last part that is not empty. -/
theorem ends_in_letter_append (afterLetter : Bool) (before after : List Char) :
    endsInLetter afterLetter (before ++ after) =
      endsInLetter (endsInLetter afterLetter before) after := by
  induction before generalizing afterLetter with
  | nil => rfl
  | cons c before ih => exact ih (isNumberLetter c)

/-- Letters behind a letter end in one. -/
theorem ends_in_letter_of_all {text : List Char} (h : text.all isNumberLetter = true) :
    endsInLetter true text = true := by
  induction text with
  | nil => rfl
  | cons c rest ih =>
      rw [List.all_cons, Bool.and_eq_true] at h
      rw [endsInLetter, h.1]
      exact ih h.2

/-- A text is letters up to the first character that is none. -/
theorem exists_letters (text : List Char) :
    ∃ letters more, text = letters ++ more ∧ letters.all isNumberLetter = true ∧
      more.head?.any isNumberLetter = false := by
  refine ⟨text.takeWhile isNumberLetter, text.dropWhile isNumberLetter,
    List.takeWhile_append_dropWhile.symm, List.all_takeWhile, ?_⟩
  have hhead := List.head?_dropWhile_not isNumberLetter text
  cases hmore : (text.dropWhile isNumberLetter).head? with
  | none => rfl
  | some c => simpa [hmore] using hhead

/-- What goes on with a number after its letters, or follows it, is no mark of a word. -/
theorem head_not_word_mark_of_number {more rest : List Char} (htext : IsNumberText true more)
    (hmore : more.head?.any isNumberLetter = false) (hrest : rest.head?.any isWordMark = false) :
    (more ++ rest).head?.any isWordMark = false := by
  cases more with
  | nil => exact hrest
  | cons c more =>
      have hletter : isNumberLetter c = false := by simpa using hmore
      rcases htext.1 with hc | rfl | ⟨rfl | rfl, -⟩
      · rw [hc] at hletter
        cases hletter
      · exact (by decide : isWordMark '.' = false)
      · exact (by decide : isWordMark '+' = false)
      · exact (by decide : isWordMark '-' = false)

/-- Letters alone are characters of a number. -/
theorem is_number_text_letters {text : List Char} (h : text.all isNumberLetter = true)
    (afterLetter : Bool) : IsNumberText afterLetter text := by
  induction text generalizing afterLetter with
  | nil => trivial
  | cons c rest ih =>
      rw [List.all_cons, Bool.and_eq_true] at h
      exact ⟨.inl h.1, ih h.2 _⟩

/-- The letters of numbers are letters of words in either case, and ASCII. -/
theorem number_letter_word_mark {c : Char} (h : isNumberLetter c = true) :
    isWordMark c = true ∧ isNumberLetter c.toLower = true := by
  have hascii : c.toNat < 128 := by
    simp only [isNumberLetter, Integer.isHexDigit, Bool.or_eq_true, Bool.and_eq_true,
      decide_eq_true_eq] at h
    rcases h with (((((h | h) | h) | rfl) | rfl) | rfl) | rfl
    · exact Nat.lt_of_le_of_lt (Char.isDigit_iff_toNat.mp h).2 (by decide)
    · exact Nat.lt_of_le_of_lt (UInt32.le_iff_toNat_le.mp h.2) (by decide)
    · exact Nat.lt_of_le_of_lt (UInt32.le_iff_toNat_le.mp h.2) (by decide)
    all_goals decide
  have hall : ∀ n < 128, isNumberLetter (Char.ofNat n) = true →
      isWordMark (Char.ofNat n) = true ∧ isNumberLetter (Char.ofNat n).toLower = true := by
    decide +kernel
  rw [← Char.ofNat_toNat c] at h ⊢
  exact hall c.toNat hascii h

/-- A word of number letters passes for an operand. -/
theorem after_number_word (depth : Depth) {text : List Char}
    (h : text.all isNumberLetter = true) :
    depth.after (.word (String.ofList text)) = depth.operandEnded := by
  have hlower : (String.ofList text).toLower.toList.all isNumberLetter = true := by
    change ((String.ofList text).map Char.toLower).toList.all isNumberLetter = true
    rw [String.toList_map, String.toList_ofList, List.all_map]
    exact List.all_eq_true.mpr fun c hc =>
      (number_letter_word_mark (List.all_eq_true.mp h c hc)).2
  have hne {word : String} (hword : word.toList.all isNumberLetter = false) :
      (String.ofList text).toLower ≠ word := by
    intro heq
    rw [heq, hword] at hlower
    cases hlower
  have hoperators : operatorWords.contains (String.ofList text).toLower = false := by
    simp only [operatorWords, List.contains_eq_mem, List.mem_cons, List.not_mem_nil, or_false,
      decide_eq_false_iff_not, not_or]
    exact ⟨hne (by decide), hne (by decide), hne (by decide), hne (by decide), hne (by decide),
      hne (by decide), hne (by decide)⟩
  unfold Depth.after
  dsimp only
  rw [if_neg (hne (by decide)), hoperators]
  rfl

/-- All the marks of a number together put an operand behind, unless it ends in a point. -/
theorem within_text_number (depth : Depth) {text rest : List Char}
    (hlevels : depth.insideParens.headD 0 ≤ limit) (hempty : text = [] → depth.operators = 0)
    (htext : IsNumberText depth.afterOperand text)
    (hrest : rest.head?.any isWordMark = false) :
    WithinText depth (text ++ rest) ↔
      WithinText ⟨depth.insideParens, 0, endsInLetter depth.afterOperand text⟩ rest := by
  generalize hlength : text.length = length
  induction length using Nat.strongRecOn generalizing text depth with
  | _ length ih =>
      cases text with
      | nil => rw [← hempty rfl]; rfl
      | cons c following =>
          simp only [List.length_cons] at hlength
          obtain ⟨hc, hfollowing⟩ := htext
          cases hletter : isNumberLetter c with
          | true =>
              -- The mark takes all letters up to the next point or sign.
              obtain ⟨letters, more, rfl, hletters, hmore⟩ := exists_letters following
              rw [hletter, is_number_text_append, ends_in_letter_of_all hletters] at hfollowing
              have hword : (c :: letters).all isWordMark = true := by
                rw [List.all_eq_true] at hletters ⊢
                intro d hd
                rcases List.mem_cons.mp hd with rfl | hd
                · exact (number_letter_word_mark hletter).1
                · exact (number_letter_word_mark (hletters d hd)).1
              rw [List.all_cons, Bool.and_eq_true] at hword
              have hhead := head_not_word_mark_of_number hfollowing.2 hmore hrest
              have hmark : Mark.atFront c (letters ++ more ++ rest) =
                  (.word (String.ofList (c :: letters)), letters.length) := by
                rw [List.append_assoc]
                exact mark_at_front_word hword.1 hword.2 hhead
              have hafter : depth.after (.word (String.ofList (c :: letters))) =
                  depth.operandEnded :=
                after_number_word depth (by rw [List.all_cons, hletter, hletters]; rfl)
              rw [List.cons_append, within_text_cons, hmark, hafter, List.append_assoc,
                List.drop_left, endsInLetter, hletter, ends_in_letter_append,
                ends_in_letter_of_all hletters]
              have hrec := ih more.length (by rw [List.length_append] at hlength; omega)
                depth.operandEnded hlevels (fun _ => rfl) hfollowing.2 rfl
              rw [hrec]
              exact ⟨fun h => h.2, fun h => ⟨hlevels, h⟩⟩
          | false =>
              -- A point or a sign is a mark of its own, and no operand is behind it.
              have hmark : depth.after (Mark.atFront c (following ++ rest)).1 =
                  depth.operandExpected ∧ (Mark.atFront c (following ++ rest)).2 = 0 := by
                rw [hletter] at hc
                rcases hc with hc | rfl | ⟨rfl | rfl, hended⟩
                · cases hc
                · exact ⟨rfl, rfl⟩
                · exact ⟨if_pos hended, rfl⟩
                · exact ⟨if_pos hended, rfl⟩
              rw [List.cons_append, within_text_cons, hmark.1, hmark.2, List.drop_zero,
                endsInLetter, hletter]
              rw [hletter] at hfollowing
              have hrec := ih following.length (by omega) depth.operandExpected hlevels
                (fun _ => rfl) hfollowing rfl
              rw [hrec]
              exact ⟨fun h => h.2, fun h => ⟨hlevels, h⟩⟩

/-! ## The parts of numbers -/

/-- What is read at the front of a text: characters of a number, and the rest of the text. -/
structure IsPart (text part rest : List Char) : Prop where
  split : text = part ++ rest
  ne_nil : part ≠ []
  number : IsNumberText false part

/-- What may stand anywhere may stand after a letter. -/
theorem IsNumberText.after_letter {text : List Char} (h : IsNumberText false text)
    (afterLetter : Bool) : IsNumberText afterLetter text := by
  cases text with
  | nil => trivial
  | cons c rest =>
      obtain ⟨hc, hrest⟩ := h
      refine ⟨?_, hrest⟩
      rcases hc with hc | hc | ⟨-, hc⟩
      · exact .inl hc
      · exact .inr (.inl hc)
      · cases hc

/-- Digits are letters of numbers. -/
theorem number_letter_of_hex_digit {c : Char} (h : Integer.isHexDigit c = true) :
    isNumberLetter c = true := by
  unfold isNumberLetter
  rw [h]
  rfl

/-- Digits of base ten are. -/
theorem number_letter_of_digit {c : Char} (h : c.isDigit = true) : isNumberLetter c = true :=
  number_letter_of_hex_digit (Token.hex_digit_of_digit h)

/-- Characters of a kind whose every member is a letter of numbers are letters of numbers. -/
theorem number_letters_of_all {kind : Char → Bool} {text : List Char}
    (hkind : ∀ c, kind c = true → isNumberLetter c = true) (h : text.all kind = true) :
    text.all isNumberLetter = true :=
  List.all_eq_true.mpr fun c hc => hkind c (List.all_eq_true.mp h c hc)

/-- Parts of a number one after the other are part of one. -/
theorem IsNumberText.append {before after : List Char} (h : IsNumberText false before)
    (hafter : IsNumberText false after) : IsNumberText false (before ++ after) :=
  (is_number_text_append false before after).mpr ⟨h, hafter.after_letter _⟩

/-- Digits are part of a number. -/
theorem is_number_text_digits {ds : List Char} (h : ds.all Char.isDigit = true) :
    IsNumberText false ds :=
  is_number_text_letters (number_letters_of_all (fun _ => number_letter_of_digit) h) false

/-- An exponent is part of a number: its sign comes right after its mark. -/
theorem is_number_text_exponent {text : List Char} (h : Token.IsExponent text) :
    IsNumberText false text := by
  obtain ⟨hmark, hsign, -, hds⟩ := h
  have hdigits := is_number_text_digits hds
  have hletter : ∀ mark, mark = 'e' ∨ mark = 'E' → isNumberLetter mark = true := by
    rintro _ (rfl | rfl) <;> decide
  refine ⟨.inl (hletter _ hmark), ?_⟩
  rcases hsign with rfl | rfl | rfl
  · exact hdigits.after_letter _
  · exact ⟨.inr (.inr ⟨.inl rfl, hletter _ hmark⟩), hdigits.after_letter _⟩
  · exact ⟨.inr (.inr ⟨.inr rfl, hletter _ hmark⟩), hdigits.after_letter _⟩

/-- Digits with a point or an exponent are part of a number. -/
theorem is_number_text_mantissa {text : List Char} (h : Token.IsMantissa text) :
    IsNumberText false text := by
  cases h with
  | pointed hwhole hfraction _ hexponent =>
      have hrest := (is_number_text_digits hfraction).append <|
        hexponent.elim (fun hnil => hnil ▸ trivial) is_number_text_exponent
      exact (is_number_text_digits hwhole).append ⟨.inr (.inl rfl), hrest.after_letter _⟩
  | scientific hwhole _ hexponent =>
      exact (is_number_text_digits hwhole).append (is_number_text_exponent hexponent)

/-- A run of digits in either base is part of a number. -/
theorem is_number_text_whole {text : List Char} (h : Token.IsWhole text) :
    IsNumberText false text := by
  cases h with
  | decimal _ hds => exact is_number_text_digits hds
  | hexadecimal hx hdigit hds =>
      have hmark : ∀ x, x = 'x' ∨ x = 'X' → isNumberLetter x = true := by
        rintro _ (rfl | rfl) <;> decide
      refine is_number_text_letters ?_ false
      simp [hmark _ hx, number_letter_of_hex_digit hdigit,
        number_letters_of_all (fun _ => number_letter_of_hex_digit) hds,
        show isNumberLetter '0' = true by decide]

/-- A suffix of letters is part of a number. -/
theorem is_number_text_suffix {isSuffix : Char → Bool} {suffix : List Char}
    (hletter : ∀ c, isSuffix c = true → isNumberLetter c = true)
    (h : Token.IsSuffix isSuffix suffix) : IsNumberText false suffix := by
  rcases h with rfl | ⟨c, rfl, hc⟩
  · trivial
  · exact ⟨.inl (hletter c hc), trivial⟩

/-- A floating-point literal is a number. -/
theorem is_number_text_float {literal : List Char} (h : Token.IsFloat literal) :
    IsNumberText false literal := by
  obtain ⟨part, suffix, rfl, hpart, hsuffix⟩ := h
  refine (is_number_text_mantissa hpart).append (is_number_text_suffix (fun c hc => ?_) hsuffix)
  simp only [Token.isFloatSuffix, Bool.or_eq_true, decide_eq_true_eq] at hc
  rcases hc with ((rfl | rfl) | rfl) | rfl <;> decide

/-- An integer literal is a number. -/
theorem is_number_text_integer {literal : List Char} (h : Token.IsInteger literal) :
    IsNumberText false literal := by
  obtain ⟨part, suffix, rfl, hpart, hsuffix⟩ := h
  refine (is_number_text_whole hpart).append (is_number_text_suffix (fun c hc => ?_) hsuffix)
  simp only [Token.isIntegerSuffix, Bool.or_eq_true, decide_eq_true_eq] at hc
  rcases hc with rfl | rfl <;> decide

/-- A floating-point literal is a part, and the word ends there. -/
theorem is_part_of_float {text literal rest : List Char}
    (h : Token.float? text = some (literal, rest)) :
    IsPart text literal rest ∧ rest.head?.any isWordChar = false := by
  obtain ⟨hsplit, hliteral, hword⟩ := Token.float_sound h
  exact ⟨⟨hsplit, hliteral.ne_nil, is_number_text_float hliteral⟩, hword⟩

/-- An integer literal is a part, and the word ends there. -/
theorem is_part_of_integer {text literal rest : List Char}
    (h : Token.integer? text = some (literal, rest)) :
    IsPart text literal rest ∧ rest.head?.any isWordChar = false := by
  obtain ⟨hsplit, hliteral, hword⟩ := Token.integer_sound h
  exact ⟨⟨hsplit, hliteral.ne_nil, is_number_text_integer hliteral⟩, hword⟩

/-- The characters of a number, wherever in it they stand. -/
theorem IsNumberText.forall_mem {afterLetter : Bool} {text : List Char}
    (h : IsNumberText afterLetter text) :
    ∀ c ∈ text, isNumberLetter c = true ∨ c ∈ ['.', '+', '-'] := by
  induction text generalizing afterLetter with
  | nil => exact List.forall_mem_nil _
  | cons c rest ih =>
      refine List.forall_mem_cons.mpr ⟨?_, ih h.2⟩
      rcases h.1 with hletter | rfl | ⟨rfl | rfl, -⟩
      · exact .inl hletter
      · exact .inr (by simp)
      · exact .inr (by simp)
      · exact .inr (by simp)

end MessageSelector.Nesting
