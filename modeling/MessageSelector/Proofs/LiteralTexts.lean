import MessageSelector.Proofs.Doubles.Parts
import MessageSelector.Proofs.Faults.Payloads
import MessageSelector.Proofs.Lexical.Letters
import MessageSelector.Proofs.ShortTexts
import MessageSelector.Proofs.SignRuns
import MessageSelector.Value.Reading

/-!
# Literals outside selectors

Two readers know literals: that of selectors and that of values in text. `of_text_literal` says
where they agree. A literal behind at most one sign has the same value for both if it is plain. One
with the mark of a base or with a suffix is a number in a selector and a string in text.
-/

namespace MessageSelector

open MessageSelector.Expr (Binding)

/-! ## Literals in a selector -/

namespace Lexeme

/-- Whether the lexeme is a literal. -/
def isLiteral : Lexeme → Bool
  | boolean _ | string _ | float _ | integer _ => true
  | _ => false

/-- Whether a literal is written without the mark of a base and without a suffix. -/
def isPlain : Lexeme → Bool
  | integer literal => literal.toList.all Char.isDigit
  | float literal => !literal.toList.getLast?.any Token.isFloatSuffix
  | _ => true

/-- The value of a literal behind a sign or none, if it has one there. -/
def value? (sign : Option Sign) : Lexeme → Option Value
  | boolean flag => if sign = none then some (.boolean flag) else none
  | string contents => if sign = none then some (.string contents) else none
  | float literal =>
    (Token.floatValue? literal).map fun x => .float (if sign = some .minus then -x else x)
  | integer literal =>
    let magnitude : Int := Token.integerValue literal
    (Integer.narrow (if sign = some .minus then -magnitude else magnitude)).map .integer
  | _ => none

end Lexeme

/-- Tokens spell one phrase at most. -/
theorem Spells.unique {phrase other : Phrase} {tokens : List Token} (h : Spells phrase tokens)
    (hother : Spells other tokens) : phrase = other := by
  have hread := Phrase.of_tokens_complete h default
  rw [Phrase.of_tokens_complete hother] at hread
  cases hread
  rfl

section Meaning

variable {literal : Lexeme} {phrase : Phrase} {text : List Char} {value : Value} {span : Span}

/-- A literal by itself means its value. -/
theorem value_of_unsigned (hliteral : literal.isLiteral = true)
    (hspells : Spells phrase [⟨literal, span⟩])
    (hmeaning : phrase.meaning text = .ok (.literal value)) :
    literal.value? none = some value ∧ phrase.binding = .primary := by
  cases literal with
  | boolean flag =>
      obtain rfl := hspells.unique (.boolean span flag)
      cases hmeaning
      exact ⟨rfl, rfl⟩
  | string contents =>
      obtain rfl := hspells.unique (.string ⟨span, contents⟩)
      cases hmeaning
      exact ⟨rfl, rfl⟩
  | float literal =>
      obtain rfl := hspells.unique (.float span literal)
      obtain ⟨x, hx, heq⟩ := (Phrase.float_meaning_ok_iff span literal _).mp hmeaning
      cases heq
      exact ⟨by simp [Lexeme.value?, hx], rfl⟩
  | integer literal =>
      obtain rfl := hspells.unique (.integer span literal)
      obtain ⟨n, hn, heq⟩ := (Phrase.integer_meaning_ok_iff span literal _ _).mp hmeaning
      have hnarrow := (Integer.narrow_eq_some_iff _ _).mpr hn
      cases heq
      exact ⟨congrArg (·.map Value.integer) hnarrow, rfl⟩
  | _ => cases hliteral

/-- A literal behind a sign means its value there. -/
theorem value_of_signed {sign : Sign} {mark : Span} (hliteral : literal.isLiteral = true)
    (hspells : Spells phrase [⟨sign.lexeme, mark⟩, ⟨literal, span⟩])
    (hmeaning : phrase.meaning text = .ok (.literal value)) :
    literal.value? (some sign) = some value ∧ phrase.binding = .sign := by
  have hsigned {operand : Phrase} (hoperand : Spells operand [⟨literal, span⟩])
      (hprimary : operand.binding = .primary) : phrase = .signed mark sign operand :=
    hspells.unique (.signed mark sign hoperand (hprimary ▸ Binding.rank_le_primary .sign))
  cases literal with
  | boolean flag =>
      -- A sign stays in front of what is no number.
      obtain rfl := hsigned (.boolean span flag) rfl
      cases sign <;> cases hmeaning
  | string contents =>
      obtain rfl := hsigned (.string ⟨span, contents⟩) rfl
      cases sign <;> cases hmeaning
  | float literal =>
      obtain rfl := hsigned (.float span literal) rfl
      have hother : ∀ (other : Span) (digits : String), sign = .minus →
          Phrase.float span literal ≠ .integer other digits := by simp
      rw [Phrase.meaning_signed_other text mark hother] at hmeaning
      obtain ⟨inner, hinner, heq⟩ := (bind_ok_iff _ _ _).mp hmeaning
      obtain ⟨x, hx, rfl⟩ := (Phrase.float_meaning_ok_iff span literal _).mp hinner
      cases sign <;> cases heq <;> exact ⟨by simp [Lexeme.value?, hx], rfl⟩
  | integer literal =>
      obtain rfl := hsigned (.integer span literal) rfl
      rw [Phrase.meaning_signed_integer] at hmeaning
      obtain ⟨n, hn, heq⟩ := (Phrase.integer_meaning_ok_iff span literal _ _).mp hmeaning
      have hnarrow := (Integer.narrow_eq_some_iff _ _).mpr hn
      cases heq
      cases sign <;> exact ⟨congrArg (·.map Value.integer) hnarrow, rfl⟩
  | _ => cases hliteral

end Meaning

/-! ## Decimal numbers in text -/

/-- The characters of decimal numbers: digits, points, and the marks and signs of exponents. -/
def Decimal.isNumberChar (c : Char) : Bool :=
  c.isDigit || c = '.' || c = 'e' || c = 'E' || c = '+' || c = '-'

/-- At most one character is split off as a sign. -/
theorem Integer.split_sign_eq (text : List Char) :
    ∃ sign, text = sign ++ (splitSign text).2 ∧ (sign = [] ∨ sign = ['+'] ∨ sign = ['-']) := by
  unfold splitSign
  split
  · exact ⟨['-'], rfl, .inr (.inr rfl)⟩
  · exact ⟨['+'], rfl, .inr (.inl rfl)⟩
  · exact ⟨[], rfl, .inl rfl⟩

/-- Any other character is not split off. -/
theorem Integer.split_sign_unsigned {c : Char} (hplus : c ≠ '+') (hminus : c ≠ '-')
    (rest : List Char) : splitSign (c :: rest) = (false, c :: rest) := by
  unfold splitSign
  split
  · next heq => exact absurd (List.cons.inj heq).1 hminus
  · next heq => exact absurd (List.cons.inj heq).1 hplus
  · rfl

namespace Decimal

/-- Digits are characters of numbers. -/
theorem number_chars_of_digits {ds : List Char} (h : ds.all Char.isDigit = true) :
    ds.all isNumberChar = true := by
  rw [List.all_eq_true] at h ⊢
  intro c hc
  simp [isNumberChar, h c hc]

/-- An exponent that is read has the characters of numbers. -/
theorem number_chars_of_read_exponent {text : List Char} {n : Int}
    (h : readExponent? text = some n) : text.all isNumberChar = true := by
  cases text with
  | nil => rfl
  | cons mark rest =>
      obtain ⟨sign, hrest, hsign⟩ := Integer.split_sign_eq rest
      simp only [readExponent?, Option.ite_none_right_eq_some, Bool.and_eq_true, Bool.or_eq_true,
        decide_eq_true_eq] at h
      obtain ⟨⟨⟨hmark, -⟩, hdigits⟩, -⟩ := h
      have hfront : (mark :: sign).all isNumberChar = true := by
        rcases hmark with rfl | rfl <;> rcases hsign with rfl | rfl | rfl <;> rfl
      rw [hrest, ← List.cons_append, List.all_append, hfront, number_chars_of_digits hdigits]
      rfl

/-- A decimal number that is read has the characters of numbers. -/
theorem number_chars_of_read {text : List Char} {decimal : Decimal}
    (h : read? text = some decimal) : text.all isNumberChar = true := by
  unfold read? at h
  split at h
  next whole rest hsplit =>
    obtain ⟨rfl, hwhole⟩ := Token.split_digits_sound hsplit
    rw [List.all_append, number_chars_of_digits hwhole, Bool.true_and]
    split at h
    next fraction tail hfraction =>
      split at h
      · cases h
      · obtain ⟨n, hexponent, -⟩ := Option.bind_eq_some_iff.mp h
        have htail := number_chars_of_read_exponent hexponent
        split at hfraction
        · next following =>
            obtain ⟨rfl, hdigits⟩ := Token.split_digits_sound hfraction
            rw [List.all_cons, List.all_append, number_chars_of_digits hdigits, htail]
            rfl
        · cases hfraction
          exact htail

/-- Nothing with another character is read as a decimal number. -/
theorem read_eq_none {text : List Char} (h : text.all isNumberChar = false) :
    read? text = none := by
  rw [Option.eq_none_iff_forall_ne_some]
  intro decimal hread
  rw [number_chars_of_read hread] at h
  cases h

/-- The characters of numbers are told apart without their case. -/
theorem number_char_to_lower (c : Char) : isNumberChar c.toLower = isNumberChar c :=
  kind_to_lower (p := isNumberChar) (by decide +kernel) c

/-- What begins with a character of numbers is no word of another beginning, in any case. -/
theorem lower_ne_of_number_char {c : Char} {word : String} (hc : isNumberChar c = true)
    (hword : word.toList.head?.any isNumberChar = false) (rest : List Char) :
    (String.ofList (c :: rest)).toLower ≠ word := by
  rintro rfl
  change ((String.ofList (c :: rest)).map Char.toLower).toList.head?.any isNumberChar =
    false at hword
  rw [String.toList_map, String.toList_ofList, List.map_cons, List.head?_cons, Option.any_some,
    number_char_to_lower, hc] at hword
  cases hword

end Decimal

/-! ## Values in text -/

/-- What begins with no quote is not in quotes. -/
theorem Text.unquote_eq_none {text : String} {c : Char} {rest : List Char}
    (htext : text.toList = c :: rest) (hc : c ≠ '\'') : unquote? text = none := by
  unfold unquote?
  rw [htext]
  split
  · next heq => exact absurd (List.cons.inj heq).1 hc
  · rfl

/-- The text of a literal behind a sign or none. -/
def signedText (sign : Option Sign) (source : List Char) : List Char :=
  (sign.elim "" Sign.symbol).toList ++ source

/-- The text begins as numbers do that have no sign. -/
def BeginsNumber (source : List Char) : Prop :=
  ∃ c rest, source = c :: rest ∧ (c.isDigit = true ∨ c = '.')

section Numbers

variable {sign : Option Sign} {source : List Char}

/-- A number with a sign or none begins with a character of numbers. -/
theorem BeginsNumber.signed (h : BeginsNumber source) (sign : Option Sign) :
    ∃ c rest, signedText sign source = c :: rest ∧ Decimal.isNumberChar c = true := by
  obtain ⟨c, rest, rfl, hc⟩ := h
  cases sign with
  | none =>
      refine ⟨c, rest, rfl, ?_⟩
      rcases hc with hc | rfl
      · simp [Decimal.isNumberChar, hc]
      · rfl
  | some sign =>
      cases sign with
      | plus => exact ⟨'+', c :: rest, rfl, rfl⟩
      | minus => exact ⟨'-', c :: rest, rfl, rfl⟩

/-- The sign of a number is split off. -/
theorem BeginsNumber.split_sign (h : BeginsNumber source) (sign : Option Sign) :
    Integer.splitSign (signedText sign source) = (decide (sign = some .minus), source) := by
  obtain ⟨c, rest, rfl, hc⟩ := h
  cases sign with
  | none =>
      have hne : c ≠ '-' ∧ c ≠ '+' := by
        constructor <;> rintro rfl <;> rcases hc with hc | hc <;> cases hc
      exact Integer.split_sign_unsigned hne.2 hne.1 rest
  | some sign => cases sign <;> rfl

/-- A number is not in quotes. -/
theorem BeginsNumber.unquote_eq_none (h : BeginsNumber source) (sign : Option Sign) :
    Text.unquote? (String.ofList (signedText sign source)) = none := by
  obtain ⟨c, rest, htext, hc⟩ := h.signed sign
  refine Text.unquote_eq_none (by rw [String.toList_ofList, htext]) ?_
  rintro rfl
  cases hc

/-- A number is no boolean. -/
theorem BeginsNumber.read_flag_eq_none (h : BeginsNumber source) (sign : Option Sign) :
    Value.readFlag? (String.ofList (signedText sign source)) = none := by
  obtain ⟨c, rest, htext, hc⟩ := h.signed sign
  unfold Value.readFlag?
  rw [htext]
  split
  · next heq => exact absurd heq (Decimal.lower_ne_of_number_char hc rfl rest)
  · next heq => exact absurd heq (Decimal.lower_ne_of_number_char hc rfl rest)
  · rfl

/-- Digits are read as their number under the sign. -/
theorem BeginsNumber.read_eq (h : BeginsNumber source) (sign : Option Sign) :
    Integer.read? (String.ofList (signedText sign source)) =
      if source.all Char.isDigit then
        some (if sign = some .minus then -(Integer.ofDigits 10 source : Int)
          else Integer.ofDigits 10 source)
      else none := by
  have hempty : source.isEmpty = false := by
    obtain ⟨c, rest, rfl, -⟩ := h
    rfl
  unfold Integer.read?
  rw [String.toList_ofList, h.split_sign]
  cases hdigits : source.all Char.isDigit <;> simp [hempty, hdigits]

/-- Digits are read as the word that is their number under the sign. -/
theorem BeginsNumber.read_word_eq (h : BeginsNumber source) (sign : Option Sign) :
    Integer.readWord? (String.ofList (signedText sign source)) =
      if source.all Char.isDigit then
        Integer.narrow (if sign = some .minus then -Integer.ofDigits 10 source
          else Integer.ofDigits 10 source)
      else none := by
  rw [Integer.readWord?, h.read_eq]
  cases source.all Char.isDigit <;> rfl

/-- What is no name is read as the double of its decimal number, under the sign. -/
theorem BeginsNumber.read_finite_eq (h : BeginsNumber source) (sign : Option Sign) :
    Decimal.readFinite? (String.ofList (signedText sign source)) =
      ((Decimal.read? source).map Decimal.toFloat).bind fun x =>
        if x.isFinite then some (if sign = some .minus then -x else x) else none := by
  have hfloat : Decimal.readFloat? Decimal.toFloat (String.ofList (signedText sign source)) =
      ((Decimal.read? source).map Decimal.toFloat).map fun x =>
        if sign = some .minus then -x else x := by
    obtain ⟨c, rest, htext, hc⟩ := h.signed none
    obtain rfl : source = c :: rest := htext
    unfold Decimal.readFloat?
    rw [String.toList_ofList, h.split_sign]
    simp only [decide_eq_true_eq]
    congr 1
    split
    · next heq => exact absurd heq (Decimal.lower_ne_of_number_char hc rfl rest)
    · next heq => exact absurd heq (Decimal.lower_ne_of_number_char hc rfl rest)
    · next heq => exact absurd heq (Decimal.lower_ne_of_number_char hc rfl rest)
    · rfl
  unfold Decimal.readFinite?
  rw [hfloat]
  cases (Decimal.read? source).map Decimal.toFloat with
  | none => rfl
  | some x =>
      by_cases hsign : sign = some .minus
      · simp [hsign, Double.is_finite_neg]
      · simp [hsign]

/-- A number is an integer if one is read, or else a double if one is read, or else a string. -/
theorem BeginsNumber.of_text_eq (h : BeginsNumber source) (sign : Option Sign) :
    let text := String.ofList (signedText sign source)
    Value.ofText text =
      match Integer.readWord? text, Decimal.readFinite? text with
      | some n, _ => .integer n
      | none, some x => .float x
      | none, none => .string text := by
  intro text
  unfold Value.ofText
  rw [h.unquote_eq_none, h.read_flag_eq_none]
  cases Integer.readWord? text <;> cases Decimal.readFinite? text <;> rfl

end Numbers

/-! ## Literals in text -/

namespace Token

variable {source part : List Char}

/-- Literals of both kinds begin as numbers do. -/
theorem begins_number (h : IsFloat source ∨ IsInteger source) : BeginsNumber source := by
  have hne : source ≠ [] := h.elim IsFloat.ne_nil IsInteger.ne_nil
  obtain ⟨c, rest, rfl⟩ := List.exists_cons_of_ne_nil hne
  exact ⟨c, rest, rfl, Lexeme.number_head h⟩

/-- Digits alone are worth their decimal number. -/
theorem integer_value_digits (hne : source ≠ []) (hdigits : source.all Char.isDigit = true) :
    integerValue (String.ofList source) = Integer.ofDigits 10 source := by
  have hvalue := (Denotes.decimal hne hdigits (.inl rfl)).value.2
  rwa [List.append_nil, ← of_decimal_digits hdigits] at hvalue

/-- No suffix is a character of numbers. -/
theorem number_char_of_suffix {c : Char}
    (h : isIntegerSuffix c = true ∨ isFloatSuffix c = true) : Decimal.isNumberChar c = false := by
  simp only [isIntegerSuffix, isFloatSuffix, Bool.or_eq_true, decide_eq_true_eq] at h
  rcases h with (rfl | rfl) | ((rfl | rfl) | rfl) | rfl <;> rfl

/-- Characters of numbers alone have no suffix. -/
theorem no_suffix_of_number_chars (h : source.all Decimal.isNumberChar = true) :
    source.getLast?.any isFloatSuffix = false ∧ source.filter (!isFloatSuffix ·) = source := by
  have hnone : ∀ c ∈ source, isFloatSuffix c = false := by
    intro c hc
    by_contra hsuffix
    rw [Bool.not_eq_false] at hsuffix
    have hchar := List.all_eq_true.mp h c hc
    rw [number_char_of_suffix (.inr hsuffix)] at hchar
    cases hchar
  constructor
  · cases hlast : source.getLast? with
    | none => rfl
    | some c => exact hnone c (List.mem_of_getLast? hlast)
  · rw [List.filter_eq_self]
    intro c hc
    rw [hnone c hc]
    rfl

/-- The mark of a base and a suffix are no characters of decimal numbers. -/
theorem IsInteger.marked (h : IsInteger source) (hdigits : source.all Char.isDigit = false) :
    source.all Decimal.isNumberChar = false := by
  obtain ⟨part, suffix, rfl, hpart, hsuffix⟩ := h
  rw [List.all_append, Bool.and_eq_false_iff]
  cases hpart with
  | decimal hne hds =>
      right
      rcases hsuffix with rfl | ⟨c, rfl, hc⟩
      · rw [List.append_nil, hds] at hdigits
        cases hdigits
      · rw [List.all_cons, number_char_of_suffix (.inl hc)]
        rfl
  | hexadecimal hx =>
      left
      rcases hx with rfl | rfl <;> rfl

/-- An exponent has the characters of numbers, its mark among them. -/
theorem IsExponent.chars (h : IsExponent part) :
    part.all Decimal.isNumberChar = true ∧ part.all Char.isDigit = false := by
  obtain ⟨hmark, hsign, -, hds⟩ := h
  rename_i mark sign ds
  have hfront : (mark :: sign).all Decimal.isNumberChar = true ∧ mark.isDigit = false := by
    rcases hmark with rfl | rfl <;> rcases hsign with rfl | rfl | rfl <;> exact ⟨rfl, rfl⟩
  constructor
  · rw [← List.cons_append, List.all_append, hfront.1, Decimal.number_chars_of_digits hds]
    rfl
  · rw [List.all_cons, hfront.2]
    rfl

/-- Digits with a point or an exponent have the characters of numbers, and not digits alone. -/
theorem IsMantissa.chars (h : IsMantissa part) :
    part.all Decimal.isNumberChar = true ∧ part.all Char.isDigit = false := by
  cases h with
  | @pointed whole fraction exponent hwhole hfraction _ hexponent =>
      have hchars : exponent.all Decimal.isNumberChar = true := by
        rcases hexponent with rfl | hexponent
        · rfl
        · exact hexponent.chars.1
      constructor
      · rw [List.all_append, List.all_cons, List.all_append, Decimal.number_chars_of_digits hwhole,
          Decimal.number_chars_of_digits hfraction, hchars]
        rfl
      · rw [List.all_append, List.all_cons]
        simp
  | scientific hwhole _ hexponent =>
      constructor
      · rw [List.all_append, Decimal.number_chars_of_digits hwhole, hexponent.chars.1]
        rfl
      · rw [List.all_append, hexponent.chars.2, Bool.and_false]

end Token

section Literals

variable {sign : Option Sign} {literal : Lexeme} {source : List Char} {value : Value}

/-- Digits alone are read as the integer that they denote, and any other integer literal is a
string. -/
theorem of_text_integer (h : Token.IsInteger source)
    (hvalue : (Lexeme.integer (String.ofList source)).value? sign = some value) :
    Value.ofText (String.ofList (signedText sign source)) =
      if (Lexeme.integer (String.ofList source)).isPlain then value
      else .string (String.ofList (signedText sign source)) := by
  have hbegins := Token.begins_number (.inr h)
  rw [hbegins.of_text_eq, hbegins.read_word_eq, hbegins.read_finite_eq, Lexeme.isPlain,
    String.toList_ofList]
  cases hdigits : source.all Char.isDigit with
  | true =>
      simp only [Lexeme.value?, Token.integer_value_digits h.ne_nil hdigits] at hvalue
      obtain ⟨n, hn, rfl⟩ := Option.map_eq_some_iff.mp hvalue
      rw [if_pos rfl, hn]
      rfl
  | false =>
      rw [Decimal.read_eq_none (h.marked hdigits)]
      rfl

/-- Digits with a point or an exponent are read as the double that they denote, and with a suffix
they are a string. -/
theorem of_text_float (h : Token.IsFloat source)
    (hvalue : (Lexeme.float (String.ofList source)).value? sign = some value) :
    Value.ofText (String.ofList (signedText sign source)) =
      if (Lexeme.float (String.ofList source)).isPlain then value
      else .string (String.ofList (signedText sign source)) := by
  have hbegins := Token.begins_number (.inl h)
  obtain ⟨part, suffix, rfl, hpart, hsuffix⟩ := h
  obtain ⟨hchars, hdigits⟩ := hpart.chars
  rw [hbegins.of_text_eq, hbegins.read_word_eq, hbegins.read_finite_eq, Lexeme.isPlain,
    String.toList_ofList, List.all_append, hdigits]
  rcases hsuffix with rfl | ⟨c, rfl, hc⟩
  · obtain ⟨hplain, hfilter⟩ := Token.no_suffix_of_number_chars hchars
    rw [List.append_nil] at hvalue ⊢
    simp only [Lexeme.value?, Token.floatValue?, String.toList_ofList, hfilter] at hvalue
    obtain ⟨x, hx, rfl⟩ := Option.map_eq_some_iff.mp hvalue
    obtain ⟨decimal, hread, hfinite⟩ := Option.bind_eq_some_iff.mp hx
    rw [hread, hplain]
    simp only [Option.ite_none_right_eq_some, Option.some.injEq] at hfinite
    obtain ⟨hfinite, rfl⟩ := hfinite
    simp [hfinite]
  · have hnone : Decimal.read? (part ++ [c]) = none := by
      refine Decimal.read_eq_none ?_
      rw [List.all_append, List.all_cons, Token.number_char_of_suffix (.inr hc), Bool.false_and,
        Bool.and_false]
    rw [hnone, List.getLast?_concat, Option.any_some, hc]
    rfl

/-- Without a sign the text is that of the literal. -/
theorem signed_text_none (source : List Char) : signedText none source = source :=
  rfl

/-- A string literal is read as its contents. -/
theorem of_text_quote (contents : String) :
    Value.ofText (Text.quote contents) = .string contents := by
  unfold Value.ofText
  rw [Text.unquote_quote]
  rfl

/-- A word that is a literal is a boolean in some case. -/
theorem boolean_of_word {word : String} (h : (Lexeme.ofWord word).isLiteral = true) :
    ∃ flag : Bool, word.toLower = toString flag := by
  unfold Lexeme.ofWord at h
  split at h <;> cases h
  · next hlower => exact ⟨true, hlower⟩
  · next hlower => exact ⟨false, hlower⟩

/-- What does not begin with a character of numbers is no integer, and no double either unless it is
the name of one. -/
theorem numbers_eq_none {word : String} {c : Char} {rest : List Char}
    (hword : word.toList = c :: rest) (hc : Decimal.isNumberChar c = false)
    (hname : word.toLower ∉ ["inf", "infinity", "nan"]) :
    Integer.readWord? word = none ∧ Decimal.readFinite? word = none := by
  have hsplit : Integer.splitSign word.toList = (false, c :: rest) := by
    rw [hword]
    refine Integer.split_sign_unsigned ?_ ?_ rest <;> rintro rfl <;> cases hc
  constructor
  · have hdigit : c.isDigit = false := by
      simp only [Decimal.isNumberChar, Bool.or_eq_false_iff] at hc
      exact hc.1.1.1.1.1
    unfold Integer.readWord? Integer.read?
    rw [hsplit]
    simp [hdigit]
  · have hread : Decimal.read? (c :: rest) = none :=
      Decimal.read_eq_none (by rw [List.all_cons, hc, Bool.false_and])
    have hwhole : String.ofList (c :: rest) = word := by rw [← hword, String.ofList_toList]
    unfold Decimal.readFinite? Decimal.readFloat?
    rw [hsplit]
    dsimp only
    rw [hwhole, hread]
    split <;> simp_all

/-- A boolean in any case begins with one of two letters in some case. -/
theorem head_of_boolean {word : String} {flag : Bool} (h : word.toLower = toString flag) :
    ∃ c rest, word.toList = c :: rest ∧ c.toLower ∈ ['t', 'f'] := by
  have hlower : word.toList.map Char.toLower = (toString flag).toList := by
    rw [← String.toList_map, ← h]
    rfl
  cases hword : word.toList with
  | nil =>
      rw [hword] at hlower
      cases flag <;> cases hlower
  | cons c rest =>
      rw [hword, List.map_cons] at hlower
      refine ⟨c, rest, rfl, ?_⟩
      cases flag with
      | true =>
          have hhead : c.toLower = 't' := (List.cons.inj hlower).1
          exact hhead ▸ List.mem_cons_self
      | false =>
          have hhead : c.toLower = 'f' := (List.cons.inj hlower).1
          exact hhead ▸ List.mem_cons_of_mem _ List.mem_cons_self

/-- A boolean in any case is read as its flag. -/
theorem of_text_boolean {word : String} {flag : Bool} (h : word.toLower = toString flag) :
    Value.ofText word = .boolean flag := by
  obtain ⟨c, rest, hword, hc⟩ := head_of_boolean h
  have hchar : Decimal.isNumberChar c = false := by
    rw [← Decimal.number_char_to_lower]
    rcases List.mem_pair.mp hc with h | h <;> rw [h] <;> rfl
  have hunquote : Text.unquote? word = none := by
    refine Text.unquote_eq_none hword ?_
    rintro rfl
    exact absurd hc (by decide)
  obtain ⟨hinteger, hfloat⟩ : Integer.readWord? word = none ∧ Decimal.readFinite? word = none := by
    refine numbers_eq_none hword hchar ?_
    rw [h]
    cases flag <;> decide
  unfold Value.ofText Value.readFlag?
  rw [hunquote, hinteger, hfloat, h]
  cases flag <;> rfl

/-- A literal behind at most one sign is read as the value it has in a selector if it is plain, and
otherwise it is a string. -/
theorem of_text_literal (hwritten : literal.Written source) (hliteral : literal.isLiteral = true)
    (hvalue : literal.value? sign = some value) :
    Value.ofText (String.ofList (signedText sign source)) =
      if literal.isPlain then value else .string (String.ofList (signedText sign source)) := by
  cases hwritten with
  | float h => exact of_text_float h hvalue
  | integer h => exact of_text_integer h hvalue
  | string contents =>
      obtain ⟨rfl, hvalue⟩ := Option.ite_none_right_eq_some.mp hvalue
      cases hvalue
      rw [signed_text_none, String.ofList_toList, of_text_quote]
      rfl
  | @word first rest =>
      obtain ⟨flag, hlower⟩ := boolean_of_word hliteral
      rw [Lexeme.of_word_boolean hlower] at hvalue ⊢
      obtain ⟨rfl, hvalue⟩ := Option.ite_none_right_eq_some.mp hvalue
      cases hvalue
      rw [signed_text_none, of_text_boolean hlower]
      rfl
  | _ => cases hliteral

end Literals

end MessageSelector
