import MessageSelector.Proofs.Doubles.Scientific
import MessageSelector.Proofs.LiteralTexts

/-!
# Numbers as they are spelled

How integers and doubles are spelled outside selectors, said by the form of the text and the number
that its digits are. `Integer.read_word_iff` and `Decimal.read_finite_iff` say that the readers find
these numbers and nothing else.
-/

namespace MessageSelector

/-- Digits begin as numbers do. -/
theorem begins_of_digits {digits : List Char} (hne : digits ≠ [])
    (hdigits : digits.all Char.isDigit = true) : BeginsNumber digits := by
  obtain ⟨c, rest, rfl⟩ := List.exists_cons_of_ne_nil hne
  rw [List.all_cons, Bool.and_eq_true] at hdigits
  exact ⟨c, rest, rfl, .inl hdigits.1⟩

/-! ## Integers -/

namespace Integer

/-- How an integer is spelled: at most one sign, and one digit or more. -/
inductive Spelled : List Char → Int → Prop where
  | mk {sign : Option Sign} {digits : List Char} : digits ≠ [] → digits.all Char.isDigit = true →
      Spelled (signedText sign digits)
        (if sign = some .minus then -(Token.positional 10 digits : Int)
          else Token.positional 10 digits)

/-- The sign that is split off a text stands in front of the rest. -/
theorem split_sign_signed (text : List Char) :
    ∃ sign : Option Sign, text = signedText sign (splitSign text).2 ∧
      (splitSign text).1 = decide (sign = some .minus) := by
  unfold splitSign
  split
  · exact ⟨some .minus, rfl, rfl⟩
  · exact ⟨some .plus, rfl, rfl⟩
  · exact ⟨none, rfl, rfl⟩

/-- Integers are read from their spellings. -/
theorem read_iff {text : String} {n : Int} : read? text = some n ↔ Spelled text.toList n := by
  constructor
  · intro h
    obtain ⟨sign, htext, -⟩ := split_sign_signed text.toList
    have hparts : (splitSign text.toList).2 ≠ [] ∧
        (splitSign text.toList).2.all Char.isDigit = true := by
      unfold read? at h
      simp only [Option.ite_none_left_eq_some, Bool.or_eq_true, not_or] at h
      simpa using h.1
    generalize (splitSign text.toList).2 = digits at htext hparts
    obtain ⟨hne, hdigits⟩ := hparts
    rw [← String.ofList_toList (s := text), htext,
      (begins_of_digits hne hdigits).read_eq, if_pos hdigits, Token.of_decimal_digits hdigits] at h
    cases h
    exact htext ▸ .mk hne hdigits
  · intro h
    obtain ⟨source, hsource⟩ : ∃ source, text.toList = source := ⟨_, rfl⟩
    rw [hsource] at h
    rw [← String.ofList_toList (s := text), hsource]
    cases h with
    | mk hne hdigits =>
        rw [(begins_of_digits hne hdigits).read_eq, if_pos hdigits,
          Token.of_decimal_digits hdigits]

/-- Integers that fit a word are read from their spellings. -/
theorem read_word_iff {text : String} {word : Int64} :
    readWord? text = some word ↔ Spelled text.toList word.toInt := by
  unfold readWord?
  rw [← read_iff]
  change (read? text).bind narrow = some word ↔ _
  simp only [Option.bind_eq_some_iff, narrow_eq_some_iff]
  exact ⟨fun ⟨n, hread, heq⟩ => heq ▸ hread, fun h => ⟨_, h, rfl⟩⟩

/-- Nothing else is read as an integer that fits a word. -/
theorem read_word_eq_none_iff {text : String} :
    readWord? text = none ↔ ∀ word : Int64, ¬ Spelled text.toList word.toInt := by
  simp only [Option.eq_none_iff_forall_ne_some, ne_eq, read_word_iff]

/-- The spelling of an integer begins with a sign or a digit. -/
theorem Spelled.begins {text : List Char} {n : Int} (h : Spelled text n) :
    ∃ c rest, text = c :: rest ∧ Decimal.isNumberChar c = true := by
  cases h with
  | mk hne hdigits => exact (begins_of_digits hne hdigits).signed _

/-- The spelling of an integer has the characters of numbers. -/
theorem Spelled.number_chars {text : List Char} {n : Int} (h : Spelled text n) :
    text.all Decimal.isNumberChar = true := by
  cases h with
  | @mk sign digits hne hdigits =>
      rw [signedText, List.all_append, Decimal.number_chars_of_digits hdigits]
      rcases sign with _ | _ | _ <;> rfl

end Integer

/-! ## Decimal numbers -/

namespace Decimal

/-- How the digits after a point are spelled, with the point, or neither. -/
inductive FractionSpelled : List Char → List Char → Prop where
  | none : FractionSpelled [] []
  | point {digits} : digits.all Char.isDigit = true → FractionSpelled ('.' :: digits) digits

/-- After a point there are digits. -/
theorem FractionSpelled.digits {point fraction : List Char} (h : FractionSpelled point fraction) :
    fraction.all Char.isDigit = true := by
  cases h with
  | none => rfl
  | point hdigits => exact hdigits

/-- How an exponent is spelled, with its mark, or neither. -/
inductive ExponentSpelled : List Char → Int → Prop where
  | none : ExponentSpelled [] 0
  | mark {c text n} : c = 'e' ∨ c = 'E' → Integer.Spelled text n → ExponentSpelled (c :: text) n

/-- An exponent begins with its mark, which is no digit. -/
theorem ExponentSpelled.head {text : List Char} {n : Int} (h : ExponentSpelled text n) :
    ∀ c ∈ text.head?, c.isDigit = false := by
  cases h with
  | none => nofun
  | mark hmark _ =>
      rintro c ⟨⟩
      rcases hmark with rfl | rfl <;> rfl

/-- How a number is spelled without a sign: digits with at most one point among or beside them, and
an exponent of ten or none. -/
inductive Spelled : List Char → ℚ → Prop where
  | mk {whole point fraction exponent power} : whole.all Char.isDigit = true →
      FractionSpelled point fraction → whole ++ fraction ≠ [] → ExponentSpelled exponent power →
      Spelled (whole ++ point ++ exponent)
        (Token.positional 10 (whole ++ fraction) * 10 ^ (power - fraction.length))

/-- Exponents are read from their spellings. -/
theorem read_exponent_iff {text : List Char} {n : Int} :
    readExponent? text = some n ↔ ExponentSpelled text n := by
  cases text with
  | nil =>
      constructor
      · rintro ⟨⟩
        exact .none
      · rintro ⟨⟩
        rfl
  | cons mark rest =>
      have hread : readExponent? (mark :: rest) =
          if mark = 'e' ∨ mark = 'E' then Integer.read? (String.ofList rest) else none := by
        rw [readExponent?, Integer.read?, String.toList_ofList]
        generalize Integer.splitSign rest = parts
        by_cases hmark : mark = 'e' ∨ mark = 'E'
        · cases hempty : parts.2.isEmpty <;> cases hdigits : parts.2.all Char.isDigit <;>
            simp [hmark, hempty, hdigits]
        · simp [hmark]
      rw [hread, Option.ite_none_right_eq_some, Integer.read_iff, String.toList_ofList]
      constructor
      · rintro ⟨hmark, hspelled⟩
        exact .mark hmark hspelled
      · rintro ⟨⟩
        next hmark hspelled => exact ⟨hmark, hspelled⟩

/-- What is read as a decimal number is spelled so. -/
theorem spelled_of_read {text : List Char} {x : Decimal} (h : read? text = some x) :
    Spelled text x.value := by
  unfold read? at h
  split at h
  next whole rest hsplit =>
    obtain ⟨rfl, hwhole⟩ := Token.split_digits_sound hsplit
    split at h
    next fraction tail hfraction =>
      split at h
      · cases h
      next hne =>
      obtain ⟨power, hexponent, hx⟩ := Option.bind_eq_some_iff.mp h
      obtain ⟨point, rfl, hpoint⟩ :
          ∃ point, rest = point ++ tail ∧ FractionSpelled point fraction := by
        split at hfraction
        · next following =>
            obtain ⟨rfl, hdigits⟩ := Token.split_digits_sound hfraction
            exact ⟨'.' :: fraction, rfl, .point hdigits⟩
        · cases hfraction
          exact ⟨[], rfl, .none⟩
      have hne : whole ++ fraction ≠ [] := by simpa using hne
      have hdigits : (whole ++ fraction).all Char.isDigit = true := by
        rw [List.all_append, hwhole, hpoint.digits]
        rfl
      cases hx
      rw [← List.append_assoc, value, Token.of_decimal_digits hdigits]
      exact .mk hwhole hpoint hne (read_exponent_iff.mp hexponent)

/-- What is spelled as a decimal number is read as one. -/
theorem read_of_spelled {text : List Char} {q : ℚ} (h : Spelled text q) :
    ∃ x, read? text = some x ∧ x.value = q := by
  cases h with
  | @mk whole point fraction exponent power hwhole hpoint hne hexponent =>
      have hdigits : (whole ++ fraction).all Char.isDigit = true := by
        rw [List.all_append, hwhole, hpoint.digits]
        rfl
      refine ⟨⟨Integer.ofDigits 10 (whole ++ fraction), power - fraction.length⟩, ?_, ?_⟩
      · unfold read?
        rw [List.append_assoc]
        have hread := read_exponent_iff.mpr hexponent
        rw [Ne, List.append_eq_nil_iff] at hne
        cases hpoint with
        | none =>
            have hsplit := Token.split_digits_append hwhole hexponent.head
            rw [and_iff_left rfl] at hne
            rw [List.nil_append, hsplit]
            cases hexponent with
            | none => simp [hne, hread]
            | mark hmark => rcases hmark with rfl | rfl <;> simp [hne, hread]
        | point hfraction =>
            have hsplit := Token.split_digits_append hfraction hexponent.head
            rw [List.cons_append, Token.split_digits_append hwhole (by simp)]
            simp only [hsplit, hread]
            simp [hne]
      · rw [value, Token.of_decimal_digits hdigits]

/-- The spelling of a decimal number begins with a digit or a point. -/
theorem Spelled.begins {text : List Char} {q : ℚ} (h : Spelled text q) : BeginsNumber text := by
  cases h with
  | @mk whole point fraction exponent power hwhole hpoint hne =>
      cases whole with
      | nil =>
          cases hpoint with
          | none => exact absurd rfl hne
          | point hdigits => exact ⟨'.', _, rfl, .inr rfl⟩
      | cons c rest =>
          rw [List.all_cons, Bool.and_eq_true] at hwhole
          exact ⟨c, _, rfl, .inl hwhole.1⟩

end Decimal

/-! ## Doubles -/

/-- How a double is spelled: at most one sign, and a decimal number that the double is nearest to
and that is within the range of doubles. -/
inductive Double.Spelled : List Char → Float → Prop where
  | mk {sign : Option Sign} {source : List Char} {q : ℚ} {x : Float} :
      Decimal.Spelled source q → NearestTo q (parts x) → x.isFinite = true →
      Spelled (signedText sign source) (if sign = some .minus then -x else x)

/-- Finite doubles are read from their spellings. -/
theorem Decimal.read_finite_iff {text : String} {x : Float} :
    readFinite? text = some x ↔ Double.Spelled text.toList x := by
  constructor
  · intro h
    obtain ⟨sign, htext, hnegative⟩ := Integer.split_sign_signed text.toList
    obtain ⟨number, hread, hfinite⟩ := Option.bind_eq_some_iff.mp h
    rw [Option.ite_none_right_eq_some, Option.some_inj] at hfinite
    obtain ⟨hfinite, rfl⟩ := hfinite
    unfold readFloat? at hread
    generalize Integer.splitSign text.toList = parts at htext hnegative hread
    obtain ⟨negative, source⟩ := parts
    dsimp only at htext hnegative hread
    subst hnegative
    obtain ⟨magnitude, hmagnitude, rfl⟩ := Option.map_eq_some_iff.mp hread
    have hmagnitudeFinite : magnitude.isFinite = true := by
      split at hfinite
      · rwa [Double.is_finite_neg] at hfinite
      · exact hfinite
    obtain ⟨decimal, hdecimal, rfl⟩ : ∃ decimal, read? source = some decimal ∧
        decimal.toFloat = magnitude := by
      -- The words for the infinity and for no number give nothing finite.
      split at hmagnitude
      · cases hmagnitude
        cases hmagnitudeFinite
      · cases hmagnitude
        cases hmagnitudeFinite
      · cases hmagnitude
        cases hmagnitudeFinite
      · exact Option.map_eq_some_iff.mp hmagnitude
    rw [htext]
    simp only [decide_eq_true_eq]
    exact .mk (spelled_of_read hdecimal) (Double.nearest_of_decimal decimal) hmagnitudeFinite
  · intro h
    obtain ⟨source, hsource⟩ : ∃ source, text.toList = source := ⟨_, rfl⟩
    rw [hsource] at h
    rw [← String.ofList_toList (s := text), hsource]
    cases h with
    | @mk sign source q x hspelled hnearest hfinite =>
        obtain ⟨decimal, hread, rfl⟩ := read_of_spelled hspelled
        obtain rfl : decimal.toFloat = x :=
          Double.eq_of_parts ((Double.nearest_of_decimal decimal).unique hnearest)
        rw [hspelled.begins.read_finite_eq, hread]
        exact if_pos hfinite

/-- Nothing else is read as a finite double. -/
theorem Decimal.read_finite_eq_none_iff {text : String} :
    readFinite? text = none ↔ ∀ x, ¬ Double.Spelled text.toList x := by
  simp only [Option.eq_none_iff_forall_ne_some, ne_eq, read_finite_iff]

/-- The spelling of a double begins with a sign, a digit or a point. -/
theorem Double.Spelled.begins {text : List Char} {x : Float} (h : Double.Spelled text x) :
    ∃ c rest, text = c :: rest ∧ Decimal.isNumberChar c = true := by
  cases h with
  | mk hspelled => exact hspelled.begins.signed _

end MessageSelector
