import Mathlib.Algebra.Group.Int.Defs
import MessageSelector.Phrase.Meaning
import MessageSelector.Proofs.Outcomes

/-!
# When a phrase has a meaning

A phrase has a meaning when its parts have one and the test on them is passed. The one place where
the meaning of a phrase is not made from the meanings of its parts is a minus in front of an integer
literal, and `meaning_signed_ok` keeps that case apart.
-/

namespace MessageSelector

/-! ## Integers that fit a word -/

namespace Integer

/-- An integer is represented by the word of the same value, and by no other. -/
theorem narrow_eq_some_iff (n : Int) (word : Int64) : narrow n = some word ↔ word.toInt = n := by
  have hge := word.le_toInt
  have hlt := word.toInt_lt
  unfold narrow
  constructor
  · intro h
    split at h
    · next hrange =>
        cases h
        exact Int64.toInt_ofInt_of_le hrange.1 hrange.2
    · cases h
  · rintro rfl
    rw [if_pos ⟨hge, hlt⟩, Int64.ofInt_toInt]

/-- An integer is represented by no word where it is out of range. -/
theorem narrow_eq_none_iff (n : Int) : narrow n = none ↔ n < -2 ^ 63 ∨ 2 ^ 63 ≤ n := by
  unfold narrow
  split
  · simp
    omega
  · simp
    omega

end Integer

/-! ## Signs -/

/-- A number has no opposite where it is the least integer. -/
theorem Value.signed_eq_none {sign : Sign} {value : Value} (h : value.signed? sign = none)
    (hnumeric : value.isNumeric = true) : sign = .minus ∧ value = .integer Int64.minValue := by
  cases sign with
  | plus => simp [Value.signed?, hnumeric] at h
  | minus =>
      cases value with
      | integer number =>
          have hge := number.le_toInt
          have hlt := number.toInt_lt
          have hrange : Integer.narrow (-number.toInt) = none := by
            simpa [Value.signed?, Value.negate?] using h
          rw [Integer.narrow_eq_none_iff] at hrange
          refine ⟨rfl, congrArg Value.integer (Int64.toInt_inj.mp ?_)⟩
          rw [Int64.toInt_minValue]
          omega
      | float number => simp [Value.signed?, Value.negate?] at h
      | string | boolean => cases hnumeric

namespace Expr

/-- A sign is taken up by a literal that has a number under it. -/
theorem with_sign_of_some {sign : Sign} {value number : Value}
    (h : value.signed? sign = some number) :
    (literal value).withSign sign = literal number := by
  simp only [withSign, h]

/-- A sign stays in front of a literal that has no number under it. -/
theorem with_sign_of_none {sign : Sign} {value : Value} (h : value.signed? sign = none) :
    (literal value).withSign sign = signed sign (literal value) := by
  simp only [withSign, h]

end Expr

/-! ## Meanings -/

namespace Phrase

/-- A test by name is passed by names alone. -/
theorem require_identifier_ok_iff (text : List Char) (test : NameTest) (phrase : Phrase)
    (operand : Expr) (result : Unit) :
    requireIdentifier text test phrase operand = .ok result ↔
      ∃ name, operand = .identifier name := by
  cases operand <;> simp [requireIdentifier]

/-- An integer literal means the word of its value. -/
theorem integer_meaning_ok_iff (span : Span) (text : String) (value : Int) (e : Expr) :
    integerMeaning span text value = .ok e ↔
      ∃ number : Int64, number.toInt = value ∧ e = .literal (.integer number) := by
  unfold integerMeaning
  split
  · next number hnarrow =>
      rw [Integer.narrow_eq_some_iff] at hnarrow
      subst hnarrow
      simp only [Except.ok.injEq, Int64.toInt_inj]
      exact ⟨fun h => ⟨number, rfl, h.symm⟩, fun ⟨_, rfl, h⟩ => h.symm⟩
  · next hnarrow =>
      simp only [reduceCtorEq, false_iff]
      rintro ⟨number, hvalue, -⟩
      rw [← Integer.narrow_eq_some_iff, hnarrow] at hvalue
      cases hvalue

/-- A floating-point literal means the number it denotes. -/
theorem float_meaning_ok_iff (span : Span) (text : String) (e : Expr) :
    floatMeaning span text = .ok e ↔
      ∃ number, Token.floatValue? text = some number ∧ e = .literal (.float number) := by
  unfold floatMeaning
  split
  · next number hvalue => simp [hvalue, eq_comm]
  · next hvalue => simp [hvalue]

/-- An integer literal is blamed where its value is out of range. -/
theorem integer_meaning_error_iff (span : Span) (text : String) (value : Int) (fault : Fault) :
    integerMeaning span text value = .error fault ↔
      Integer.narrow value = none ∧ fault = .numberOutOfRange text span := by
  unfold integerMeaning
  cases Integer.narrow value <;> simp [eq_comm]

/-- A floating-point literal is blamed where it denotes no number. -/
theorem float_meaning_error_iff (span : Span) (text : String) (fault : Fault) :
    floatMeaning span text = .error fault ↔
      Token.floatValue? text = none ∧ fault = .numberOutOfRange text span := by
  unfold floatMeaning
  cases Token.floatValue? text <;> simp [eq_comm]

/-- The number that a floating-point literal denotes is finite. -/
theorem float_value_finite {text : String} {number : Float}
    (h : Token.floatValue? text = some number) : number.isFinite = true := by
  unfold Token.floatValue? at h
  simp only [Option.bind_eq_bind, Option.bind_eq_some_iff] at h
  obtain ⟨decimal, -, h⟩ := h
  split at h
  · next hfinite =>
      cases h
      exact hfinite
  · cases h

/-- A phrase that is no integer literal means under a sign what the sign makes of its meaning. -/
theorem meaning_signed_other {operand : Phrase} (text : List Char) (mark : Span) {sign : Sign}
    (h : ∀ span literal, sign = .minus → operand ≠ integer span literal) :
    (signed mark sign operand).meaning text = (operand.meaning text).map (·.withSign sign) := by
  rw [meaning]
  · cases operand.meaning text <;> rfl
  · exact h

/-- A phrase under a sign means what the sign makes of its meaning, except that a minus and an
integer literal mean the negative integer at once. -/
theorem meaning_signed_ok {text : List Char} {mark : Span} {sign : Sign} {operand : Phrase}
    {e : Expr} (h : (signed mark sign operand).meaning text = .ok e) :
    (∃ inner, operand.meaning text = .ok inner ∧ e = inner.withSign sign) ∨
      ∃ span literal, sign = .minus ∧ operand = .integer span literal ∧
        integerMeaning span literal (-Token.integerValue literal) = .ok e := by
  by_cases hinteger : ∃ span literal, sign = .minus ∧ operand = .integer span literal
  · obtain ⟨span, literal, rfl, rfl⟩ := hinteger
    exact .inr ⟨span, literal, rfl, rfl, h⟩
  · rw [meaning, bind_ok_iff] at h
    · obtain ⟨inner, hinner, heq⟩ := h
      cases heq
      exact .inl ⟨inner, hinner, rfl⟩
    · intro span literal hsign hoperand
      exact hinteger ⟨span, literal, hsign, hoperand⟩

end Phrase

end MessageSelector
