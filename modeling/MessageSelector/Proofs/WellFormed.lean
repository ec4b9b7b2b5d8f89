import MessageSelector.Expr.Parsing
import MessageSelector.Proofs.Doubles.Parts
import MessageSelector.Proofs.Grammar.Soundness
import MessageSelector.Proofs.Meanings
import MessageSelector.Proofs.Scanning

/-!
# Well-formed expressions

What may be said of every expression that a text can produce, at every node of it. A phrase means a
well-formed expression when the identifiers among its tokens are well formed, whatever parentheses
stand around its parts, and scanning makes no other identifiers. `parse_well_formed` puts the two
together.
-/

namespace MessageSelector

namespace Expr

/-- Whether a sign stays in front of an operand. It is part of every number that has it, and the
least integer is the one whose opposite is none. -/
def KeepsSign (sign : Sign) : Expr → Prop
  | literal value => value.isNumeric → sign = .minus ∧ value = .integer Int64.minValue
  | _ => True

/-- An expression that may be written down: at every node of it, names are identifiers, numbers are
finite and carry their signs, and tests by name are put to a name. -/
def WellFormed : Expr → Prop
  | identifier name => IsIdentifier name
  | literal (.float number) => number.isFinite
  | literal _ => True
  | not operand => operand.WellFormed
  | and left right | or left right | comparison _ left right | arithmetic _ left right =>
    left.WellFormed ∧ right.WellFormed
  | signed sign operand => operand.WellFormed ∧ operand.KeepsSign sign
  | between operand low high _ => operand.WellFormed ∧ low.WellFormed ∧ high.WellFormed
  | inList operand items _ =>
    (∃ name, operand = identifier name) ∧ operand.WellFormed ∧ items ≠ []
  | like operand pattern _ =>
    (∃ name, operand = identifier name) ∧ operand.WellFormed ∧
      (Like.items? pattern.escape pattern.text.toList).isSome
  | isNull operand _ => (∃ name, operand = identifier name) ∧ operand.WellFormed

/-- A number under a sign is as finite as it was. -/
theorem signed_well_formed {sign : Sign} {value number : Value} (h : (literal value).WellFormed)
    (hsigned : value.signed? sign = some number) : (literal number).WellFormed := by
  cases sign with
  | plus =>
      simp only [Value.signed?, Option.ite_none_right_eq_some, Option.some.injEq] at hsigned
      obtain ⟨-, rfl⟩ := hsigned
      exact h
  | minus =>
      cases value with
      | string | boolean => cases hsigned
      | integer _ =>
          obtain ⟨opposite, -, rfl⟩ := Option.map_eq_some_iff.mp hsigned
          trivial
      | float x =>
          cases hsigned
          exact (Double.is_finite_neg x).trans h

/-- A sign in front of a well-formed operand is taken up by it or stays where it may. -/
theorem with_sign_well_formed {operand : Expr} (h : operand.WellFormed) (sign : Sign) :
    (operand.withSign sign).WellFormed := by
  cases operand with
  | literal value =>
      cases hsigned : value.signed? sign with
      | none =>
          rw [with_sign_of_none hsigned]
          exact ⟨h, Value.signed_eq_none hsigned⟩
      | some number =>
          rw [with_sign_of_some hsigned]
          exact signed_well_formed h hsigned
  | _ => exact ⟨h, trivial⟩

end Expr

namespace Phrase

/-- A phrase of well-formed identifiers means a well-formed expression, if it means one. -/
theorem meaning_well_formed {text : List Char} {phrase : Phrase} {tokens : List Token}
    (hspells : Spells phrase tokens)
    (hwords : ∀ token ∈ tokens, ∀ name, token.lexeme = .identifier name → IsIdentifier name)
    {e : Expr} (h : phrase.meaning text = .ok e) : e.WellFormed := by
  induction hspells generalizing e with
  | identifier span name =>
      cases h
      exact hwords _ (List.mem_singleton.mpr rfl) name rfl
  | string | boolean =>
      cases h
      trivial
  | unclosedString => cases h
  | float span literal =>
      obtain ⟨number, hnumber, rfl⟩ := (float_meaning_ok_iff _ _ _).mp h
      exact float_value_finite hnumber
  | integer span literal =>
      obtain ⟨number, -, rfl⟩ := (integer_meaning_ok_iff _ _ _ _).mp h
      trivial
  | group _ _ _ ih => exact ih (fun token hmem => hwords token (by simp [hmem])) h
  | signed mark sign _ _ ih =>
      obtain ⟨inner, hinner, rfl⟩ | ⟨span, literal, rfl, rfl, hinteger⟩ := meaning_signed_ok h
      · exact Expr.with_sign_well_formed
          (ih (fun token hmem => hwords token (by simp [hmem])) hinner) sign
      · obtain ⟨number, -, rfl⟩ := (integer_meaning_ok_iff _ _ _ _).mp hinteger
        trivial
  | arithmetic _ _ _ _ _ _ ihLeft ihRight | comparison _ _ _ _ _ _ ihLeft ihRight
  | and _ _ _ _ _ ihLeft ihRight | or _ _ _ _ _ ihLeft ihRight =>
      rw [meaning] at h
      simp only [bind_ok_iff] at h
      obtain ⟨left, hleft, right, hright, heq⟩ := h
      cases heq
      exact ⟨ihLeft (fun token hmem => hwords token (by simp [hmem])) hleft,
        ihRight (fun token hmem => hwords token (by simp [hmem])) hright⟩
  | between _ _ _ _ _ _ _ _ _ ih ihLow ihHigh =>
      rw [meaning] at h
      simp only [bind_ok_iff] at h
      obtain ⟨operand, hoperand, low, hlow, high, hhigh, heq⟩ := h
      cases heq
      exact ⟨ih (fun token hmem => hwords token (by simp [hmem])) hoperand,
        ihLow (fun token hmem => hwords token (by simp [hmem])) hlow,
        ihHigh (fun token hmem => hwords token (by simp [hmem])) hhigh⟩
  | inList _ _ _ item _ _ _ _ ih =>
      rw [meaning] at h
      simp only [bind_ok_iff, require_identifier_ok_iff] at h
      obtain ⟨operand, hoperand, _, hname, heq⟩ := h
      cases heq
      exact ⟨hname, ih (fun token hmem => hwords token (by simp [hmem])) hoperand, by simp⟩
  | like _ _ _ _ _ _ ih =>
      rw [meaning] at h
      simp only [bind_ok_iff, require_identifier_ok_iff] at h
      obtain ⟨operand, hoperand, _, hname, pattern, _, heq⟩ := h
      cases heq
      exact ⟨hname, ih (fun token hmem => hwords token (by simp [hmem])) hoperand, pattern.complete⟩
  | isNull _ _ _ _ _ ih =>
      rw [meaning] at h
      simp only [bind_ok_iff, require_identifier_ok_iff] at h
      obtain ⟨operand, hoperand, _, hname, heq⟩ := h
      cases heq
      exact ⟨hname, ih (fun token hmem => hwords token (by simp [hmem])) hoperand⟩
  | cutShort =>
      rw [meaning, bind_ok_iff] at h
      obtain ⟨_, _, heq⟩ := h
      cases heq
  | not _ _ _ ih =>
      rw [meaning, bind_ok_iff] at h
      obtain ⟨operand, hoperand, heq⟩ := h
      cases heq
      change operand.WellFormed
      exact ih (fun token hmem => hwords token (by simp [hmem])) hoperand

end Phrase

namespace Expr

/-- An expression read from a text comes from a phrase that the tokens of the text spell. -/
theorem of_chars_ok {text : List Char} {e : Expr} (h : ofChars text = .ok (some e)) :
    Nesting.tooDeep? text = none ∧ ∃ phrase tokens stop,
      Token.scan text = tokens ++ [⟨.endOfText, stop⟩] ∧ Spells phrase tokens ∧
        phrase.meaning text = .ok e := by
  unfold ofChars at h
  split at h
  · cases h
  · next hnesting =>
      split at h
      · cases h
      · cases h
      · next phrase hphrase =>
          obtain ⟨tokens, stop, htokens, hspells⟩ := Phrase.scan_of_some hphrase
          refine ⟨hnesting, phrase, tokens, stop, htokens, hspells, ?_⟩
          cases hmeaning : phrase.meaning text with
          | error fault => rw [hmeaning] at h; cases h
          | ok result => rw [hmeaning] at h; cases h; rfl

/-- A text without an expression has no tokens but its end. -/
theorem of_chars_none {text : List Char} (h : ofChars text = .ok none) :
    ∃ stop, Token.scan text = [⟨.endOfText, stop⟩] := by
  unfold ofChars at h
  split at h
  · cases h
  · split at h
    · cases h
    · next hread => exact Phrase.scan_of_none hread
    · next phrase hread =>
        cases hmeaning : phrase.meaning text with
        | error fault => rw [hmeaning] at h; cases h
        | ok e => rw [hmeaning] at h; cases h

/-- A text is accepted for its characters. -/
theorem parse_eq_ok_iff (text : String) (result : Option Expr) :
    parse text = .ok result ↔ ofChars text.toList = .ok result := by
  unfold parse
  cases ofChars text.toList <;> simp [Except.mapError]

/-- A text that is accepted is accepted for its characters. -/
theorem of_parse_ok {text : String} {result : Option Expr} (h : parse text = .ok result) :
    ofChars text.toList = .ok result :=
  (parse_eq_ok_iff text result).mp h

/-- A text is rejected for the fault in its characters. -/
theorem parse_error_iff (text : String) (fault : Fault) :
    parse text = .error ⟨text, fault⟩ ↔ ofChars text.toList = .error fault := by
  unfold parse
  cases ofChars text.toList <;> simp [Except.mapError]

/-- A rejection has the text that is rejected and the fault in its characters. -/
theorem of_parse_error {text : String} {rejection : Rejection}
    (h : parse text = .error rejection) :
    rejection.text = text ∧ ofChars text.toList = .error rejection.fault := by
  unfold parse at h
  cases hchars : ofChars text.toList with
  | error fault =>
      rw [hchars] at h
      cases h
      exact ⟨rfl, rfl⟩
  | ok result =>
      rw [hchars] at h
      cases h

/-- What a phrase of a text means is well formed, since scanning makes no other identifiers. -/
theorem well_formed_of_scan {text : List Char} {phrase : Phrase} {tokens : List Token} {stop : Span}
    {e : Expr} (htokens : Token.scan text = tokens ++ [⟨.endOfText, stop⟩])
    (hspells : Spells phrase tokens) (hmeaning : phrase.meaning text = .ok e) : e.WellFormed := by
  refine phrase.meaning_well_formed hspells ?_ hmeaning
  intro token hmem name hname
  have hscan : token ∈ Token.scan text := by
    rw [htokens]
    exact List.mem_append_left _ hmem
  exact Token.is_identifier_of_scan hscan hname

/-- Every expression that a text has is well formed at every node. -/
theorem parse_well_formed {text : String} {e : Expr} (h : parse text = .ok (some e)) :
    e.WellFormed := by
  obtain ⟨-, phrase, tokens, stop, htokens, hspells, hmeaning⟩ := of_chars_ok (of_parse_ok h)
  exact well_formed_of_scan htokens hspells hmeaning

/-- A sign stays in front of a name and is part of a number, through parentheses too. -/
theorem parse_well_formed_signs :
    parse "-x > - (5)" = .ok (some (.comparison .greater (.signed .minus (.identifier "x"))
        (.literal (.integer (-5))))) ∧
      (comparison .greater (.signed .minus (.identifier "x"))
        (.literal (.integer (-5)))).WellFormed := by
  have h : parse "-x > - (5)" = .ok (some (.comparison .greater (.signed .minus (.identifier "x"))
      (.literal (.integer (-5))))) := by
    cbv
  exact ⟨h, parse_well_formed h⟩

end Expr

end MessageSelector
