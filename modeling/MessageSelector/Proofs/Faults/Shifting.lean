import MessageSelector.Proofs.Pairs.Sources

/-!
# Texts inside other texts

What is in front of a text shifts the places of its tokens, of its phrases and of its faults, and
what is behind it changes nothing. `Spells.shift` says that the grammar does not know of places, and
`Spells.meaning_shift` that a phrase elsewhere has the same meaning or the same fault, shifted.
-/

namespace MessageSelector

open MessageSelector.Expr (Binding)

/-! ## Places -/

/-- A stretch of text so many bytes later. -/
def Span.shift (k : Nat) (span : Span) : Span :=
  ⟨span.start + k, span.length⟩

/-- A token so many bytes later. -/
def Token.shift (k : Nat) (token : Token) : Token :=
  ⟨token.lexeme, token.span.shift k⟩

/-- A string literal so many bytes later. -/
def QuotedString.shift (k : Nat) (literal : QuotedString) : QuotedString :=
  ⟨literal.span.shift k, literal.contents⟩

/-- A phrase so many bytes later. -/
def Phrase.shift (k : Nat) : Phrase → Phrase
  | identifier span name => identifier (span.shift k) name
  | string literal => string (literal.shift k)
  | unclosedString span => unclosedString (span.shift k)
  | float span literal => float (span.shift k) literal
  | integer span literal => integer (span.shift k) literal
  | boolean span flag => boolean (span.shift k) flag
  | group leftParen inner rightParen =>
    group (leftParen.shift k) (inner.shift k) (rightParen.shift k)
  | signed mark sign operand => signed (mark.shift k) sign (operand.shift k)
  | arithmetic op left right => arithmetic op (left.shift k) (right.shift k)
  | comparison op left right => comparison op (left.shift k) (right.shift k)
  | between operand low high negated =>
    between (operand.shift k) (low.shift k) (high.shift k) negated
  | inList operand items rightParen negated =>
    inList (operand.shift k) (items.map (·.shift k)) (rightParen.shift k) negated
  | like operand pattern escape negated =>
    like (operand.shift k) (pattern.shift k) (escape.map (·.shift k)) negated
  | isNull operand nullKeyword negated =>
    isNull (operand.shift k) (nullKeyword.shift k) negated
  | cutShort operand unclosed => cutShort (operand.shift k) (unclosed.shift k)
  | not keyword operand => not (keyword.shift k) (operand.shift k)
  | and left right => and (left.shift k) (right.shift k)
  | or left right => or (left.shift k) (right.shift k)

/-- A fault so many bytes later. What it says besides its place stays. -/
def Fault.shift (k : Nat) : Fault → Fault
  | unexpected position expected => unexpected (position + k) expected
  | unterminatedString span => unterminatedString (span.shift k)
  | identifierRequired test found span => identifierRequired test found (span.shift k)
  | invalidEscape escape span => invalidEscape escape (span.shift k)
  | danglingEscape span => danglingEscape (span.shift k)
  | numberOutOfRange literal span => numberOutOfRange literal (span.shift k)
  | nestingTooDeep span => nestingTooDeep (span.shift k)

variable (k : Nat)

/-- Zero bytes later is the same place. -/
@[simp] theorem Span.shift_zero (span : Span) : span.shift 0 = span :=
  rfl

@[simp] theorem QuotedString.shift_zero (literal : QuotedString) : literal.shift 0 = literal :=
  rfl

@[simp] theorem QuotedString.shift_contents (literal : QuotedString) :
    (literal.shift k).contents = literal.contents :=
  rfl

@[simp] theorem Phrase.shift_zero (phrase : Phrase) : phrase.shift 0 = phrase := by
  induction phrase <;> simp [shift, *]

@[simp] theorem Fault.shift_zero (fault : Fault) : fault.shift 0 = fault := by
  cases fault <;> rfl

@[simp] theorem Span.shift_stop (span : Span) : (span.shift k).stop = span.stop + k := by
  simp only [shift, stop]
  omega

@[simp] theorem Phrase.shift_start (phrase : Phrase) :
    (phrase.shift k).start = phrase.start + k := by
  induction phrase <;> simp_all [shift, start, Span.shift, QuotedString.shift]

@[simp] theorem Phrase.shift_stop (phrase : Phrase) : (phrase.shift k).stop = phrase.stop + k := by
  induction phrase with
  | like operand pattern escape => cases escape <;> simp [shift, stop, QuotedString.shift]
  | _ => simp_all [shift, stop, QuotedString.shift]

@[simp] theorem Phrase.shift_span (phrase : Phrase) :
    (phrase.shift k).span = phrase.span.shift k := by
  simp [span, Span.between, Span.shift, Nat.add_sub_add_right]

@[simp] theorem Phrase.shift_binding (phrase : Phrase) :
    (phrase.shift k).binding = phrase.binding := by
  cases phrase <;> rfl

/-- What is in front of a text shifts its tokens. -/
theorem Token.scan_from_shift (position skip : Nat) (text : List Char) :
    scanFrom [] (position + k) skip text = (scanFrom [] position skip text).map (·.shift k) := by
  induction text generalizing position skip with
  | nil => rfl
  | cons c rest ih =>
      have hnext (skip : Nat) := ih (position + c.utf8Size) skip
      simp only [Nat.add_right_comm position c.utf8Size k] at hnext
      cases skip with
      | succ skip => exact hnext skip
      | zero =>
          cases hlayout : isLayout c with
          | true => rw [scan_from_layout hlayout, scan_from_layout hlayout, hnext]
          | false =>
              rw [scan_from_cons hlayout, scan_from_cons hlayout, hnext]
              rfl

/-! ## Spelling -/

section Spelling

variable {tokens : List Token}

/-- A negation may stand anywhere. -/
theorem SpellsNegation.shift {negated : Bool} (h : SpellsNegation negated tokens) :
    SpellsNegation negated (tokens.map (·.shift k)) := by
  cases h with
  | plain => exact .plain
  | negated span => exact .negated (span.shift k)

/-- The items of a list may stand anywhere. -/
theorem SpellsItems.shift {items : List QuotedString} (h : SpellsItems items tokens) :
    SpellsItems (items.map (·.shift k)) (tokens.map (·.shift k)) := by
  induction h with
  | nil => exact .nil
  | cons item comma _ ih => exact .cons (item.shift k) (comma.shift k) ih

/-- An escape clause may stand anywhere. -/
theorem SpellsEscape.shift {escape : Option QuotedString} (h : SpellsEscape escape tokens) :
    SpellsEscape (escape.map (·.shift k)) (tokens.map (·.shift k)) := by
  cases h with
  | absent => exact .absent
  | present mark escape => exact .present (mark.shift k) (escape.shift k)

/-- What is in front of an open string may stand anywhere. -/
theorem SpellsOpening.shift (h : SpellsOpening tokens) :
    SpellsOpening (tokens.map (·.shift k)) := by
  cases h with
  | inList inside leftParen hnegation hitems =>
      rw [List.map_append]
      exact .inList (inside.shift k) (leftParen.shift k) (hnegation.shift k) (hitems.shift k)
  | pattern word hnegation =>
      rw [List.map_append]
      exact .pattern (word.shift k) (hnegation.shift k)
  | escape word literal mark hnegation =>
      rw [List.map_append]
      exact .escape (word.shift k) (literal.shift k) (mark.shift k) (hnegation.shift k)

/-- A phrase may stand anywhere. -/
theorem Spells.shift {phrase : Phrase} (h : Spells phrase tokens) :
    Spells (phrase.shift k) (tokens.map (·.shift k)) := by
  induction h with
  | identifier span name => exact .identifier (span.shift k) name
  | string literal => exact .string (literal.shift k)
  | unclosedString span => exact .unclosedString (span.shift k)
  | float span literal => exact .float (span.shift k) literal
  | integer span literal => exact .integer (span.shift k) literal
  | boolean span flag => exact .boolean (span.shift k) flag
  | group leftParen rightParen _ ih =>
      rw [List.map_append]
      exact .group (leftParen.shift k) (rightParen.shift k) ih
  | signed mark sign _ hrank ih =>
      exact .signed (mark.shift k) sign ih (by rwa [Phrase.shift_binding])
  | arithmetic op span _ _ hleft hright ihLeft ihRight =>
      rw [List.map_append]
      exact .arithmetic op (span.shift k) ihLeft ihRight (by rwa [Phrase.shift_binding])
        (by rwa [Phrase.shift_binding])
  | comparison op span _ _ hleft hright ihLeft ihRight =>
      rw [List.map_append]
      exact .comparison op (span.shift k) ihLeft ihRight (by rwa [Phrase.shift_binding])
        (by rwa [Phrase.shift_binding])
  | between word joint _ hnegation _ _ hrank hlow hhigh ih ihLow ihHigh =>
      rw [List.map_append, List.map_append, List.map_append]
      exact .between (word.shift k) (joint.shift k) ih (hnegation.shift k) ihLow ihHigh
        (by rwa [Phrase.shift_binding]) (by rwa [Phrase.shift_binding])
        (by rwa [Phrase.shift_binding])
  | inList inside leftParen rightParen item _ hnegation hitems hrank ih =>
      simp only [Phrase.shift, List.map_append]
      exact .inList (inside.shift k) (leftParen.shift k) (rightParen.shift k) (item.shift k) ih
        (hnegation.shift k) (hitems.shift k) (by rwa [Phrase.shift_binding])
  | like word pattern _ hnegation hescape hrank ih =>
      rw [List.map_append, List.map_append]
      exact .like (word.shift k) (pattern.shift k) ih (hnegation.shift k) (hescape.shift k)
        (by rwa [Phrase.shift_binding])
  | isNull word nullKeyword _ hnegation hrank ih =>
      rw [List.map_append, List.map_append]
      exact .isNull (word.shift k) (nullKeyword.shift k) ih (hnegation.shift k)
        (by rwa [Phrase.shift_binding])
  | cutShort unclosed _ hopening hrank ih =>
      rw [List.map_append, List.map_append]
      exact .cutShort (unclosed.shift k) ih (hopening.shift k) (by rwa [Phrase.shift_binding])
  | not word _ hrank ih => exact .not (word.shift k) ih (by rwa [Phrase.shift_binding])
  | and word _ _ hleft hright ihLeft ihRight =>
      rw [List.map_append]
      exact .and (word.shift k) ihLeft ihRight (by rwa [Phrase.shift_binding])
        (by rwa [Phrase.shift_binding])
  | or word _ _ hleft hright ihLeft ihRight =>
      rw [List.map_append]
      exact .or (word.shift k) ihLeft ihRight (by rwa [Phrase.shift_binding])
        (by rwa [Phrase.shift_binding])

end Spelling

/-! ## Meanings -/

section Meanings

variable {text : List Char} {tokens : List Token} {phrase : Phrase}

/-- The tokens begin and end between characters of the text. -/
def Bounded (text : List Char) (tokens : List Token) : Prop :=
  ∀ token ∈ tokens, Boundary text token.span.start ∧ Boundary text token.span.stop

@[simp] theorem bounded_append (front back : List Token) :
    Bounded text (front ++ back) ↔ Bounded text front ∧ Bounded text back :=
  List.forall_mem_append

@[simp] theorem bounded_cons (token : Token) (rest : List Token) :
    Bounded text (token :: rest) ↔
      (Boundary text token.span.start ∧ Boundary text token.span.stop) ∧ Bounded text rest :=
  List.forall_mem_cons

/-- What stands in a text stands in a longer one, behind what is in front of the text. -/
theorem StandsAt.shift {span : Span} {source : List Char} (h : StandsAt text span source)
    (front back : List Char) :
    StandsAt (front ++ (text ++ back)) (span.shift (byteCount front)) source := by
  obtain ⟨before, after, rfl, rfl⟩ := h
  refine ⟨front ++ before, after ++ back, by simp, ?_⟩
  rw [byte_count_append, Nat.add_comm]
  rfl

/-- The stretch between two boundaries covers the same in a longer text. -/
theorem slice_between_shift {start stop : Nat} (hstart : Boundary text start)
    (hstop : Boundary text stop) (front back : List Char) :
    ((Span.between start stop).shift (byteCount front)).slice (front ++ (text ++ back)) =
      (Span.between start stop).slice text := by
  rcases Nat.lt_or_ge stop start with hgt | hle
  · have hempty (text : List Char) : Span.takeBytes text 0 [] = [] := by cases text <;> rfl
    simp only [Span.slice, Span.shift, Span.between, Nat.sub_eq_zero_of_le (Nat.le_of_lt hgt),
      hempty]
  · obtain ⟨source, hstands⟩ := stands_between hstart hstop hle
    rw [hstands.slice, (hstands.shift front back).slice]

/-- A phrase covers the same in a longer text. -/
theorem Spells.slice_shift (h : Spells phrase tokens) (hbounded : Bounded text tokens)
    (front back : List Char) :
    (phrase.shift (byteCount front)).span.slice (front ++ (text ++ back)) =
      phrase.span.slice text := by
  obtain ⟨first, last, hfirst, hlast, hspan⟩ := h.covers
  rw [Phrase.shift_span, hspan]
  exact slice_between_shift (hbounded first (List.mem_of_mem_head? hfirst)).1
    (hbounded last (List.mem_of_mem_getLast? hlast)).2 front back

namespace Phrase

/-- An integer literal denotes the same elsewhere. -/
theorem integer_meaning_shift (span : Span) (literal : String) (value : Int) :
    integerMeaning (span.shift k) literal value =
      (integerMeaning span literal value).mapError (.shift k) := by
  unfold integerMeaning
  cases Integer.narrow value <;> rfl

/-- A floating-point literal denotes the same elsewhere. -/
theorem float_meaning_shift (span : Span) (literal : String) :
    floatMeaning (span.shift k) literal = (floatMeaning span literal).mapError (.shift k) := by
  unfold floatMeaning
  cases Token.floatValue? literal <;> rfl

/-- A pattern denotes the same elsewhere. -/
theorem pattern_meaning_shift (pattern : QuotedString) (escape : Option QuotedString) :
    patternMeaning (pattern.shift k) (escape.map (·.shift k)) =
      (patternMeaning pattern escape).mapError (.shift k) := by
  have hcontents : (escape.map (·.shift k)).map (·.contents) = escape.map (·.contents) := by
    cases escape <;> rfl
  have hplace : (escape.map (·.shift k)).getD (pattern.shift k) =
      (escape.getD pattern).shift k := by
    cases escape <;> rfl
  simp only [patternMeaning, hcontents, hplace, QuotedString.shift_contents]
  cases Like.Pattern.ofText pattern.contents (escape.map (·.contents)) with
  | ok compiled => rfl
  | error fault => cases fault <;> rfl

/-- A test by name is passed elsewhere or fails there with the same words. -/
theorem require_identifier_shift (h : Spells phrase tokens) (hbounded : Bounded text tokens)
    (test : NameTest) (operand : Expr) (front back : List Char) :
    requireIdentifier (front ++ (text ++ back)) test (phrase.shift (byteCount front)) operand =
      (requireIdentifier text test phrase operand).mapError (.shift (byteCount front)) := by
  have hslice := h.slice_shift hbounded front back
  unfold requireIdentifier
  rw [hslice, shift_span]
  cases operand <;> rfl

end Phrase

/-- In a longer text a phrase has the same meaning, or the same fault behind what is in front. -/
theorem Spells.meaning_shift (h : Spells phrase tokens) (hbounded : Bounded text tokens)
    (front back : List Char) :
    (phrase.shift (byteCount front)).meaning (front ++ (text ++ back)) =
      (phrase.meaning text).mapError (.shift (byteCount front)) := by
  induction h with
  | identifier | string | unclosedString | boolean => rfl
  | float span literal => exact Phrase.float_meaning_shift _ span literal
  | integer span literal => exact Phrase.integer_meaning_shift _ span literal _
  | group _ _ _ ih =>
      rw [bounded_append, bounded_cons] at hbounded
      exact ih hbounded.1.2
  | @signed mark sign operand _ _ _ ih =>
      rw [bounded_cons] at hbounded
      by_cases hinteger : ∃ span literal, sign = .minus ∧ operand = .integer span literal
      · obtain ⟨span, literal, rfl, rfl⟩ := hinteger
        exact Phrase.integer_meaning_shift _ span literal _
      · rw [Phrase.shift, Phrase.meaning_signed_other, Phrase.meaning_signed_other,
          ih hbounded.2]
        · cases operand.meaning text <;> rfl
        · intro span literal hsign hoperand
          exact hinteger ⟨span, literal, hsign, hoperand⟩
        · intro span literal hsign hoperand
          cases operand with
          | integer span' literal' => exact hinteger ⟨span', literal', hsign, rfl⟩
          | _ => cases hoperand
  | arithmetic _ _ _ _ _ _ ihLeft ihRight | comparison _ _ _ _ _ _ ihLeft ihRight
  | and _ _ _ _ _ ihLeft ihRight | or _ _ _ _ _ ihLeft ihRight =>
      rw [bounded_append, bounded_cons] at hbounded
      simp only [Phrase.shift, Phrase.meaning, map_error_bind, ihLeft hbounded.1,
        ihRight hbounded.2.2]
      rfl
  | not _ _ _ ih =>
      rw [bounded_cons] at hbounded
      simp only [Phrase.shift, Phrase.meaning, map_error_bind, ih hbounded.2]
      rfl
  | between _ _ _ _ _ _ _ _ _ ih ihLow ihHigh =>
      simp only [bounded_append, bounded_cons] at hbounded
      simp only [Phrase.shift, Phrase.meaning, map_error_bind, ih hbounded.1.1.1,
        ihLow hbounded.1.2.2, ihHigh hbounded.2.2]
      rfl
  | inList _ _ _ _ hoperand _ _ _ ih =>
      simp only [bounded_append] at hbounded
      simp only [Phrase.shift, Phrase.meaning, map_error_bind, ih hbounded.1.1.1, List.map_map,
        Phrase.require_identifier_shift hoperand hbounded.1.1.1]
      rfl
  | like _ _ hoperand _ _ _ ih =>
      simp only [bounded_append] at hbounded
      simp only [Phrase.shift, Phrase.meaning, map_error_bind, ih hbounded.1.1,
        Phrase.require_identifier_shift hoperand hbounded.1.1, Phrase.pattern_meaning_shift]
      rfl
  | isNull _ _ hoperand _ _ ih =>
      simp only [bounded_append] at hbounded
      simp only [Phrase.shift, Phrase.meaning, map_error_bind, ih hbounded.1.1,
        Phrase.require_identifier_shift hoperand hbounded.1.1]
      rfl
  | cutShort _ hoperand _ _ ih =>
      simp only [bounded_append] at hbounded
      simp only [Phrase.shift, Phrase.meaning, map_error_bind, ih hbounded.1.1]
      rfl

end Meanings

end MessageSelector
