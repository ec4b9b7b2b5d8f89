import Mathlib.Data.Nat.Digits.Defs
import MessageSelector.Proofs.Calculations
import MessageSelector.Proofs.Nesting.Fits
import MessageSelector.Proofs.Numerals
import MessageSelector.Proofs.Texts

/-!
# Signs in front of an integer

A text of signs and one integer literal is read as the integer with its sign, wherever a word has
it. `Token.Denotes` says which number the digits of a literal are, and `parse_sign_run` what becomes
of it under the signs. The literal of the least integer is one that no word has, so the sign next to
it is not like the others.
-/

namespace MessageSelector

open MessageSelector.Expr (Binding)

/-! ## The number of a literal -/

namespace Token

/-- The digit that a character is in a base of up to sixteen. -/
def digitOf (c : Char) : Nat :=
  "0123456789abcdef".toList.idxOf c.toLower

/-- The number that digits are in a base, where the last one counts least. -/
def positional (base : Nat) (ds : List Char) : Nat :=
  Nat.ofDigits base (ds.reverse.map digitOf)

/-- An integer literal and its number: digits in either base, and at most one suffix letter. -/
inductive Denotes : List Char → Nat → Prop where
  | decimal {ds suffix} :
      ds ≠ [] → ds.all Char.isDigit = true → IsSuffix isIntegerSuffix suffix →
      Denotes (ds ++ suffix) (positional 10 ds)
  | hexadecimal {x ds suffix} :
      x = 'x' ∨ x = 'X' → ds ≠ [] → ds.all Integer.isHexDigit = true →
      IsSuffix isIntegerSuffix suffix → Denotes ('0' :: x :: (ds ++ suffix)) (positional 16 ds)

/-- Digits of either base are told apart by their place among all of them. -/
theorem digit_value_eq {c : Char} (h : Integer.isHexDigit c = true) :
    Integer.digitValue c = digitOf c :=
  forall_hex_digit (p := fun c => Integer.digitValue c = digitOf c) (by decide +kernel) h

/-- A digit alone is the number that it counts. -/
theorem positional_singleton (base : Nat) (d : Char) : positional base [d] = digitOf d :=
  Nat.ofDigits_singleton

/-- Each further digit makes those in front of it count as many times more as the base. -/
theorem positional_append (base : Nat) (front back : List Char) :
    positional base (front ++ back) =
      positional base front * base ^ back.length + positional base back := by
  unfold positional
  rw [List.reverse_append, List.map_append, Nat.ofDigits_append, List.length_map,
    List.length_reverse, Nat.add_comm, Nat.mul_comm]

/-- Zeros count nothing. -/
theorem positional_zeros (base count : Nat) : positional base (List.replicate count '0') = 0 := by
  induction count with
  | zero => rfl
  | succ count ih =>
      rw [List.replicate_succ', positional_append, positional_singleton, ih, Nat.zero_mul]
      rfl

/-- Digits are read as the number that they are. -/
theorem of_digits_eq_positional (base : Nat) {ds : List Char}
    (h : ds.all Integer.isHexDigit = true) : Integer.ofDigits base ds = positional base ds := by
  induction ds using List.reverseRecOn with
  | nil => rfl
  | append_singleton ds d ih =>
      rw [List.all_append, Bool.and_eq_true] at h
      have hd : Integer.isHexDigit d = true := by simpa using h.2
      rw [positional_append, positional_singleton, List.length_singleton, Nat.pow_one, ← ih h.1,
        ← digit_value_eq hd]
      exact List.foldl_append

/-- Decimal digits are digits of either base. -/
theorem hex_of_digits {ds : List Char} (h : ds.all Char.isDigit = true) :
    ds.all Integer.isHexDigit = true :=
  List.all_eq_true.mpr fun c hc => hex_digit_of_digit (List.all_eq_true.mp h c hc)

/-- Decimal digits are read as the number that they are. -/
theorem of_decimal_digits {ds : List Char} (h : ds.all Char.isDigit = true) :
    Integer.ofDigits 10 ds = positional 10 ds :=
  of_digits_eq_positional 10 (hex_of_digits h)

/-- A decimal digit counts less than ten. -/
theorem digit_of_lt {c : Char} (h : c.isDigit = true) : digitOf c < 10 :=
  forall_hex_digit (p := fun c => c.isDigit = true → digitOf c < 10) (by decide +kernel)
    (hex_digit_of_digit h) h

/-- Decimal digits are less than the power of ten with so many zeros. -/
theorem positional_lt {ds : List Char} (h : ds.all Char.isDigit = true) :
    positional 10 ds < 10 ^ ds.length := by
  unfold positional
  rw [← List.length_reverse, ← List.length_map (f := digitOf)]
  refine Nat.ofDigits_lt_base_pow_length (by decide) fun digit hdigit => ?_
  obtain ⟨c, hc, rfl⟩ := List.mem_map.mp hdigit
  exact digit_of_lt (List.all_eq_true.mp h c (List.mem_reverse.mp hc))

/-- Digits are dropped by a division. -/
theorem positional_front {front back : List Char} (h : back.all Char.isDigit = true) :
    positional 10 front = positional 10 (front ++ back) / 10 ^ back.length := by
  rw [positional_append, Nat.mul_comm, Nat.mul_add_div (Nat.pow_pos (by decide)),
    Nat.div_eq_of_lt (positional_lt h), Nat.add_zero]

/-- What is left of a literal when its suffix is taken off. -/
theorem filter_suffix {part suffix : List Char} (hpart : ∀ c ∈ part, isIntegerSuffix c = false)
    (hsuffix : IsSuffix isIntegerSuffix suffix) :
    (part ++ suffix).filter (!isIntegerSuffix ·) = part := by
  have hkept : part.filter (!isIntegerSuffix ·) = part :=
    List.filter_eq_self.mpr fun c hc => by rw [hpart c hc]; rfl
  rw [List.filter_append, hkept]
  rcases hsuffix with rfl | ⟨c, rfl, hc⟩
  · exact List.append_nil part
  · simp [hc]

/-- A literal is written as one, and its value is its number. -/
theorem Denotes.value {literal : List Char} {n : Nat} (h : Denotes literal n) :
    IsInteger literal ∧ integerValue (String.ofList literal) = n := by
  unfold integerValue
  rw [String.toList_ofList]
  cases h with
  | @decimal ds suffix hne hds hsuffix =>
      have hhex := hex_of_digits hds
      refine ⟨⟨ds, suffix, rfl, .decimal hne hds, hsuffix⟩, ?_⟩
      rw [filter_suffix (fun c hc => suffix_of_hex_digit (List.all_eq_true.mp hhex c hc)) hsuffix]
      -- The mark of the other base is no digit.
      split
      · simp at hds
      · simp at hds
      · exact of_digits_eq_positional 10 hhex
  | @hexadecimal x ds suffix hx hne hds hsuffix =>
      obtain ⟨d, ds, rfl⟩ := List.exists_cons_of_ne_nil hne
      have hd := List.all_cons ▸ hds
      rw [Bool.and_eq_true] at hd
      refine ⟨⟨'0' :: x :: d :: ds, suffix, rfl, .hexadecimal hx hd.1 hd.2, hsuffix⟩, ?_⟩
      have hpart : ∀ c ∈ '0' :: x :: d :: ds, isIntegerSuffix c = false := by
        rw [List.forall_mem_cons, List.forall_mem_cons]
        refine ⟨rfl, by rcases hx with rfl | rfl <;> rfl, fun c hc => ?_⟩
        exact suffix_of_hex_digit (List.all_eq_true.mp hds c hc)
      rw [← List.cons_append, ← List.cons_append, filter_suffix hpart hsuffix]
      rcases hx with rfl | rfl <;> exact of_digits_eq_positional 16 hds

end Token

/-! ## Signs as written -/

/-- Signs as written, each with the layout in front of it. -/
def signsText (signs : List (List Char × Sign)) : List Char :=
  signs.flatMap fun written => written.1 ++ written.2.symbol.toList

/-- Signs are cut into their lexemes, whatever stands behind them. -/
theorem cut_signs {signs : List (List Char × Sign)}
    (h : ∀ written ∈ signs, written.1.all isLayout = true) (back : List Char) :
    Cut (signsText signs) ((signs.map (·.2)).map Sign.lexeme) back := by
  induction signs with
  | nil => exact .nil back
  | cons written signs ih =>
      rw [List.forall_mem_cons] at h
      have hsign (back : List Char) :
          Cut written.2.symbol.toList [written.2.lexeme] back := by
        cases written.2 with
        | plus => exact cut_paren .plus rfl back
        | minus => exact cut_paren .minus rfl back
      exact ((cut_layout h.1 _).append (hsign _)).append (ih h.2)

/-- Layout breaks a text. -/
theorem breaks_layout {trailing : List Char} (h : trailing.all isLayout = true) :
    Breaks trailing := by
  cases trailing with
  | nil => trivial
  | cons c trailing =>
      rw [List.all_cons, Bool.and_eq_true] at h
      exact .inl h.1

/-- The token of a sign. -/
def Sign.token (mark : Span × Sign) : Token :=
  ⟨mark.2.lexeme, mark.1⟩

/-- Tokens of the lexemes of signs are the tokens of signs. -/
theorem marks_of_lexemes {signs : List Sign} {tokens : List Token}
    (h : tokens.map (·.lexeme) = signs.map Sign.lexeme) :
    ∃ marks : List (Span × Sign), marks.map (·.2) = signs ∧ marks.map Sign.token = tokens := by
  induction tokens generalizing signs with
  | nil => exact ⟨[], (List.map_eq_nil_iff.mp h.symm).symm, rfl⟩
  | cons token tokens ih =>
      obtain ⟨sign, signs, rfl, hhead, htail⟩ := List.map_eq_cons_iff.mp h.symm
      obtain ⟨marks, rfl, rfl⟩ := ih htail.symm
      exact ⟨(token.span, sign) :: marks, rfl, by simp [Sign.token, hhead]⟩

/-- Signs with an integer literal behind them are scanned to their tokens and that of the literal in
its place. -/
theorem scan_sign_run {signs : List (List Char × Sign)} {gap literal trailing : List Char}
    (hgaps : ∀ written ∈ signs, written.1.all isLayout = true) (hgap : gap.all isLayout = true)
    (htrailing : trailing.all isLayout = true) (hliteral : Token.IsInteger literal) :
    ∃ (marks : List (Span × Sign)) (stop : Span), marks.map (·.2) = signs.map (·.2) ∧
      Token.scan (signsText signs ++ gap ++ literal ++ trailing) =
        marks.map Sign.token ++ [⟨.integer (String.ofList literal),
          ⟨byteCount (signsText signs ++ gap), byteCount literal⟩⟩] ++ [⟨.endOfText, stop⟩] := by
  have hfront := (cut_signs hgaps _).append (cut_layout hgap (literal ++ trailing))
  obtain ⟨tokens, hlexemes, hscan⟩ := Token.scan_from_cut hfront 0
  obtain ⟨last, hlast, hend⟩ := Token.scan_from_cut (cut_layout htrailing [])
    (byteCount (signsText signs ++ gap) + byteCount literal)
  rw [List.append_nil] at hlexemes
  obtain ⟨marks, hmarks, rfl⟩ := marks_of_lexemes hlexemes
  rw [List.append_nil, List.map_eq_nil_iff.mp hlast, List.nil_append] at hend
  refine ⟨marks, ⟨byteCount (signsText signs ++ gap) + byteCount literal + byteCount trailing, 0⟩,
    hmarks, ?_⟩
  rw [List.append_assoc _ literal, Token.scan, hscan, Nat.zero_add,
    Token.scan_from_written (.integer hliteral) ((breaks_layout htrailing).ends _), hend,
    List.append_assoc]
  rfl

/-! ## Reading a run of signs -/

/-- A phrase behind signs. -/
def Phrase.underSigns (marks : List (Span × Sign)) (operand : Phrase) : Phrase :=
  marks.foldr (fun mark => .signed mark.1 mark.2) operand

/-- The tokens of signs and those of an operand spell the operand behind the signs. -/
theorem spells_under_signs {operand : Phrase} {tokens : List Token} (h : Spells operand tokens)
    (hrank : Binding.sign.rank ≤ operand.binding.rank) (marks : List (Span × Sign)) :
    Spells (operand.underSigns marks) (marks.map Sign.token ++ tokens) ∧
      Binding.sign.rank ≤ (operand.underSigns marks).binding.rank := by
  induction marks with
  | nil => exact ⟨h, hrank⟩
  | cons mark marks ih => exact ⟨.signed mark.1 mark.2 ih.1 ih.2, Nat.le_refl _⟩

/-- Signs nest within the limit where there are as many levels left as signs. -/
theorem within_signs {signs : List Sign} {ahead : Nat} {more : List Lexeme}
    (hlimit : ahead + signs.length ≤ Nesting.limit)
    (hmore : (⟨[], ahead + signs.length, false⟩ : Nesting.Depth).Within more) :
    (⟨[], ahead, false⟩ : Nesting.Depth).Within (signs.map Sign.lexeme ++ more) := by
  induction signs generalizing ahead with
  | nil => exact hmore
  | cons sign signs ih =>
      rw [List.length_cons, Nat.add_comm signs.length, ← Nat.add_assoc] at hlimit hmore
      rw [List.map_cons, List.cons_append, Nesting.Depth.Within, Nesting.is_operator_sign]
      refine ⟨?_, ih (by omega) hmore⟩
      simp only [Nesting.Depth.levels, List.headD_nil]
      omega

/-- Up to 32 signs and an integer literal are a text of a selector, and mean what the phrase of them
does. -/
theorem parse_under_signs {signs : List (List Char × Sign)} {gap literal trailing : List Char}
    (hsigns : signs.length ≤ 32)
    (hgaps : ∀ written ∈ signs, written.1.all isLayout = true) (hgap : gap.all isLayout = true)
    (htrailing : trailing.all isLayout = true) (hliteral : Token.IsInteger literal) :
    ∃ marks : List (Span × Sign), marks.map (·.2) = signs.map (·.2) ∧
      Expr.ofChars (signsText signs ++ gap ++ literal ++ trailing) =
        (((Phrase.integer ⟨byteCount (signsText signs ++ gap), byteCount literal⟩
          (String.ofList literal)).underSigns marks).meaning
            (signsText signs ++ gap ++ literal ++ trailing)).map some := by
  obtain ⟨marks, stop, hmarks, hscan⟩ := scan_sign_run hgaps hgap htrailing hliteral
  have hspells := (spells_under_signs (.integer
    ⟨byteCount (signsText signs ++ gap), byteCount literal⟩ (String.ofList literal))
    (Nat.le_of_ble_eq_true rfl) marks).1
  have hlexemes : (marks.map Sign.token).map (·.lexeme) = (signs.map (·.2)).map Sign.lexeme := by
    rw [← hmarks, List.map_map, List.map_map]
    rfl
  have hshallow := (Nesting.too_deep_eq_none_iff hscan hspells).mpr (by
    rw [List.map_append, hlexemes, List.append_assoc]
    refine within_signs (by simpa [Nesting.limit] using hsigns) ⟨?_, ?_, trivial⟩
    · exact Nat.zero_le _
    · exact Nat.zero_le _)
  refine ⟨marks, hmarks, ?_⟩
  rw [Expr.ofChars, hshallow, hscan, Phrase.of_tokens_complete hspells]

/-! ## What signs make of a number -/

/-- The number under signs is its opposite or itself. -/
theorem exact_under_signs (signs : List Sign) (n : Int) :
    signs.foldr Sign.exact n = (-1) ^ signs.count .minus * n := by
  induction signs with
  | nil => simp
  | cons sign signs ih =>
      cases sign with
      | plus => simpa [Sign.exact] using ih
      | minus => simp [Sign.exact, ih, pow_succ]

/-- The sign next to a number that signs stand in front of. -/
def Sign.innermost (signs : List Sign) : Sign :=
  signs.getLast?.getD .plus

/-- The number under signs is what the others make of it under the innermost one. -/
theorem exact_innermost (signs : List Sign) (n : Int) :
    signs.dropLast.foldr Sign.exact ((Sign.innermost signs).exact n) =
      signs.foldr Sign.exact n := by
  unfold Sign.innermost
  obtain rfl | ⟨outer, last, rfl⟩ := signs.eq_nil_or_concat'
  · rfl
  · simp

/-- It is a minus just if the signs end in one. -/
theorem innermost_eq_minus_iff (signs : List Sign) :
    Sign.innermost signs = .minus ↔ signs.getLast? = some .minus := by
  unfold Sign.innermost
  cases signs.getLast? <;> simp

/-- A sign leaves a number between `-2 ^ 63` and `2 ^ 63` there. -/
theorem Sign.exact_bounds (sign : Sign) {n : Int} (hlow : -2 ^ 63 < n) (hhigh : n < 2 ^ 63) :
    -2 ^ 63 < sign.exact n ∧ sign.exact n < 2 ^ 63 := by
  cases sign with
  | plus => exact ⟨hlow, hhigh⟩
  | minus =>
      rw [exact]
      omega

/-- A number beyond `2 ^ 63` has no word whatever sign is next to it, and `2 ^ 63` has none without
a minus there. -/
theorem narrow_innermost_eq_none {signs : List Sign} {m : Nat}
    (h : 2 ^ 63 < m ∨ m = 2 ^ 63 ∧ signs.getLast? ≠ some .minus) :
    Integer.narrow ((Sign.innermost signs).exact m) = none := by
  rw [Integer.narrow_eq_none_iff]
  cases hsign : Sign.innermost signs with
  | plus =>
      simp only [Sign.exact]
      omega
  | minus =>
      have hgreater := h.resolve_right fun hno => hno.2 ((innermost_eq_minus_iff signs).mp hsign)
      simp only [Sign.exact]
      omega

namespace Phrase

/-- A plus leaves an integer as it is. -/
theorem integer_meaning_plus (span : Span) (literal : String) (n : Int) :
    (integerMeaning span literal n).map (·.withSign .plus) = integerMeaning span literal n := by
  unfold integerMeaning
  cases Integer.narrow n <;> rfl

/-- The integer literal under a sign means the number under the sign. -/
theorem meaning_signed_integer (text : List Char) (mark span : Span) (sign : Sign)
    (literal : String) :
    (signed mark sign (integer span literal)).meaning text =
      integerMeaning span literal (sign.exact (Token.integerValue literal)) := by
  cases sign with
  | minus => rw [meaning, Sign.exact]
  | plus =>
      have hother : ∀ (other : Span) (digits : String), Sign.plus = .minus →
          integer span literal ≠ integer other digits := by simp
      rw [meaning_signed_other text mark hother, meaning, integer_meaning_plus, Sign.exact]

/-- Signs in front of what is no integer literal take it up one after the other. -/
theorem meaning_under_signs_other {operand : Phrase} (text : List Char)
    (h : ∀ span literal, operand ≠ integer span literal) (marks : List (Span × Sign)) :
    (operand.underSigns marks).meaning text =
      (operand.meaning text).map ((marks.map (·.2)).foldr Expr.withSign) := by
  induction marks with
  | nil =>
      change operand.meaning text = _
      cases operand.meaning text <;> rfl
  | cons mark marks ih =>
      have hother : ∀ span literal, mark.2 = .minus →
          operand.underSigns marks ≠ integer span literal := by
        intro span literal _
        cases marks with
        | nil => exact h span literal
        | cons => exact nofun
      change (signed mark.1 mark.2 (operand.underSigns marks)).meaning text = _
      rw [meaning_signed_other text mark.1 hother, ih]
      cases operand.meaning text <;> rfl

/-- Signs and an integer literal mean what the outer signs make of the number under the innermost
one. -/
theorem meaning_under_signs (text : List Char) (span : Span) (literal : String)
    (marks : List (Span × Sign)) :
    ((integer span literal).underSigns marks).meaning text =
      (integerMeaning span literal
        ((Sign.innermost (marks.map (·.2))).exact (Token.integerValue literal))).map
          ((marks.map (·.2)).dropLast.foldr Expr.withSign) := by
  obtain rfl | ⟨outer, last, rfl⟩ := marks.eq_nil_or_concat'
  · simp only [underSigns, List.foldr_nil, meaning, List.map_nil, Sign.innermost, Sign.exact,
      List.getLast?_nil, Option.getD_none, List.dropLast_nil]
    cases integerMeaning span literal _ <;> rfl
  · have happend : (integer span literal).underSigns (outer ++ [last]) =
        (signed last.1 last.2 (integer span literal)).underSigns outer := List.foldr_append
    have hother : ∀ (other : Span) (digits : String),
        signed last.1 last.2 (integer span literal) ≠ integer other digits := by simp
    rw [happend, meaning_under_signs_other text hother, meaning_signed_integer]
    simp [Sign.innermost]

end Phrase

/-! ## What signs make of an expression -/

namespace Expr

/-- An integer that has an opposite takes up any signs. -/
theorem integer_under_signs (signs : List Sign) {number : Int64}
    (h : -2 ^ 63 < number.toInt) :
    ∃ other : Int64, signs.foldr withSign (literal (.integer number)) = literal (.integer other) ∧
      other.toInt = signs.foldr Sign.exact number.toInt ∧ -2 ^ 63 < other.toInt := by
  induction signs with
  | nil => exact ⟨number, rfl, rfl, h⟩
  | cons sign signs ih =>
      obtain ⟨other, hsame, hvalue, hleast⟩ := ih
      obtain ⟨hlow, hhigh⟩ := sign.exact_bounds hleast other.toInt_lt
      obtain ⟨word, hword⟩ := Integer.exists_word ⟨Int.le_of_lt hlow, hhigh⟩
      have hsigned : (Value.integer other).signed? sign = some (.integer word) := by
        rw [Value.signed_integer, (Integer.narrow_eq_some_iff _ word).mpr hword]
        rfl
      refine ⟨word, ?_, by rw [hword, hvalue]; rfl, hword ▸ hlow⟩
      rw [List.foldr_cons, hsame, with_sign_of_some hsigned]

/-- The least integer takes up pluses. From the first minus on, going outwards, signs stay. -/
theorem least_under_signs (signs : List Sign) :
    ∃ kept count, signs = kept ++ List.replicate count .plus ∧
      (∀ last ∈ kept.getLast?, last = .minus) ∧
      signs.foldr withSign (literal (.integer Int64.minValue)) =
        kept.foldr signed (literal (.integer Int64.minValue)) := by
  induction signs with
  | nil => exact ⟨[], 0, rfl, nofun, rfl⟩
  | cons sign signs ih =>
      obtain ⟨kept, count, rfl, hlast, hsame⟩ := ih
      rw [List.foldr_cons, hsame]
      cases kept with
      | nil =>
          cases sign with
          | plus =>
              exact ⟨[], count + 1, List.replicate_succ.symm, nofun, with_sign_of_some rfl⟩
          | minus =>
              refine ⟨[.minus], count, rfl, by simp, with_sign_of_none ?_⟩
              decide
      | cons outer kept =>
          refine ⟨sign :: outer :: kept, count, rfl, ?_, rfl⟩
          rwa [List.getLast?_cons_cons]

/-- Under signs with a minus next to it the least integer has no value. -/
theorem evaluate_least_under_signs (source : Source) {kept : List Sign} (hne : kept ≠ [])
    (hlast : ∀ last ∈ kept.getLast?, last = .minus) :
    (kept.foldr signed (literal (.integer Int64.minValue))).evaluate source = none := by
  induction kept with
  | nil => exact absurd rfl hne
  | cons sign kept ih =>
      cases kept with
      | nil =>
          obtain rfl := hlast sign rfl
          rfl
      | cons inner kept =>
          rw [List.getLast?_cons_cons] at hlast
          rw [List.foldr_cons, evaluate, ih (List.cons_ne_nil _ _) hlast]
          rfl

/-- How signs in front of an integer literal are folded into the number. A number below `2 ^ 63`
takes up every sign. The number `2 ^ 63` wants a minus next to it and is then the least integer,
which takes up the pluses there and keeps the signs from the next minus on; with one of these it has
no value. Any other number is out of range, in the place and with the text of its literal. -/
theorem parse_sign_run {signs : List (List Char × Sign)} {gap literal trailing : List Char}
    {m : Nat} (hsigns : signs.length ≤ 32)
    (hgaps : ∀ written ∈ signs, written.1.all isLayout = true) (hgap : gap.all isLayout = true)
    (htrailing : trailing.all isLayout = true) (hliteral : Token.Denotes literal m) :
    let text := String.ofList (signsText signs ++ gap ++ literal ++ trailing)
    (m < 2 ^ 63 →
      ∃ number : Int64, number.toInt = (-1) ^ (signs.map (·.2)).count .minus * (m : Int) ∧
        parse text = .ok (some (.literal (.integer number)))) ∧
    (∀ outer, m = 2 ^ 63 → signs.map (·.2) = outer ++ [.minus] →
      ∃ kept count, outer = kept ++ List.replicate count .plus ∧
        (∀ last ∈ kept.getLast?, last = .minus) ∧
        parse text = .ok (some (kept.foldr signed (.literal (.integer Int64.minValue)))) ∧
        (kept ≠ [] → ∀ source : Source,
          (kept.foldr signed (.literal (.integer Int64.minValue))).evaluate source = none)) ∧
    (2 ^ 63 < m ∨ m = 2 ^ 63 ∧ (signs.map (·.2)).getLast? ≠ some .minus →
      parse text = .error ⟨text, .numberOutOfRange (String.ofList literal)
        ⟨byteCount (signsText signs ++ gap), byteCount literal⟩⟩) := by
  intro text
  obtain ⟨hinteger, hvalue⟩ := hliteral.value
  obtain ⟨marks, hmarks, hparse⟩ := parse_under_signs hsigns hgaps hgap htrailing hinteger
  rw [Phrase.meaning_under_signs, hmarks, hvalue] at hparse
  generalize signs.map (·.2) = order at hparse ⊢
  have hmeant (number : Int64) (h : number.toInt = (Sign.innermost order).exact m) :
      parse text = .ok (some (order.dropLast.foldr withSign (.literal (.integer number)))) := by
    have hmeaning := (Phrase.integer_meaning_ok_iff
      ⟨byteCount (signsText signs ++ gap), byteCount literal⟩ (String.ofList literal) _ _).mpr
      ⟨number, h, rfl⟩
    rw [parse, String.toList_ofList, hparse, hmeaning]
    rfl
  refine ⟨fun hm => ?_, fun outer hm horder => ?_, fun hm => ?_⟩
  · obtain ⟨hlow, hhigh⟩ := (Sign.innermost order).exact_bounds
      (show -2 ^ 63 < (m : Int) by omega) (by omega)
    obtain ⟨number, hnumber⟩ := Integer.exists_word ⟨Int.le_of_lt hlow, hhigh⟩
    obtain ⟨other, hsame, hother, -⟩ := integer_under_signs order.dropLast (hnumber ▸ hlow)
    rw [hnumber, exact_innermost, exact_under_signs] at hother
    exact ⟨other, hother, by rw [hmeant number hnumber, hsame]⟩
  · have hleast : Int64.minValue.toInt = (Sign.innermost order).exact m := by
      rw [horder, hm, Int64.toInt_minValue]
      simp [Sign.innermost, Sign.exact]
    obtain ⟨kept, count, hkept, hlast, hsame⟩ := least_under_signs outer
    refine ⟨kept, count, hkept, hlast, ?_, fun hne source => ?_⟩
    · rw [hmeant _ hleast, horder, List.dropLast_concat, hsame]
    · exact evaluate_least_under_signs source hne hlast
  · rw [parse, String.toList_ofList, hparse, Phrase.integerMeaning, narrow_innermost_eq_none hm]
    rfl

/-- Two minuses leave a number as it is. The number `2 ^ 63` is out of range with a plus next to it,
minus or no minus in front of that. -/
theorem parse_signs_at_limits :
    (∃ number : Int64, number.toInt = 31 ∧
      parse " -+\t-0x1FL\n" = .ok (some (.literal (.integer number)))) ∧
    parse "- +9223372036854775808" = .error ⟨"- +9223372036854775808",
      .numberOutOfRange "9223372036854775808" ⟨3, 19⟩⟩ := by
  have hhex : Token.Denotes "0x1FL".toList 31 :=
    @Token.Denotes.hexadecimal 'x' ['1', 'F'] ['L'] (.inl rfl) (by simp) rfl (.inr ⟨'L', rfl, rfl⟩)
  have hdecimal : Token.Denotes "9223372036854775808".toList (2 ^ 63) :=
    @Token.Denotes.decimal "9223372036854775808".toList [] (by simp) (by decide) (.inl rfl)
  constructor
  · exact (@parse_sign_run [([' '], .minus), ([], .plus), (['\t'], .minus)] [] _ ['\n'] 31
      (by decide) (by decide) rfl rfl hhex).1 (by decide)
  · exact (@parse_sign_run [([], .minus), ([' '], .plus)] [] _ [] (2 ^ 63)
      (by decide) (by decide) rfl rfl hdecimal).2.2 (.inr ⟨rfl, by decide⟩)

end Expr

end MessageSelector
