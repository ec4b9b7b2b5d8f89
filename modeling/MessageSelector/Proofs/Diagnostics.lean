import Mathlib
import MessageSelector.Expr.Parsing
import MessageSelector.Proofs.Faults.Causes
import MessageSelector.Proofs.Grammar.Positions
import MessageSelector.Proofs.Grammar.Soundness
import MessageSelector.Proofs.Lexical.Cuts

/-!
# Where diagnostics point

A label is put on a stretch of bytes. The stretches that faults carry go from the beginning of a
token to the end of a token, so they are never empty and never divide a character.
A request that nothing answers has a position only, and its label is a single byte.
`span_of_rejection` tells where the labels stand.
-/

namespace MessageSelector

/-! ## Boundaries -/

/-- A byte position between two characters, or at an end of the text. -/
def Boundary (text : List Char) (position : Nat) : Prop :=
  ∃ front back, text = front ++ back ∧ position = byteCount front

/-- Characters have the bytes of the string they make. -/
theorem byte_count_eq (text : List Char) : byteCount text = (String.ofList text).utf8ByteSize := by
  induction text with
  | nil => rfl
  | cons c rest ih =>
      have hcons : String.ofList (c :: rest) = String.singleton c ++ String.ofList rest := by simp
      rw [hcons, String.utf8ByteSize_append, String.utf8ByteSize_singleton, byte_count_cons, ih]

/-- A string has the bytes of its characters. -/
theorem byte_count_to_list (text : String) : byteCount text.toList = text.utf8ByteSize := by
  rw [byte_count_eq, String.ofList_toList]

/-- Boundaries are the valid positions of a string. -/
theorem boundary_iff_valid (text : String) (position : Nat) :
    Boundary text.toList position ↔ String.Pos.Raw.IsValid text ⟨position⟩ := by
  rw [String.Pos.Raw.isValid_iff_exists_append]
  constructor
  · rintro ⟨front, back, htext, rfl⟩
    refine ⟨String.ofList front, String.ofList back, ?_, ?_⟩
    · rw [← String.ofList_append, ← htext, String.ofList_toList]
    · rw [byte_count_eq]
      rfl
  · rintro ⟨front, back, rfl, hposition⟩
    refine ⟨front.toList, back.toList, String.toList_append, ?_⟩
    rw [byte_count_to_list]
    exact congrArg String.Pos.Raw.byteIdx hposition

namespace Boundary

variable {text front back : List Char} {position : Nat} {c : Char}

/-- No boundary is beyond the text. -/
theorem le_byte_count (h : Boundary text position) : position ≤ byteCount text := by
  obtain ⟨front, back, rfl, rfl⟩ := h
  rw [byte_count_append]
  omega

/-- A boundary before the end has a character behind it. -/
theorem next_char (h : Boundary text position) (hlt : position < byteCount text) :
    ∃ front c back, text = front ++ c :: back ∧ position = byteCount front := by
  obtain ⟨front, back, rfl, rfl⟩ := h
  cases back with
  | nil => simp at hlt
  | cons c back => exact ⟨front, c, back, rfl, rfl⟩

/-- There is no boundary inside a character. -/
theorem not_inside (h : Boundary (front ++ c :: back) position)
    (hbehind : byteCount front < position) : byteCount front + c.utf8Size ≤ position := by
  obtain ⟨before, after, htext, rfl⟩ := h
  obtain ⟨middle, rfl, hmiddle⟩ := append_of_byte_count_le htext (Nat.le_of_lt hbehind)
  cases middle with
  | nil => simp at hbehind
  | cons d middle =>
      obtain ⟨rfl, -⟩ := List.cons.inj hmiddle
      simp only [byte_count_append, byte_count_cons]
      omega

/-- There is a boundary in front of every character, and one behind it. -/
theorem of_char (front : List Char) (c : Char) (back : List Char) :
    Boundary (front ++ c :: back) (byteCount front) ∧
      Boundary (front ++ c :: back) (byteCount front + c.utf8Size) :=
  ⟨⟨front, c :: back, rfl, rfl⟩, ⟨front ++ [c], back, by simp, by simp⟩⟩

/-- A byte of a character is between boundaries exactly when it is the whole character. -/
theorem byte_iff {byte : Nat} (h : byte < c.utf8Size) :
    Boundary (front ++ c :: back) (byteCount front + byte) ∧
      Boundary (front ++ c :: back) (byteCount front + byte + 1) ↔ c.utf8Size = 1 := by
  constructor
  · rintro ⟨hstart, hstop⟩
    have hbyte : byte = 0 := by
      by_contra hne
      have hle := hstart.not_inside (by omega)
      omega
    have hle := hstop.not_inside (by omega)
    omega
  · intro hone
    obtain rfl : byte = 0 := by omega
    rw [Nat.add_zero, ← hone]
    exact of_char front c back

end Boundary

/-! ## Tokens -/

/-- The tokens of a text begin and end at boundaries. -/
theorem boundaries_of_scan {text : List Char} {token : Token} (h : token ∈ Token.scan text) :
    Boundary text token.span.start ∧ Boundary text token.span.stop := by
  obtain ⟨tokens, following, hscan⟩ := List.append_of_mem h
  by_cases hend : token.lexeme = .endOfText
  · -- The end of a text is its last token, and empty.
    obtain ⟨_, span⟩ := token
    obtain rfl := hend
    obtain rfl := Token.eq_nil_of_scan_end hscan
    have hlast := Token.last_of_scan text
    rw [hscan, List.getLast?_concat] at hlast
    cases hlast
    have hboundary : Boundary text (byteCount text) := ⟨text, [], by simp, rfl⟩
    exact ⟨hboundary, hboundary⟩
  · obtain ⟨front, c, rest, rfl, hlayout, hfrom⟩ := Token.scan_at_token hscan hend
    rw [Token.scan_from_cons hlayout] at hfrom
    obtain ⟨rfl, -⟩ := List.cons.inj hfrom
    refine ⟨(Boundary.of_char front c rest).1,
      front ++ c :: rest.take (Lexeme.atFront c rest).2,
      rest.drop (Lexeme.atFront c rest).2, ?_, ?_⟩
    · simp
    · simp [Span.stop]

/-- Tokens of a text that cover a stretch of it. -/
def Covers (tokens : List Token) (span : Span) : Prop :=
  ∃ first last, tokens.head? = some first ∧ tokens.getLast? = some last ∧
    span = .between first.span.start last.span.stop

/-- A token covers its place. -/
theorem covers_token (token : Token) : Covers [token] token.span := by
  refine ⟨token, token, rfl, rfl, ?_⟩
  rw [Span.between, Span.stop, Nat.add_sub_cancel_left]

/-- The tokens of a phrase cover it. -/
theorem Spells.covers {phrase : Phrase} {tokens : List Token} (h : Spells phrase tokens) :
    Covers tokens phrase.span := by
  obtain ⟨first, hfirst, hstart⟩ := Option.map_eq_some_iff.mp h.start_eq
  obtain ⟨last, hlast, hstop⟩ := Option.map_eq_some_iff.mp h.stop_eq
  exact ⟨first, last, hfirst, hlast, by rw [hstart, hstop]; rfl⟩

/-! ## Faults -/

/-- The stretch of text that a fault carries, unless it carries a position only. -/
def Fault.span? : Fault → Option Span
  | unexpected .. => none
  | unterminatedString span | identifierRequired _ _ span | invalidEscape _ span
  | danglingEscape span | numberOutOfRange _ span | nestingTooDeep span => some span

/-- A fault carries what some of the tokens cover. -/
def Blames (tokens : List Token) (fault : Fault) : Prop :=
  ∃ run span, run <:+: tokens ∧ fault.span? = some span ∧ Covers run span

section Blames

variable {tokens more : List Token} {fault : Fault} {text : List Char}

/-- Tokens blamed are blamed among others. -/
theorem Blames.mono (h : Blames tokens fault) (hmore : tokens <:+: more) : Blames more fault := by
  obtain ⟨run, span, hrun, hspan, hcovers⟩ := h
  exact ⟨run, span, hrun.trans hmore, hspan, hcovers⟩

/-- A single token is blamed. -/
theorem blames_token {token : Token} (hmem : token ∈ tokens)
    (hspan : fault.span? = some token.span) : Blames tokens fault := by
  obtain ⟨before, after, rfl⟩ := List.append_of_mem hmem
  exact ⟨[token], token.span, ⟨before, after, by simp⟩, hspan, covers_token token⟩

/-- An integer out of range is blamed on its literal. -/
theorem span_of_integer_meaning {span : Span} {literal : String} {value : Int}
    (h : Phrase.integerMeaning span literal value = .error fault) : fault.span? = some span := by
  obtain ⟨-, rfl⟩ := (Phrase.integer_meaning_error_iff _ _ _ _).mp h
  rfl

/-- A floating-point number out of range is blamed on its literal. -/
theorem span_of_float_meaning {span : Span} {literal : String}
    (h : Phrase.floatMeaning span literal = .error fault) : fault.span? = some span := by
  obtain ⟨-, rfl⟩ := (Phrase.float_meaning_error_iff _ _ _).mp h
  rfl

/-- A pattern that is refused is blamed on itself or on its escape. -/
theorem span_of_pattern_meaning {pattern : QuotedString} {escape : Option QuotedString}
    (h : Phrase.patternMeaning pattern escape = .error fault) :
    fault.span? = some pattern.span ∨ fault.span? = some (escape.getD pattern).span := by
  unfold Phrase.patternMeaning at h
  split at h <;> cases h
  · exact .inr rfl
  · exact .inl rfl

/-- A phrase at fault by itself has a fault that blames some of its tokens. -/
theorem Spells.blames_of_at_fault {phrase : Phrase} (hspells : Spells phrase tokens)
    (h : phrase.AtFault text fault) : Blames tokens fault := by
  cases h with
  | unclosedString span | cutShort _ span =>
      cases hspells
      exact blames_token (show ⟨.unclosedString, span⟩ ∈ _ by simp) rfl
  | float h =>
      cases hspells
      exact blames_token List.mem_cons_self (span_of_float_meaning h)
  | integer h =>
      cases hspells
      exact blames_token List.mem_cons_self (span_of_integer_meaning h)
  | @name _ _ operand _ htest =>
      -- The whole operand is blamed, which is no name.
      obtain ⟨before, inner, after, rfl, hinner, -⟩ :=
        hspells.child_behind_opening (Phrase.child_of_name_test htest)
      exact ⟨inner, operand.span, ⟨before, after, rfl⟩, rfl, hinner.covers⟩
  | @pattern _ pattern _ _ _ _ _ h =>
      cases hspells with
      | like _ _ _ _ hescape =>
          rcases span_of_pattern_meaning h with hspan | hspan
          · exact blames_token (show pattern.token ∈ _ by simp) hspan
          · cases hescape with
            | absent => exact blames_token (show pattern.token ∈ _ by simp) hspan
            | present mark escape => exact blames_token (show escape.token ∈ _ by simp) hspan

/-- A phrase without a meaning has a fault that blames some of its tokens. -/
theorem Spells.blames {phrase : Phrase} (hspells : Spells phrase tokens)
    (h : phrase.meaning text = .error fault) : Blames tokens fault := by
  obtain ⟨part, hpart, hfault⟩ := Phrase.exists_at_fault h
  obtain ⟨before, inner, after, rfl, hinner, -⟩ := hspells.part_behind_opening hpart
  exact (hinner.blames_of_at_fault hfault).mono ⟨before, after, rfl⟩

end Blames

/-! ## Spans of rejections -/

section Rejections

variable {text : List Char} {fault : Fault}

/-- A stretch of text that is not empty, and divides no character. -/
def WholeChars (text : List Char) (span : Span) : Prop :=
  Boundary text span.start ∧ Boundary text span.stop ∧ 0 < span.length

/-- What tokens of a text other than its end cover is a stretch of whole characters. -/
theorem Covers.whole_chars {tokens run : List Token} {stop span : Span}
    (hscan : Token.scan text = tokens ++ [⟨.endOfText, stop⟩]) (hrun : run <:+: tokens)
    (h : Covers run span) : WholeChars text span := by
  obtain ⟨first, last, hfirst, hlast, rfl⟩ := h
  have hmem (token : Token) (hmem : token ∈ run) : token ∈ Token.scan text := by
    rw [hscan]
    exact List.mem_append_left _ (hrun.subset hmem)
  have hfirstMem := hmem first (List.mem_of_mem_head? hfirst)
  have hbegins := (boundaries_of_scan hfirstMem).1
  have hends := (boundaries_of_scan (hmem last (List.mem_of_mem_getLast? hlast))).2
  -- The first token is not the end of the text, since that comes last.
  have hpos : 0 < first.span.length :=
    (Token.span_of_scan_from hfirstMem).2
      (Token.ne_end_of_mem hscan (hrun.subset (List.mem_of_mem_head? hfirst)))
  have hle : first.span.stop ≤ last.span.stop := by
    have hsorted := Token.scan_sorted text
    rw [hscan] at hsorted
    cases hsorted.sublist (hrun.sublist.trans (List.sublist_append_left _ _)) with
    | nil => cases hfirst
    | @cons token more htokens _ =>
        cases hfirst
        rcases List.mem_cons.mp (List.mem_of_mem_getLast? hlast) with rfl | hlast
        · exact Nat.le_refl _
        · exact Nat.le_trans (htokens last hlast) (Nat.le_add_right _ _)
  have hbetween : (Span.between first.span.start last.span.stop).stop = last.span.stop := by
    rw [Span.stop] at hle
    simp only [Span.between, Span.stop] at *
    omega
  refine ⟨hbegins, by rw [hbetween]; exact hends, ?_⟩
  simp only [Span.between, Span.stop] at *
  omega

/-- The nesting is too deep at a character. -/
theorem too_deep_char_from {depth : Nesting.Depth} {before : List Char} {skip : Nat} {span : Span}
    (h : Nesting.tooDeepFrom depth (byteCount before) skip text = some span) :
    ∃ front c back, before ++ text = front ++ c :: back ∧
      span = ⟨byteCount front, c.utf8Size⟩ := by
  induction text generalizing depth before skip with
  | nil => cases h
  | cons c rest ih =>
      have hbefore : byteCount before + c.utf8Size = byteCount (before ++ [c]) := by simp
      cases skip with
      | succ skip =>
          rw [Nesting.tooDeepFrom, hbefore] at h
          simpa using ih h
      | zero =>
          rw [Nesting.tooDeepFrom] at h
          dsimp only at h
          split at h
          · cases h
            exact ⟨before, c, rest, rfl, rfl⟩
          · rw [hbefore] at h
            simpa using ih h

/-- The nesting of a text is too deep at a character. -/
theorem too_deep_char {span : Span} (h : Nesting.tooDeep? text = some span) :
    ∃ front c back, text = front ++ c :: back ∧ span = ⟨byteCount front, c.utf8Size⟩ := by
  have hfrom : Nesting.tooDeepFrom .start (byteCount []) 0 text = some span := h
  exact too_deep_char_from hfrom

/-- A fault has a stretch of whole characters, or a position at which a token begins. -/
theorem fault_of_chars (h : Expr.ofChars text = .error fault) :
    (∃ span, fault.span? = some span ∧ WholeChars text span) ∨
      ∃ position expected, fault = .unexpected position expected ∧ Boundary text position := by
  unfold Expr.ofChars at h
  split at h
  · next span hnesting =>
      cases h
      obtain ⟨front, c, back, rfl, rfl⟩ := too_deep_char hnesting
      obtain ⟨hstart, hstop⟩ := Boundary.of_char front c back
      exact .inl ⟨_, rfl, hstart, hstop, c.utf8Size_pos⟩
  split at h
  · next furthest hread =>
      cases h
      refine .inr ⟨_, _, rfl, ?_⟩
      rcases Phrase.of_tokens_error hread with hzero | ⟨token, hmem, hstart⟩
      · exact ⟨[], text, rfl, hzero⟩
      · rw [← hstart]
        exact (boundaries_of_scan hmem).1
  · cases h
  · next phrase hread =>
      obtain ⟨tokens, stop, hscan, hspells⟩ := Phrase.scan_of_some hread
      have hmeaning : phrase.meaning text = .error fault := by
        cases hmeaning : phrase.meaning text with
        | error found => rw [hmeaning] at h; cases h; rfl
        | ok e => rw [hmeaning] at h; cases h
      obtain ⟨run, span, hrun, hspan, hcovers⟩ := hspells.blames hmeaning
      exact .inl ⟨span, hspan, hcovers.whole_chars hscan hrun⟩

/-- Without any character there is nothing to reject. -/
theorem of_chars_nil : Expr.ofChars [] = .ok none :=
  rfl

end Rejections

namespace Rejection

/-- The label of a fault with a stretch of text is put on it. -/
theorem span_of_fault {text : String} {fault : Fault} {span : Span}
    (h : fault.span? = some span) : Rejection.span ⟨text, fault⟩ = span := by
  cases fault <;> cases h <;> rfl

/-- The label of a request is put on one byte of the character at the position, or of the last one
at the end of the text. -/
theorem span_of_unexpected {text : String} {position : Nat} {expected : List Expectation}
    (hne : text.toList ≠ []) (hposition : Boundary text.toList position) :
    ∃ front c back byte, text.toList = front ++ c :: back ∧ byte < c.utf8Size ∧
      (position = byteCount front ∨ back = [] ∧ position = text.utf8ByteSize) ∧
      Rejection.span ⟨text, .unexpected position expected⟩ = ⟨byteCount front + byte, 1⟩ := by
  unfold span isAtEnd
  rw [← byte_count_to_list]
  dsimp only
  by_cases hend : byteCount text.toList ≤ position
  · obtain hnil | ⟨front, c, htext⟩ := List.eq_nil_or_concat text.toList
    · exact absurd hnil hne
    rw [List.concat_eq_append] at htext
    have heq := Nat.le_antisymm hposition.le_byte_count hend
    have hsize := c.utf8Size_pos
    refine ⟨front, c, [], c.utf8Size - 1, htext, by omega, .inr ⟨rfl, heq⟩, ?_⟩
    rw [htext, byte_count_append, byte_count_cons, byte_count_nil] at heq
    rw [if_neg (by simpa using hend), if_pos (by omega), heq]
    congr 1
    omega
  · obtain ⟨front, c, back, htext, rfl⟩ := hposition.next_char (by omega)
    refine ⟨front, c, back, 0, htext, c.utf8Size_pos, .inl rfl, ?_⟩
    rw [if_pos (by simpa using hend), Nat.add_zero]

end Rejection

namespace Expr

/-- The label of a rejection is never empty and never goes beyond the text. It stands on whole
characters, except where something was asked for in vain: there it is one byte of a character, the
one at the position, or the last one at the end of the text. So it divides this character if, and
only if, the character takes more bytes than one. -/
theorem span_of_rejection {text : String} {rejection : Rejection}
    (h : parse text = .error rejection) :
    0 < rejection.span.length ∧ rejection.span.stop ≤ text.utf8ByteSize ∧
      ((∀ position expected, rejection.fault ≠ .unexpected position expected) →
        String.Pos.Raw.IsValid text ⟨rejection.span.start⟩ ∧
          String.Pos.Raw.IsValid text ⟨rejection.span.stop⟩) ∧
      ∀ position expected, rejection.fault = .unexpected position expected →
        ∃ front c back, text.toList = front ++ c :: back ∧
          (position = byteCount front ∨ back = [] ∧ position = text.utf8ByteSize) ∧
          byteCount front ≤ rejection.span.start ∧
          rejection.span.stop ≤ byteCount front + c.utf8Size ∧
          (String.Pos.Raw.IsValid text ⟨rejection.span.start⟩ ∧
            String.Pos.Raw.IsValid text ⟨rejection.span.stop⟩ ↔ c.utf8Size = 1) := by
  obtain ⟨fault, hfault, rfl⟩ : ∃ fault, ofChars text.toList = .error fault ∧
      rejection = ⟨text, fault⟩ := by
    unfold parse at h
    cases hchars : ofChars text.toList with
    | error fault =>
        rw [hchars] at h
        cases h
        exact ⟨fault, rfl, rfl⟩
    | ok e =>
        rw [hchars] at h
        cases h
  simp only [← boundary_iff_valid, ← byte_count_to_list text]
  rcases fault_of_chars hfault with ⟨span, hspan, hstart, hstop, hpos⟩ |
    ⟨position, expected, rfl, hposition⟩
  · rw [Rejection.span_of_fault hspan]
    refine ⟨hpos, hstop.le_byte_count, fun _ => ⟨hstart, hstop⟩, ?_⟩
    rintro position expected rfl
    cases hspan
  · have hne : text.toList ≠ [] := by
      intro hnil
      rw [hnil, of_chars_nil] at hfault
      cases hfault
    obtain ⟨front, c, back, byte, htext, hbyte, hplace, hspan⟩ :=
      @Rejection.span_of_unexpected _ _ expected hne hposition
    rw [← byte_count_to_list] at hplace
    rw [hspan]
    have hsize : byteCount front + c.utf8Size ≤ byteCount text.toList := by
      rw [htext]
      exact (Boundary.of_char front c back).2.le_byte_count
    refine ⟨Nat.one_pos, ?_, fun hother => absurd rfl (hother position expected), ?_⟩
    · simp only [Span.stop]
      omega
    · rintro _ _ ⟨⟩
      refine ⟨front, c, back, htext, hplace, ?_, ?_, ?_⟩
      · exact Nat.le_add_right _ _
      · simp only [Span.stop]
        omega
      · rw [htext]
        exact Boundary.byte_iff hbyte

set_option maxRecDepth 2000 in
/-- What is missing at the end of a text is shown inside its last character, which takes two
bytes. -/
theorem span_of_rejection_at_end :
    ∃ rejection, parse "(é" = .error rejection ∧ rejection.span = ⟨2, 1⟩ ∧
      ∃ front c, "(é".toList = front ++ [c] ∧
        (String.Pos.Raw.IsValid "(é" ⟨2⟩ ∧ String.Pos.Raw.IsValid "(é" ⟨3⟩ ↔ c.utf8Size = 1) := by
  have h : parse "(é" = .error ⟨"(é", .unexpected 3 [.comparisonOperator, .between, .inList, .like,
      .add, .subtract, .multiply, .divide, .or, .and, .isKeyword]⟩ := by
    cbv
  obtain ⟨-, -, -, hunexpected⟩ := span_of_rejection h
  obtain ⟨front, c, back, htext, hplace, -, -, hvalid⟩ := hunexpected 3 _ rfl
  have hback : back = [] := by
    rcases hplace with hfront | ⟨hback, -⟩
    · have hbytes := congrArg byteCount htext
      have hsize := c.utf8Size_pos
      rw [byte_count_append, byte_count_cons, ← hfront] at hbytes
      have htotal : byteCount "(é".toList = 3 := by decide
      omega
    · exact hback
  subst hback
  exact ⟨_, h, by decide, front, c, htext, hvalid⟩

set_option maxRecDepth 2000 in
/-- The label of a sign that there is not ends inside the sign. -/
theorem span_divides_character :
    ∃ rejection, parse "a ≠ 1" = .error rejection ∧
      ¬ String.Pos.Raw.IsValid "a ≠ 1" ⟨rejection.span.stop⟩ := by
  have h : parse "a ≠ 1" = .error ⟨"a ≠ 1", .unexpected 2 [.endOfText, .comparisonOperator,
      .between, .inList, .like, .add, .subtract, .multiply, .divide, .or, .and, .isKeyword]⟩ := by
    cbv
  exact ⟨_, h, by decide⟩

end Expr

end MessageSelector
