import MessageSelector.Proofs.Nesting.Limits
import MessageSelector.Selector

/-!
# Texts of one token or none

Nothing but layout is a selector without an expression, so every other text is either accepted with
an expression or rejected: `match_all_iff_layout`. A text that is a single word is settled by the
word, `parse_word`: a boolean literal, a keyword that no phrase is made of alone, or a name.
-/

namespace MessageSelector

/-! ## No token -/

/-- The blanks between tokens, one by one. -/
theorem is_layout_iff (c : Char) : isLayout c = true ↔ c ∈ [' ', '\t', '\r', '\n', '\x0c'] := by
  simp only [isLayout, Bool.or_eq_true, decide_eq_true_eq, List.mem_cons, List.not_mem_nil,
    or_false]
  tauto

/-- A text has no token but its end just if it is layout alone. -/
theorem Token.lexemes_eq_end_iff (text : List Char) :
    lexemes text = [.endOfText] ↔ ∀ c ∈ text, isLayout c = true := by
  induction text with
  | nil => exact ⟨fun _ => List.forall_mem_nil _, fun _ => rfl⟩
  | cons c rest ih =>
      cases hlayout : isLayout c with
      | true =>
          rw [lexemes_layout hlayout, ih, List.forall_mem_cons]
          exact ⟨fun h => ⟨hlayout, h⟩, And.right⟩
      | false =>
          rw [lexemes_cons hlayout]
          constructor
          · intro hend
            exact absurd (List.cons.inj hend).1 (Lexeme.at_front_ne_end_of_text c rest)
          · intro hall
            rw [hall c List.mem_cons_self] at hlayout
            cases hlayout

/-- The end alone is read as no phrase. -/
theorem Phrase.of_tokens_end (stop : Span) : ofTokens [⟨.endOfText, stop⟩] = .ok none :=
  rfl

/-- A text has no expression just if it has no token but its end. -/
theorem Expr.of_chars_none_iff (text : List Char) :
    ofChars text = .ok none ↔ Token.lexemes text = [.endOfText] := by
  constructor
  · intro h
    obtain ⟨stop, hscan⟩ := of_chars_none h
    rw [Token.lexemes, hscan]
    rfl
  · intro h
    rw [← List.nil_append [Lexeme.endOfText]] at h
    obtain ⟨tokens, stop, hscan, htokens⟩ := Token.scan_of_lexemes h
    obtain rfl := List.map_eq_nil_iff.mp htokens
    rw [List.nil_append] at hscan
    unfold ofChars
    rw [Nesting.too_deep_of_end hscan, hscan, Phrase.of_tokens_end]

/-- A text is accepted without an expression just if it is layout alone. -/
theorem Expr.parse_none_iff (text : String) :
    parse text = .ok none ↔ ∀ c ∈ text.toList, c ∈ [' ', '\t', '\r', '\n', '\x0c'] := by
  simp only [parse_eq_ok_iff, of_chars_none_iff, Token.lexemes_eq_end_iff, is_layout_iff]

namespace Selector

/-- Only an expression keeps a selector from being one for every message. -/
theorem indexing_eq_match_all_iff (selector : Selector) :
    selector.indexing = .matchAll ↔ selector.expr = none := by
  unfold indexing
  cases selector.expr <;> simp

/-- Only layout selects everything. A text of spaces, tabs, ends of lines and form feeds alone
compiles to the selector that holds on every message and offers nothing to index by. Every other
text is accepted with an expression, and then there is something to index by, or it is rejected. -/
theorem match_all_iff_layout (text : String) :
    (Expr.parse text = .ok none ↔ ∀ c ∈ text.toList, c ∈ [' ', '\t', '\r', '\n', '\x0c']) ∧
      ((∀ c ∈ text.toList, c ∈ [' ', '\t', '\r', '\n', '\x0c']) →
        ∃ selector, compile text = .ok selector ∧ selector.indexing = .matchAll ∧
          ∀ source, selector.truth source = .holds) ∧
      ((∃ c ∈ text.toList, c ∉ [' ', '\t', '\r', '\n', '\x0c']) →
        (∃ e, Expr.parse text = .ok (some e) ∧
            ∀ selector, compile text = .ok selector → selector.indexing ≠ .matchAll) ∨
          ∃ rejection, Expr.parse text = .error rejection ∧
            compile text = .error rejection) := by
  refine ⟨Expr.parse_none_iff text, fun hlayout => ?_, fun ⟨c, hmem, hother⟩ => ?_⟩
  · refine ⟨.matchAll, ?_, rfl, fun _ => rfl⟩
    rw [compile, (Expr.parse_none_iff text).mpr hlayout]
    rfl
  · unfold compile
    cases hparse : Expr.parse text with
    | error rejection => exact .inr ⟨rejection, rfl, rfl⟩
    | ok found =>
        cases found with
        | none => exact absurd ((Expr.parse_none_iff text).mp hparse c hmem) hother
        | some e =>
            refine .inl ⟨e, rfl, fun selector hselector => ?_⟩
            cases hselector
            rw [Ne, indexing_eq_match_all_iff]
            nofun

end Selector

/-! ## One word -/

/-- The text is a single word: it begins and goes on as words do. -/
def IsWord (word : String) : Prop :=
  ∃ first rest, word.toList = first :: rest ∧ isWordStart first = true ∧ rest.all isWordChar = true

namespace Lexeme

/-- Of the reserved words all but the boolean literals are keywords. -/
theorem of_word_reserved {word : String} (h : word.toLower ∈ reservedWords)
    (htrue : word.toLower ≠ "true") (hfalse : word.toLower ≠ "false") :
    ∃ name, ofWord word = keyword name := by
  unfold ofWord
  split <;> simp_all [reservedWords]

/-- The boolean literals are words in any case. -/
theorem of_word_boolean {word : String} {flag : Bool} (h : word.toLower = toString flag) :
    ofWord word = boolean flag := by
  unfold ofWord
  rw [h]
  cases flag <;> rfl

end Lexeme

/-- A word is scanned to one token. -/
theorem IsWord.scanned {word : String} (h : IsWord word) :
    ∃ span stop, Token.scan word.toList = [⟨.ofWord word, span⟩] ++ [⟨.endOfText, stop⟩] := by
  obtain ⟨first, rest, hword, hfirst, hrest⟩ := h
  have hwritten : Lexeme.Written (.ofWord word) word.toList :=
    Lexeme.written_word hword hfirst hrest
  have hends : Lexeme.Ends (.ofWord word) [] := rfl
  obtain ⟨tokens, stop, hscan, htokens⟩ := (cut_written hwritten hends).scanned
  obtain ⟨span, rfl⟩ := eq_token_singleton htokens
  exact ⟨span, stop, hscan⟩

/-- A single word nests within the limit, even `NOT`. -/
theorem Nesting.within_word (word : String) :
    Depth.start.Within [.ofWord word, .endOfText] := by
  unfold Lexeme.ofWord
  split <;> exact ⟨Nat.le_of_ble_eq_true rfl, Nat.le_of_ble_eq_true rfl, trivial⟩

/-- No phrase is a keyword alone. -/
theorem Spells.ne_keyword {phrase : Phrase} {tokens : List Token} (h : Spells phrase tokens)
    (name : Keyword) (span : Span) : tokens ≠ [⟨.keyword name, span⟩] := by
  intro heq
  have hlength := congrArg List.length heq
  cases h with
  | identifier | string | unclosedString | float | integer | boolean => cases heq
  | group _ _ h | signed _ _ h | not _ h | arithmetic _ _ h | comparison _ _ h | and _ h | or _ h
  | between _ _ h | inList _ _ _ _ h | like _ _ h | isNull _ _ h | cutShort _ h =>
      have hpos := h.length_pos
      simp only [List.length_append, List.length_cons, List.length_nil] at hlength
      omega

namespace Expr

/-- A text of one word nests within the limit. -/
theorem too_deep_word {text : List Char} {word : String} {span stop : Span}
    (hscan : Token.scan text = [⟨.ofWord word, span⟩] ++ [⟨.endOfText, stop⟩]) :
    Nesting.tooDeep? text = none := by
  have hlexemes : Token.lexemes text = [.ofWord word, .endOfText] := by
    rw [Token.lexemes, hscan]
    rfl
  refine (Nesting.within_text_iff text (Nat.zero_le _) fun c hmem => ?_).mpr ?_
  · rw [hlexemes] at hmem
    unfold Lexeme.ofWord at hmem
    split at hmem <;> simp at hmem
  · rw [hlexemes]
    exact Nesting.within_word word

/-- A keyword alone is read as nothing. -/
theorem of_chars_keyword {text : List Char} {name : Keyword} {span stop : Span}
    (hscan : Token.scan text = [⟨.keyword name, span⟩] ++ [⟨.endOfText, stop⟩])
    (hnesting : Nesting.tooDeep? text = none) :
    ∃ position expected, ofChars text = .error (.unexpected position expected) := by
  obtain ⟨furthest, hread⟩ := Phrase.not_read_of_not_spelled hscan (List.cons_ne_nil _ _)
    fun phrase hspells => hspells.ne_keyword name span rfl
  refine ⟨furthest.position, Expectation.inOrder furthest.expected, ?_⟩
  rw [ofChars, hnesting, hread]

/-- A single word is what it says in any case: `TRUE` and `FALSE` are boolean literals, the other
reserved words are nothing by themselves, and any other word is a name, in the letters that it is
written in. -/
theorem parse_word {word : String} (h : IsWord word) :
    (word.toLower = "true" → parse word = .ok (some (.literal (.boolean true)))) ∧
      (word.toLower = "false" → parse word = .ok (some (.literal (.boolean false)))) ∧
      (word.toLower ∈ reservedWords → word.toLower ≠ "true" → word.toLower ≠ "false" →
        ∃ position expected, parse word = .error ⟨word, .unexpected position expected⟩) ∧
      (word.toLower ∉ reservedWords → parse word = .ok (some (.identifier word))) := by
  obtain ⟨span, stop, hscan⟩ := h.scanned
  have hnesting := too_deep_word hscan
  have hboolean (flag : Bool) (hflag : word.toLower = toString flag) :
      parse word = .ok (some (.literal (.boolean flag))) := by
    rw [Lexeme.of_word_boolean hflag] at hscan
    exact (parse_ok_iff _ _).mpr
      ⟨hnesting, .boolean span flag, _, stop, hscan, .boolean span flag, rfl⟩
  refine ⟨hboolean true, hboolean false, fun hreserved htrue hfalse => ?_, fun hname => ?_⟩
  · obtain ⟨name, hkeyword⟩ := Lexeme.of_word_reserved hreserved htrue hfalse
    rw [hkeyword] at hscan
    obtain ⟨position, expected, hrejected⟩ := of_chars_keyword hscan hnesting
    exact ⟨position, expected, (parse_error_iff _ _).mpr hrejected⟩
  · rw [(Lexeme.of_word_eq_identifier word word).mpr ⟨rfl, hname⟩] at hscan
    exact (parse_ok_iff _ _).mpr
      ⟨hnesting, .identifier span word, _, stop, hscan, .identifier span word, rfl⟩

/-- A word that begins with a keyword is a name, with letters of any script. -/
theorem parse_word_cases :
    parse "tRuE" = .ok (some (.literal (.boolean true))) ∧
      (∃ position expected, parse "nOt" = .error ⟨"nOt", .unexpected position expected⟩) ∧
      parse "Notée" = .ok (some (.identifier "Notée")) := by
  have hboolean : IsWord "tRuE" := ⟨'t', ['R', 'u', 'E'], by decide, by decide, by decide⟩
  have hkeyword : IsWord "nOt" := ⟨'n', ['O', 't'], by decide, by decide, by decide⟩
  have hname : IsWord "Notée" := ⟨'N', ['o', 't', 'é', 'e'], by decide, by decide, by decide⟩
  have hboolean' : "tRuE".toLower = "true" := by cbv
  have hkeyword' : "nOt".toLower = "not" := by cbv
  have hname' : "Notée".toLower = "notée" := by cbv
  have hnamed := (parse_word hname).2.2.2
  have hrejected := (parse_word hkeyword).2.2.1
  rw [hname'] at hnamed
  rw [hkeyword'] at hrejected
  exact ⟨(parse_word hboolean).1 hboolean', hrejected (by decide) (by decide) (by decide),
    hnamed (by decide)⟩

end Expr

end MessageSelector
