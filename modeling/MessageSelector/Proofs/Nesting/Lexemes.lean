import MessageSelector.Proofs.Canonical
import MessageSelector.Proofs.Nesting.Numbers

/-!
# The depth of a text by its lexemes

The depth of a text is measured by marks, which are coarser than lexemes where a word or a string
stands, and finer where a number does. `Depth.afterLexeme` says what all the marks of a lexeme do
together. On a text without stray characters the two measures agree, and `within_text_iff` says so.
-/

namespace MessageSelector.Nesting

/-! ## Lexemes one after the other -/

namespace Depth

/-- The depth after a lexeme. A number that ends in its point does not pass for an operand. -/
def afterLexeme (depth : Depth) : Lexeme → Depth
  | .string _ | .unclosedString | .identifier _ | .boolean _ | .keyword .null => depth.operandEnded
  | .float literal | .integer literal =>
    { depth with operators := 0, afterOperand := literal.toList.getLast?.any isNumberLetter }
  | .plus | .minus => depth.after .sign
  | .leftParen => depth.after .leftParen
  | .rightParen => depth.after .rightParen
  | .keyword .not => { depth with operators := depth.operators + 1, afterOperand := false }
  | .keyword _ | .comparison _ | .star | .slash | .comma => depth.operandExpected
  | .stray _ | .endOfText => depth

/-- From a depth on, the lexemes nest within the limit. -/
def Within (depth : Depth) : List Lexeme → Prop
  | [] => True
  | lexeme :: rest =>
    (depth.afterLexeme lexeme).levels ≤ limit ∧ (depth.afterLexeme lexeme).Within rest

end Depth

/-! ## Words -/

/-- Whatever a word goes on with is part of the mark of a word. -/
theorem is_word_mark_of_word_char {c : Char} (h : isWordChar c = true) : isWordMark c = true := by
  have hnumber : c.isDigit = true → Text.isNumber c = true := by
    intro hdigit
    have hrange := Char.isDigit_iff_toNat.mp hdigit
    have hascii : c.toNat < 0x80 := Nat.lt_of_le_of_lt hrange.2 (by decide)
    rw [Text.isNumber, if_pos hascii]
    exact hdigit
  simp only [isWordChar, isWordStart, isWordMark, Bool.or_eq_true] at h ⊢
  rcases h with ((h | h) | h) | h
  · exact .inl (.inl (.inl h))
  · exact .inl (.inr h)
  · exact .inr h
  · exact .inl (.inl (.inr (hnumber h)))

/-- What is part of the mark of a word but not of a word is stray. -/
theorem stray_of_word_mark {c : Char} (hmark : isWordMark c = true) (hword : isWordChar c = false)
    (rest : List Char) : Token.lexemes (c :: rest) = .stray c :: Token.lexemes rest := by
  have hne {other : Char} (hother : isWordMark other = false) : c ≠ other := by
    rintro rfl
    rw [hmark] at hother
    cases hother
  have hlayout : isLayout c = false := not_layout_of_kind (by decide) hmark
  have hfront : Lexeme.atFront c rest = (.stray c, 0) := by
    simp only [isWordChar, Bool.or_eq_false_iff] at hword
    unfold Lexeme.atFront
    rw [if_neg (by simp [hword.1]), if_neg (hne (by decide)),
      if_neg (by simp [hword.2, hne (show isWordMark '.' = false by decide)])]
    unfold Lexeme.symbolAt
    split
    all_goals first
      | rfl
      | exact absurd rfl (hne (by decide))
  rw [Token.lexemes_cons hlayout, hfront, List.drop_zero]

/-- No mark of a word goes on where a word has ended, in front of no stray character. -/
theorem head_not_word_mark {rest : List Char} (hword : rest.head?.any isWordChar = false)
    (hstray : ∀ c, .stray c ∉ Token.lexemes rest) : rest.head?.any isWordMark = false := by
  cases rest with
  | nil => rfl
  | cons c rest =>
      cases hmark : isWordMark c with
      | false => simp [hmark]
      | true =>
          have hlexemes := stray_of_word_mark hmark (by simpa using hword) rest
          exact absurd (by rw [hlexemes]; exact List.mem_cons_self) (hstray c)

/-- The mark of a word does what its lexeme does. -/
theorem after_word (depth : Depth) (word : String) :
    depth.after (.word word) = depth.afterLexeme (.ofWord word) := by
  unfold Lexeme.ofWord
  split <;> simp_all [Depth.after, Depth.afterLexeme, operatorWords]

/-! ## The first lexeme of a text -/

variable {depth : Depth} {first : Char} {rest : List Char}

/-- A lexeme that puts an operand behind, or in front of one, adds no levels. -/
theorem levels_of_no_operators {depth after : Depth} (h : depth.levels ≤ limit)
    (hparens : after.insideParens = depth.insideParens) (hoperators : after.operators = 0) :
    after.levels ≤ limit := by
  unfold Depth.levels at h ⊢
  rw [hparens, hoperators]
  omega

/-- A word does to the depth what its mark does. -/
theorem within_text_word (hfirst : isWordStart first = true)
    (hstray : ∀ c, .stray c ∉ Token.lexemes (rest.drop (Lexeme.wordAt first rest).2)) :
    WithinText depth (first :: rest) ↔
      (depth.afterLexeme (Lexeme.wordAt first rest).1).levels ≤ limit ∧
        WithinText (depth.afterLexeme (Lexeme.wordAt first rest).1)
          (rest.drop (Lexeme.wordAt first rest).2) := by
  unfold Lexeme.wordAt at hstray ⊢
  dsimp only at hstray ⊢
  have hsplit : rest.takeWhile isWordChar ++ rest.dropWhile isWordChar = rest :=
    List.takeWhile_append_dropWhile
  have hdrop : rest.drop (rest.takeWhile isWordChar).length = rest.dropWhile isWordChar :=
    (congrArg (List.drop _) hsplit.symm).trans List.drop_left
  have hword : (rest.dropWhile isWordChar).head?.any isWordChar = false := by
    have hhead := List.head?_dropWhile_not isWordChar rest
    cases hmore : (rest.dropWhile isWordChar).head? with
    | none => rfl
    | some c => simpa [hmore] using hhead
  rw [hdrop] at hstray ⊢
  have hfollowing : (rest.takeWhile isWordChar).all isWordMark = true :=
    List.all_eq_true.mpr fun c hc =>
      is_word_mark_of_word_char (List.all_eq_true.mp List.all_takeWhile c hc)
  have hmark := mark_at_front_word
    (is_word_mark_of_word_char (by rw [isWordChar, hfirst, Bool.true_or])) hfollowing
    (head_not_word_mark hword hstray)
  rw [hsplit] at hmark
  rw [within_text_cons, hmark, after_word, hdrop]

/-- A string does to the depth what its mark does. -/
theorem within_text_string :
    WithinText depth ('\'' :: rest) ↔
      (depth.afterLexeme (Lexeme.stringAt rest).1).levels ≤ limit ∧
        WithinText (depth.afterLexeme (Lexeme.stringAt rest).1)
          (rest.drop (Lexeme.stringAt rest).2) := by
  rw [within_text_cons]
  unfold Mark.atFront Lexeme.stringAt
  rw [if_pos rfl]
  cases hcontents : Lexeme.stringContents? [] 0 rest with
  | none => rfl
  | some found => rfl

/-- A number does to the depth what its marks do together. -/
theorem within_text_number_at (hlevels : depth.levels ≤ limit)
    (hnumber : ∀ c, (Lexeme.numberAt first rest).1 ≠ .stray c)
    (hstray : ∀ c, .stray c ∉ Token.lexemes (rest.drop (Lexeme.numberAt first rest).2)) :
    WithinText depth (first :: rest) ↔
      (depth.afterLexeme (Lexeme.numberAt first rest).1).levels ≤ limit ∧
        WithinText (depth.afterLexeme (Lexeme.numberAt first rest).1)
          (rest.drop (Lexeme.numberAt first rest).2) := by
  have hliteral {literal following : List Char}
      (h : IsPart (first :: rest) literal following ∧ following.head?.any isWordChar = false)
      (hstray : ∀ c, .stray c ∉ Token.lexemes (rest.drop (literal.length - 1))) :
      WithinText depth (first :: rest) ↔
        WithinText ⟨depth.insideParens, 0, literal.getLast?.any isNumberLetter⟩
          (rest.drop (literal.length - 1)) := by
    obtain ⟨hpart, hword⟩ := h
    have hdrop : rest.drop (literal.length - 1) = following := by
      have hlength : literal.length = (literal.length - 1) + 1 := by
        have hpos := List.length_pos_iff.mpr hpart.ne_nil
        omega
      have hcons := congrArg (List.drop literal.length) hpart.split
      rw [List.drop_left, hlength, List.drop_succ_cons] at hcons
      exact hcons
    have hinside : depth.insideParens.headD 0 ≤ limit := by
      unfold Depth.levels at hlevels
      omega
    rw [hdrop] at hstray ⊢
    rw [hpart.split, within_text_number depth hinside (fun hnil => absurd hnil hpart.ne_nil)
      (hpart.number.after_letter _) (head_not_word_mark hword hstray),
      ends_in_letter_eq hpart.ne_nil]
  unfold Lexeme.numberAt at hnumber hstray ⊢
  split
  · next literal following hfloat =>
      simp only [hfloat] at hstray
      rw [hliteral (is_part_of_float hfloat) hstray]
      dsimp only [Depth.afterLexeme]
      rw [String.toList_ofList]
      exact ⟨fun h => ⟨levels_of_no_operators hlevels rfl rfl, h⟩, fun h => h.2⟩
  · next hfloat =>
      simp only [hfloat] at hnumber hstray
      split
      · next literal following hinteger =>
          simp only [hinteger] at hstray
          rw [hliteral (is_part_of_integer hinteger) hstray]
          dsimp only [Depth.afterLexeme]
          rw [String.toList_ofList]
          exact ⟨fun h => ⟨levels_of_no_operators hlevels rfl rfl, h⟩, fun h => h.2⟩
      · next hinteger =>
          simp only [hinteger] at hnumber
          exact absurd rfl (hnumber first)

/-- A symbol does to the depth what its marks do. -/
theorem within_text_symbol (hlevels : depth.levels ≤ limit)
    (hsymbol : ∀ c, (Lexeme.symbolAt first rest).1 ≠ .stray c) :
    WithinText depth (first :: rest) ↔
      (depth.afterLexeme (Lexeme.symbolAt first rest).1).levels ≤ limit ∧
        WithinText (depth.afterLexeme (Lexeme.symbolAt first rest).1)
          (rest.drop (Lexeme.symbolAt first rest).2) := by
  have hexpected : depth.operandExpected.levels ≤ limit := levels_of_no_operators hlevels rfl rfl
  -- A comparison of two characters is two marks in front of an operand.
  have htwice (c : Char) (following : List Char)
      (hfirst : ∀ rest, depth.after (Mark.atFront first rest).1 = depth.operandExpected ∧
        (Mark.atFront first rest).2 = 0)
      (hsecond : ∀ rest, depth.operandExpected.after (Mark.atFront c rest).1 =
        depth.operandExpected ∧ (Mark.atFront c rest).2 = 0) :
      WithinText depth (first :: c :: following) ↔
        depth.operandExpected.levels ≤ limit ∧ WithinText depth.operandExpected following := by
    rw [within_text_cons, (hfirst _).1, (hfirst _).2, List.drop_zero, within_text_cons,
      (hsecond _).1, (hsecond _).2, List.drop_zero]
    exact ⟨fun h => h.2, fun h => ⟨hexpected, h⟩⟩
  unfold Lexeme.symbolAt at hsymbol ⊢
  split at hsymbol
  case h_1 | h_2 | h_3 => exact htwice _ _ (fun _ => ⟨rfl, rfl⟩) fun _ => ⟨rfl, rfl⟩
  case h_14 => exact absurd rfl (hsymbol _)
  all_goals
    rw [within_text_cons]
    rfl

/-- The first lexeme of a text does to the depth what its marks do together. -/
theorem within_text_front (hlevels : depth.levels ≤ limit) (hlayout : isLayout first = false)
    (hstray : ∀ c, .stray c ∉ Token.lexemes (first :: rest)) :
    WithinText depth (first :: rest) ↔
      (depth.afterLexeme (Lexeme.atFront first rest).1).levels ≤ limit ∧
        WithinText (depth.afterLexeme (Lexeme.atFront first rest).1)
          (rest.drop (Lexeme.atFront first rest).2) := by
  rw [Token.lexemes_cons hlayout] at hstray
  have hfront (c : Char) : (Lexeme.atFront first rest).1 ≠ .stray c :=
    fun heq => hstray c (by rw [heq]; exact List.mem_cons_self)
  have hmore (c : Char) : .stray c ∉ Token.lexemes (rest.drop (Lexeme.atFront first rest).2) :=
    fun hmem => hstray c (List.mem_cons_of_mem _ hmem)
  unfold Lexeme.atFront at hfront hmore ⊢
  split
  · next hword =>
      simp only [if_pos hword] at hmore
      exact within_text_word hword hmore
  · next hword =>
      simp only [if_neg hword] at hfront hmore
      split
      · next hquote =>
          rw [hquote]
          exact within_text_string
      · next hquote =>
          simp only [if_neg hquote] at hfront hmore
          split
          · next hdigit =>
              simp only [if_pos hdigit] at hfront hmore
              exact within_text_number_at hlevels hfront hmore
          · next hdigit =>
              simp only [if_neg hdigit] at hfront
              exact within_text_symbol hlevels hfront

/-- A text without stray characters nests within the limit exactly when its lexemes do. -/
theorem within_text_iff (text : List Char) (hlevels : depth.levels ≤ limit)
    (hstray : ∀ c, .stray c ∉ Token.lexemes text) :
    WithinText depth text ↔ depth.Within (Token.lexemes text) := by
  -- Layout is a mark and no lexeme. Any other character begins one of each.
  generalize hlength : text.length = length
  induction length using Nat.strongRecOn generalizing text depth with
  | _ length ih =>
      cases text with
      | nil => exact ⟨fun _ => ⟨hlevels, trivial⟩, fun _ => within_text_nil depth⟩
      | cons c rest =>
          simp only [List.length_cons] at hlength
          cases hlayout : isLayout c with
          | true =>
              have hmark : depth.after (Mark.atFront c rest).1 = depth ∧
                  (Mark.atFront c rest).2 = 0 := by
                simp only [isLayout, Bool.or_eq_true, decide_eq_true_eq] at hlayout
                rcases hlayout with (((rfl | rfl) | rfl) | rfl) | rfl <;> exact ⟨rfl, rfl⟩
              rw [Token.lexemes_layout hlayout] at hstray ⊢
              rw [within_text_cons, hmark.1, hmark.2, List.drop_zero,
                ih rest.length (by omega) rest hlevels hstray rfl]
              exact ⟨fun h => h.2, fun h => ⟨hlevels, h⟩⟩
          | false =>
              rw [within_text_front hlevels hlayout hstray]
              rw [Token.lexemes_cons hlayout] at hstray ⊢
              refine and_congr_right fun hafter => ?_
              exact ih _ (by rw [List.length_drop]; omega) _ hafter
                (fun c hmem => hstray c (List.mem_cons_of_mem _ hmem)) rfl

/-- A text whose tokens spell a phrase nests within the limit exactly when their lexemes do. -/
theorem too_deep_eq_none_iff {text : List Char} {phrase : Phrase} {tokens : List Token}
    {stop : Span} (htokens : Token.scan text = tokens ++ [⟨.endOfText, stop⟩])
    (hspells : Spells phrase tokens) :
    tooDeep? text = none ↔ Depth.start.Within (tokens.map (·.lexeme) ++ [.endOfText]) := by
  have hlexemes : Token.lexemes text = tokens.map (·.lexeme) ++ [.endOfText] := by
    rw [Token.lexemes, htokens, List.map_append]
    rfl
  rw [← hlexemes]
  refine within_text_iff text (by decide) fun c hmem => ?_
  rw [hlexemes, List.mem_append] at hmem
  rcases hmem with hmem | hmem
  · obtain ⟨token, htoken, hstray⟩ := List.mem_map.mp hmem
    exact no_stray_of_spells hspells token htoken c hstray
  · cases List.mem_singleton.mp hmem

end MessageSelector.Nesting
