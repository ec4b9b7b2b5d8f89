import MessageSelector.Proofs.Pairs.Magnitudes
import MessageSelector.Proofs.Pairs.Shapes
import MessageSelector.Proofs.Pairs.Sources

/-!
# Signs and the numbers behind them

A sign takes up the number behind it after the number was read, so a number that is out of range on
its own is still the least integer under a minus. `under_sign_eq` says that what is made of a sign
and its operand is the meaning of both: the text between a minus and a number out of range tells
whether the number is the operand itself.
-/

namespace MessageSelector

/-! ## Texts that are read -/

/-- A text is cut into tokens, none of which is a stray character, and its end. -/
structure Scanned (text : List Char) (tokens : List Token) : Prop where
  ends : ∃ stop, Token.scan text = tokens ++ [⟨.endOfText, stop⟩]
  noStray : NoStray tokens

namespace Scanned

variable {text : List Char} {tokens ts : List Token} {token : Token}

/-- A token stands where it is written, unless it is an open string. -/
theorem source (h : Scanned text tokens) (hmem : token ∈ tokens)
    (hclosed : token.lexeme ≠ .unclosedString) :
    ∃ source, StandsAt text token.span source ∧ Lexeme.Written token.lexeme source :=
  let ⟨_, hscan⟩ := h.ends
  source_of_scan hscan h.noStray hmem hclosed

/-- A token is written where it stands, unless it is an open string. -/
theorem written (h : Scanned text tokens) {lexeme : Lexeme} {span : Span}
    (hmem : ⟨lexeme, span⟩ ∈ tokens) (hclosed : lexeme ≠ .unclosedString) :
    Lexeme.Written lexeme (span.slice text).toList := by
  obtain ⟨source, hstands, hwritten⟩ := h.source hmem hclosed
  rw [hstands.slice, String.toList_ofList]
  exact hwritten

/-- A token of a text is its end, or one of those before it. -/
theorem mem (h : Scanned text tokens) (hmem : token ∈ Token.scan text)
    (hend : token.lexeme ≠ .endOfText) : token ∈ tokens := by
  obtain ⟨stop, hscan⟩ := h.ends
  rw [hscan, List.mem_append, List.mem_singleton] at hmem
  exact hmem.resolve_right fun heq => hend (congrArg Token.lexeme heq)

/-- Tokens begin and end between characters. -/
theorem boundaries (h : Scanned text tokens) (hmem : token ∈ tokens) :
    Boundary text token.span.start ∧ Boundary text token.span.stop := by
  obtain ⟨stop, hscan⟩ := h.ends
  refine boundaries_of_scan ?_
  rw [hscan]
  exact List.mem_append_left _ hmem

/-- A stretch of the tokens is one of all tokens of the text. -/
theorem infix_scan (h : Scanned text tokens) (hts : ts <:+: tokens) : ts <:+: Token.scan text := by
  obtain ⟨stop, hscan⟩ := h.ends
  rw [hscan]
  exact hts.trans (List.prefix_append _ _).isInfix

/-- The contents of a string literal are read off its pair. -/
theorem unquoted (h : Scanned text tokens) {literal : QuotedString}
    (hmem : literal.token ∈ tokens) :
    literal.pair.unquoted text = literal.contents := by
  obtain ⟨source, ⟨front, back, htext, hspan⟩, hwritten⟩ := h.source hmem nofun
  obtain rfl := written_string hwritten
  have hspan : literal.span = ⟨byteCount front, _⟩ := hspan
  have hinner : StandsAt text ⟨literal.span.start + 1, literal.span.length - 2⟩
      (Text.doubleQuotes literal.contents.toList) := by
    refine ⟨front ++ ['\''], '\'' :: back, by simp [htext], ?_⟩
    have hquote : '\''.utf8Size = 1 := rfl
    rw [hspan]
    simp [hquote]
    omega
  change String.ofList (Text.collapseQuotes
    (Span.slice ⟨literal.span.start + 1, literal.span.length - 2⟩ text).toList) = _
  rw [hinner.slice, String.toList_ofList, Text.collapse_double_quotes, String.ofList_toList]

/-- What stands in front of a token that a mark stands in front of does not follow the sign before
the mark directly. -/
theorem directly_follows_eq_false (h : Scanned text tokens) {sign mark : Token} {name : Rule}
    {more : List Token} (hts : sign :: mark :: more <:+: tokens)
    (hmark : mark.lexeme = .leftParen ∨ ∃ sign : Sign, mark.lexeme = sign.lexeme)
    (hmem : token ∈ more) :
    Building.directlyFollows text (.mk name sign.span []) token.span.start = false := by
  have hin {other : Token} (hother : other ∈ sign :: mark :: more) : other ∈ tokens :=
    hts.subset hother
  have hsorted := (Token.scan_sorted text).sublist (h.infix_scan hts).sublist
  simp only [List.pairwise_cons] at hsorted
  obtain ⟨hbefore, hafter, -⟩ := hsorted
  have hclosed : mark.lexeme ≠ .unclosedString := by
    rcases hmark with hparen | ⟨_ | _, hsign⟩
    · rw [hparen]; nofun
    · rw [hsign]; nofun
    · rw [hsign]; nofun
  obtain ⟨source, hstands, hwritten⟩ := h.source (hin (by simp)) hclosed
  obtain ⟨c, rfl, hblank⟩ := written_mark hwritten hmark
  obtain ⟨front, back, hslice⟩ := hstands.between (h.boundaries (hin List.mem_cons_self)).2
    (h.boundaries (hin (by simp [hmem]))).1 (hbefore mark List.mem_cons_self) (hafter token hmem)
  rw [Building.directlyFollows, Bool.and_eq_false_iff]
  refine .inr ?_
  rw [Pair.span_mk, hslice, List.all_eq_false]
  exact ⟨c, by simp, by rw [hblank]; exact Bool.false_ne_true⟩

/-- The next token follows a sign directly. -/
theorem directly_follows_next (h : Scanned text tokens) {sign : Token} {name : Rule}
    (hts : [sign, token] <:+: tokens) :
    Building.directlyFollows text (.mk name sign.span []) token.span.start = true := by
  obtain ⟨gap, hgap, hle, hlayout⟩ := gap_of_scan (h.infix_scan hts)
  rw [Building.directlyFollows, Pair.span_mk, hgap.slice, String.toList_ofList, Bool.and_eq_true,
    decide_eq_true_eq, List.all_eq_true]
  refine ⟨hle, fun c hc => ?_⟩
  have hc : isLayout c = true := List.all_eq_true.mp hlayout c hc
  simp only [isLayout, Bool.or_eq_true, decide_eq_true_eq] at hc
  rcases hc with (((rfl | rfl) | rfl) | rfl) | rfl <;> decide

end Scanned

/-! ## Signs -/

section Signs

variable {text : List Char} {tokens ts : List Token} {mark : Span} {sign : Sign} {operand : Phrase}

/-- What a fault is put on begins with one of the tokens that are blamed. -/
theorem Blames.start {fault : Fault} {span : Span} (h : Blames ts fault)
    (hspan : fault.span? = some span) : ∃ token ∈ ts, token.span.start = span.start := by
  obtain ⟨run, _, hrun, hspan', first, last, hfirst, -, rfl⟩ := h
  cases hspan.symm.trans hspan'
  exact ⟨first, hrun.subset (List.mem_of_head? hfirst), rfl⟩

/-- A sign is put on what its operand means. -/
theorem under_sign_ok (e : Expr) :
    Building.underSign text (.mk sign.rule mark []) (.ok e) = .ok (e.withSign sign) := by
  cases sign <;> rfl

/-- A sign keeps the fault of its operand, unless a minus makes the least integer of it. -/
theorem under_sign_error {fault : Fault}
    (h : ∀ literal span, fault = .numberOutOfRange literal span → sign = .minus →
      Building.directlyFollows text (.mk sign.rule mark []) span.start = true →
      magnitude? literal ≠ some (2 ^ 63)) :
    Building.underSign text (.mk sign.rule mark []) (.error (.fault fault)) =
      .error (.fault fault) := by
  cases fault with
  | numberOutOfRange literal span =>
      have hnot := h literal span rfl
      cases sign with
      | plus => rfl
      | minus => exact if_neg fun ⟨hsign, hfollows, hleast⟩ => hnot hsign hfollows hleast
  | _ => cases sign <;> rfl

/-- A minus directly in front of an integer literal makes the negative integer of both. -/
theorem under_sign_integer (h : Scanned text tokens) {span : Span} {literal : String}
    (hts : [⟨.minus, mark⟩, ⟨.integer literal, span⟩] <:+: tokens) :
    Building.underSign text (.mk (Sign.rule .minus) mark [])
        ((Phrase.integerMeaning span literal (Token.integerValue literal)).mapError .fault) =
      (Phrase.integerMeaning span literal (-Token.integerValue literal)).mapError .fault := by
  have hmem : ⟨.integer literal, span⟩ ∈ tokens := hts.subset (by simp)
  obtain ⟨source, -, hwritten⟩ := h.source hmem (by simp)
  obtain ⟨rfl, hinteger⟩ := written_integer hwritten
  have hfollows :
      Building.directlyFollows text (.mk (Sign.rule .minus) mark []) span.start = true :=
    h.directly_follows_next hts
  have hmagnitude := magnitude_of_integer hinteger
  -- The one literal that is out of range alone and in range under a minus is that of 2 ^ 63.
  cases hvalue : Integer.narrow (Token.integerValue literal) with
  | some number =>
      have hnumber := (Integer.narrow_eq_some_iff _ _).mp hvalue
      have hlt := number.toInt_lt
      cases hnegative : Integer.narrow (-Token.integerValue literal) with
      | none =>
          rw [Integer.narrow_eq_none_iff] at hnegative
          omega
      | some negative =>
          have hsigned : (Value.integer number).signed? .minus = some (.integer negative) := by
            rw [Value.signed?, Value.negate?, hnumber, hnegative]
            rfl
          rw [Phrase.integerMeaning, hvalue, Phrase.integerMeaning, hnegative]
          exact (under_sign_ok _).trans (congrArg Except.ok (Expr.with_sign_of_some hsigned))
  | none =>
      have hlarge := (Integer.narrow_eq_none_iff _).mp hvalue
      by_cases hleast : Token.integerValue literal = 2 ^ 63
      · have hnegative : Integer.narrow (-Token.integerValue literal) = some Int64.minValue := by
          rw [Integer.narrow_eq_some_iff, Int64.toInt_minValue, hleast]
          rfl
        rw [hleast, if_pos (by decide)] at hmagnitude
        rw [Phrase.integerMeaning, hvalue, Phrase.integerMeaning, hnegative]
        exact if_pos ⟨rfl, hfollows, hmagnitude⟩
      · have hnegative : Integer.narrow (-Token.integerValue literal) = none := by
          rw [Integer.narrow_eq_none_iff]
          omega
        rw [Phrase.integerMeaning, hvalue, Phrase.integerMeaning, hnegative]
        refine under_sign_error ?_
        rintro _ _ ⟨⟩ - -
        rw [hmagnitude]
        split
        · exact fun heq => hleast (Option.some.inj heq)
        · simp

/-- A number out of range under a sign is a literal itself, or stands behind the parenthesis or the
sign that its operand begins with. -/
theorem behind_mark_of_out_of_range (hspells : Spells operand ts)
    (hrank : Expr.Binding.sign.rank ≤ operand.binding.rank) {literal : String} {span : Span}
    (h : operand.meaning text = .error (.numberOutOfRange literal span)) :
    operand = .integer span literal ∨ operand = .float span literal ∨
      ∃ first more, ts = first :: more ∧
        (first.lexeme = .leftParen ∨ ∃ sign : Sign, first.lexeme = sign.lexeme) ∧
        ∃ token ∈ more, token.span.start = span.start := by
  cases hspells with
  | float =>
      rw [Phrase.meaning, Phrase.floatMeaning] at h
      split at h <;> cases h
      exact .inr (.inl rfl)
  | integer =>
      rw [Phrase.meaning, Phrase.integerMeaning] at h
      split at h <;> cases h
      exact .inl rfl
  | group _ _ hinner =>
      obtain ⟨token, hmem, hstart⟩ := (hinner.blames h).start rfl
      exact .inr (.inr ⟨_, _, rfl, .inl rfl, token, List.mem_append_left _ hmem, hstart⟩)
  | signed mark sign hinner =>
      refine .inr (.inr ⟨_, _, rfl, .inr ⟨sign, rfl⟩, ?_⟩)
      exact (hinner.blames (Phrase.meaning_signed_error h)).start rfl
  | identifier | string | boolean | unclosedString => cases h
  | arithmetic op =>
      cases op <;> simp [Phrase.binding, Expr.Binding.ofArithmetic, Expr.Binding.rank,
        Arithmetic.isMultiplicative] at hrank
  | _ => simp [Phrase.binding, Expr.Binding.rank] at hrank

/-- Any other operand under a sign has the sign put on its meaning, and keeps its fault. -/
theorem under_sign_other (h : Scanned text tokens) (hspells : Spells operand ts)
    (hrank : Expr.Binding.sign.rank ≤ operand.binding.rank)
    (hts : ⟨sign.lexeme, mark⟩ :: ts <:+: tokens)
    (hother : ∀ span literal, sign = .minus → operand = .integer span literal → False) :
    Building.underSign text (.mk sign.rule mark []) ((operand.meaning text).mapError .fault) =
      ((Phrase.signed mark sign operand).meaning text).mapError .fault := by
  have hsigned : (Phrase.signed mark sign operand).meaning text =
      operand.meaning text >>= fun e => Except.ok (e.withSign sign) := by
    rw [Phrase.meaning]
    · rfl
    · exact hother
  rw [hsigned]
  cases hmeaning : operand.meaning text with
  | ok e => exact under_sign_ok e
  | error fault =>
      refine under_sign_error ?_
      rintro literal span rfl rfl hfollows
      obtain rfl | rfl | ⟨first, more, rfl, hfirst, token, hmem, hstart⟩ :=
        behind_mark_of_out_of_range hspells hrank hmeaning
      · exact absurd rfl (hother span literal rfl)
      · cases hspells
        have hmem : ⟨.float literal, span⟩ ∈ tokens := hts.subset (by simp)
        obtain ⟨source, -, hwritten⟩ := h.source hmem (by simp)
        obtain ⟨rfl, hfloat⟩ := written_float hwritten
        rw [magnitude_of_float hfloat]
        simp
      · rw [← hstart] at hfollows
        have hnot : Building.directlyFollows text (.mk (Sign.rule .minus) mark [])
            token.span.start = false := h.directly_follows_eq_false hts hfirst hmem
        cases hnot.symm.trans hfollows

/-- An operand under a sign means what the phrase does. -/
theorem under_sign_eq (h : Scanned text tokens) (hspells : Spells operand ts)
    (hrank : Expr.Binding.sign.rank ≤ operand.binding.rank)
    (hts : ⟨sign.lexeme, mark⟩ :: ts <:+: tokens) :
    Building.underSign text (.mk sign.rule mark []) ((operand.meaning text).mapError .fault) =
      ((Phrase.signed mark sign operand).meaning text).mapError .fault := by
  by_cases hinteger : ∃ span literal, sign = .minus ∧ operand = .integer span literal
  · obtain ⟨span, literal, rfl, rfl⟩ := hinteger
    cases hspells
    exact under_sign_integer h hts
  · exact under_sign_other h hspells hrank hts fun span literal hsign hoperand =>
      hinteger ⟨span, literal, hsign, hoperand⟩

end Signs

end MessageSelector
