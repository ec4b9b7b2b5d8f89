import MessageSelector.Proofs.Escapes
import MessageSelector.Proofs.Excerpts

/-!
# What faults quote

A fault carries words of the text beside their place: a number, the operand of a test, an escape.
`Fault.TrueAt` says for each fault what has to stand where its label is put, and `true_of_rejection`
that it stands there in every text that is rejected.
-/

namespace MessageSelector

/-! ## Quotations -/

/-- What is put in quotes is read between them. -/
theorem Text.unquote_quote (text : String) : unquote? (quote text) = some text := by
  have hquoted : (quote text).toList = '\'' :: (doubleQuotes text.toList ++ ['\'']) := by
    rw [quote, String.toList_ofList, List.cons_append]
  unfold unquote?
  rw [hquoted]
  simp

/-- The span is that of a string literal, which has the contents between its quotes. -/
def QuotesAt (text : List Char) (span : Span) (contents : String) : Prop :=
  ⟨.string contents, span⟩ ∈ Token.scan text ∧
    ∃ literal : String, StandsAt text span literal.toList ∧ Text.unquote? literal = some contents

/-- What a fault says is true of what stands where it is put. -/
def Fault.TrueAt (text : List Char) (span : Span) : Fault → Prop
  | unexpected .. => True
  | unterminatedString _ => ∃ back, StandsAt text span ('\'' :: back) ∧ span.stop = byteCount text
  | identifierRequired _ found _ =>
    StandsAt text span found.toList ∧ EndsInInk found.toList ∧
      ∃ e, Expr.parse found = .ok (some e) ∧ e.identifier? = none
  | invalidEscape escape _ => QuotesAt text span escape ∧ escape.toList.length ≠ 1
  | danglingEscape _ => ∃ pattern word, QuotesAt text span pattern ∧
    [⟨.keyword .like, word⟩, ⟨.string pattern, span⟩] <:+: Token.scan text
  | numberOutOfRange literal _ => StandsAt text span literal.toList
  | nestingTooDeep _ => ∃ c, StandsAt text span [c]

/-! ## Faults of texts -/

variable {text : List Char} {whole part : Phrase} {fault : Fault} {span : Span}
  {tokens : List Token} {stop : Span}

/-- A pattern is refused for its escape text or as it ends. -/
theorem pattern_meaning_error {pattern : QuotedString} {escape : Option QuotedString}
    (h : Phrase.patternMeaning pattern escape = .error fault) :
    (∃ literal, escape = some literal ∧ literal.contents.toList.length ≠ 1 ∧
        fault = .invalidEscape literal.contents literal.span) ∨
      fault = .danglingEscape pattern.span := by
  have hblamed : (∃ found, fault = .invalidEscape found (escape.getD pattern).span) ∨
      fault = .danglingEscape pattern.span := by
    unfold Phrase.patternMeaning at h
    split at h <;> cases h
    · exact .inl ⟨_, rfl⟩
    · exact .inr rfl
  rcases hblamed with ⟨found, rfl⟩ | hdangling
  · have hjudged := Like.judged_pattern_meaning pattern escape
    obtain ⟨hescape, hlength⟩ := (hjudged.bad_escape found).mp h
    obtain ⟨literal, rfl, rfl⟩ := Option.map_eq_some_iff.mp hescape
    exact .inl ⟨literal, rfl, hlength, rfl⟩
  · exact .inr hdangling

/-- A string literal is written in quotes. -/
theorem quotes_at_of_scan {literal : QuotedString}
    (hscan : Token.scan text = tokens ++ [⟨.endOfText, stop⟩]) (hstray : NoStray tokens)
    (hmem : literal.token ∈ tokens) : QuotesAt text literal.span literal.contents := by
  obtain ⟨source, hstands, hwritten⟩ := source_of_scan hscan hstray hmem nofun
  obtain rfl := written_string hwritten
  refine ⟨by rw [hscan]; exact List.mem_append_left _ hmem, Text.quote literal.contents, ?_,
    Text.unquote_quote _⟩
  rw [Text.quote, String.toList_ofList]
  exact hstands

/-- An open string goes on to the end of the text. -/
theorem true_of_open (hmem : ⟨.unclosedString, span⟩ ∈ Token.scan text) :
    (Fault.unterminatedString span).TrueAt text span := by
  obtain ⟨before, following, hscan⟩ := List.append_of_mem hmem
  obtain ⟨front, back, -, rfl, hspan, -⟩ := open_of_scan hscan rfl
  obtain rfl : span = ⟨byteCount front, byteCount ('\'' :: back)⟩ := hspan
  exact ⟨back, ⟨front, [], by simp, rfl⟩, (byte_count_append _ _).symm⟩

/-- A part at fault by itself has a fault that is true of the text. -/
theorem ReadsAs.true_of_at_fault (h : ReadsAs text whole) (hpart : Part part whole)
    (hfault : part.AtFault text fault) (hspan : fault.span? = some span) :
    fault.TrueAt text span := by
  obtain ⟨tokens, stop, hscan, hspells⟩ := h.spells
  have hstray := no_stray_of_spells hspells
  obtain ⟨before, inner, after, rfl, hinner, -⟩ := hspells.part_behind_opening hpart
  have hmem {token : Token} (hmem : token ∈ inner) : token ∈ before ++ inner ++ after :=
    List.mem_append_left _ (List.mem_append_right _ hmem)
  have hmemScan {token : Token} (htoken : token ∈ inner) : token ∈ Token.scan text := by
    rw [hscan]
    exact List.mem_append_left _ (hmem htoken)
  cases hfault with
  | unclosedString unclosed | cutShort _ unclosed =>
      cases hspan
      cases hinner
      exact true_of_open (hmemScan (by simp))
  | float hmeaning =>
      obtain ⟨-, rfl⟩ := (Phrase.float_meaning_error_iff _ _ _).mp hmeaning
      cases hspan
      cases hinner
      obtain ⟨source, hstands, hwritten⟩ :=
        source_of_scan hscan hstray (hmem List.mem_cons_self) nofun
      obtain ⟨rfl, -⟩ := written_float hwritten
      exact hstands
  | integer hmeaning =>
      obtain ⟨-, rfl⟩ := (Phrase.integer_meaning_error_iff _ _ _ _).mp hmeaning
      cases hspan
      cases hinner
      obtain ⟨source, hstands, hwritten⟩ :=
        source_of_scan hscan hstray (hmem List.mem_cons_self) nofun
      obtain ⟨rfl, -⟩ := written_integer hwritten
      exact hstands
  | @name _ test operand e htest hmeaning hname =>
      cases hspan
      -- The operand is quoted as it stands, and so it can be read again.
      have hoperand := (part_of_child (Phrase.child_of_name_test htest)).trans hpart
      obtain ⟨source, hstands, hink, haccepted⟩ := h.excerpt hoperand hmeaning
      rw [hstands.slice]
      refine ⟨?_, ?_, e, (Expr.parse_eq_ok_iff _ _).mpr ?_, hname⟩
      all_goals rwa [String.toList_ofList]
  | @pattern operand pattern escape negated _ _ hmeaning hrefused =>
      cases hinner with
      | @like word _ _ _ _ os ns es _ _ hescape =>
          rcases pattern_meaning_error hrefused with ⟨literal, rfl, hlength, rfl⟩ | rfl
          · cases hspan
            cases hescape with
            | present mark =>
                exact ⟨quotes_at_of_scan hscan hstray (hmem (by simp)), hlength⟩
          · cases hspan
            refine ⟨pattern.contents, word, quotes_at_of_scan hscan hstray (hmem (by simp)),
              before ++ os ++ ns, es ++ after ++ [⟨.endOfText, stop⟩], ?_⟩
            rw [hscan]
            simp [QuotedString.token]

namespace Expr

/-- What a rejection says is true of the text. Its label is put on the number that is out of range,
on the literal of an escape or pattern that is refused, on an open string to the end of the text,
and on the single character at which the nesting gets too deep. An operand that is quoted because it
is no name is quoted up to its last character, and is accepted as such an operand by itself. -/
theorem true_of_rejection {text : String} {rejection : Rejection}
    (h : parse text = .error rejection) :
    rejection.text = text ∧ rejection.fault.TrueAt text.toList rejection.span := by
  obtain ⟨rfl, hfault⟩ := of_parse_error h
  refine ⟨rfl, ?_⟩
  obtain ⟨text, fault⟩ := rejection
  dsimp only at hfault ⊢
  obtain ⟨span, rfl, hdeep⟩ | ⟨position, expected, rfl⟩ | ⟨whole, hreads, hwhole⟩ :=
    ReadsAs.of_error hfault
  · obtain ⟨front, c, back, htext, rfl⟩ := too_deep_char hdeep
    have hbytes : byteCount [c] = c.utf8Size := by simp
    exact ⟨c, front, back, htext, by rw [hbytes]; rfl⟩
  · trivial
  · rw [Phrase.fault_eq_some_iff] at hwhole
    obtain ⟨part, hpart, hpartFault⟩ := Phrase.exists_at_fault hwhole
    cases hspan : fault.span? with
    | none => cases fault with
      | unexpected => trivial
      | _ => cases hspan
    | some span =>
        rw [Rejection.span_of_fault hspan]
        exact hreads.true_of_at_fault hpart hpartFault hspan

set_option maxRecDepth 2000 in
/-- A sum that is tested by name is quoted without the blanks behind it. -/
theorem true_of_rejection_sum :
    parse "é OR 5 + b  IS NULL" =
        .error ⟨"é OR 5 + b  IS NULL", .identifierRequired .isNull "5 + b" ⟨6, 5⟩⟩ ∧
      (Fault.identifierRequired .isNull "5 + b" ⟨6, 5⟩).TrueAt "é OR 5 + b  IS NULL".toList
        ⟨6, 5⟩ := by
  have hreads : ReadsAs "é OR 5 + b  IS NULL".toList (.or (.identifier ⟨0, 2⟩ "é")
      (.isNull (.arithmetic .add (.integer ⟨6, 1⟩ "5") (.identifier ⟨10, 1⟩ "b")) ⟨16, 4⟩
        false)) :=
    ⟨by decide +kernel, by cbv⟩
  have h : parse "é OR 5 + b  IS NULL" =
      .error ⟨"é OR 5 + b  IS NULL", .identifierRequired .isNull "5 + b" ⟨6, 5⟩⟩ :=
    (parse_error_iff _ _).mpr ((hreads.of_chars_error_iff _).mpr (by decide +kernel))
  exact ⟨h, (true_of_rejection h).2⟩

end Expr

end MessageSelector
