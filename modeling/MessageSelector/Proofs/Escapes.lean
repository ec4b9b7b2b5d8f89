import MessageSelector.Proofs.Faults.Leftmost
import MessageSelector.Proofs.Wildcards

/-!
# When a pattern is refused

An escape text has to be a single character, and a pattern may not end in the middle of an escape.
Escapes are read from the front in pairs of characters, but whether the last one is whole can be
told from the end of the pattern alone: `items_eq_none_iff`. `Judged` puts the rule down, and
`escapes_judged` says that it decides over patterns by themselves and over the conditions in texts.
-/

namespace MessageSelector.Like

/-! ## The end of a pattern -/

/-- How often a character stands at the end of a text, one behind the other. -/
def trailing (c : Char) (text : List Char) : Nat :=
  (text.rtakeWhile (· == c)).length

@[simp] theorem trailing_nil (c : Char) : trailing c [] = 0 :=
  rfl

/-- A further character in front counts where it is one more of nothing else. -/
theorem trailing_cons (c d : Char) (rest : List Char) :
    trailing c (d :: rest) =
      if d = c ∧ rest.all (· == c) then rest.length + 1 else trailing c rest := by
  have hself : rest.all (· == c) = true ↔ rest.reverse.takeWhile (· == c) = rest.reverse := by
    rw [List.takeWhile_eq_self_iff]
    simp
  unfold trailing List.rtakeWhile
  rw [List.reverse_cons, List.takeWhile_append]
  by_cases hall : rest.all (· == c) = true
  · rw [hself.mp hall, if_pos rfl]
    by_cases hd : d = c <;> simp [hd, hall]
  · have hlength : (rest.reverse.takeWhile (· == c)).length ≠ rest.reverse.length := fun heq =>
      hall (hself.mpr ((List.takeWhile_prefix _).eq_of_length heq))
    rw [if_neg hlength, if_neg fun h => hall h.2]

/-- A text of nothing but the character ends in all of it. -/
theorem trailing_of_all {c : Char} {text : List Char} (h : text.all (· == c) = true) :
    trailing c text = text.length := by
  rw [trailing, List.rtakeWhile_eq_self_iff.mpr (List.all_eq_true.mp h)]

/-- An escape character and the character behind it leave open whether the run at the end is odd. -/
theorem odd_trailing_escaped (c d : Char) (rest : List Char) :
    Odd (trailing c (c :: d :: rest)) ↔ Odd (trailing c rest) := by
  rw [trailing_cons, trailing_cons]
  by_cases hall : rest.all (· == c) = true
  · by_cases hd : d = c
    · simp [hall, hd, trailing_of_all hall, Nat.odd_add]
    · simp [hd]
  · simp [hall]

/-- Nothing is left of an empty pattern. -/
theorem items_nil (escape : Option Char) : items? escape [] = some [] :=
  rfl

/-- A pattern ends in the middle of an escape just if the run of the escape character at its end is
odd. -/
theorem items_eq_none_iff (c : Char) (text : List Char) :
    items? (some c) text = none ↔ Odd (trailing c text) := by
  -- An escape takes two characters, so the induction goes by two.
  induction text using List.twoStepInduction with
  | nil => simp [items_nil]
  | singleton d =>
      rw [trailing_cons]
      by_cases hescape : some c = some d
      · cases hescape
        simp [items_dangling]
      · have hne : d ≠ c := fun heq => hescape (by rw [heq])
        rw [items_plain hescape, if_neg fun h => hne h.1]
        simp [items_nil]
  | cons_cons d next rest ih ihNext =>
      by_cases hescape : some c = some d
      · cases hescape
        rw [items_escaped rfl, Option.map_eq_none_iff, ih, odd_trailing_escaped]
      · have hne : d ≠ c := fun heq => hescape (by rw [heq])
        rw [items_plain hescape, Option.map_eq_none_iff, ihNext next, trailing_cons c d, if_neg]
        exact fun h => hne h.1

/-! ## Patterns by themselves -/

/-- How a pattern with an escape text is judged: when it is refused for the escape text, when for
its end, and when it is accepted. -/
structure Judged (pattern : String) (escape : Option String) (badEscape : String → Prop)
    (dangling accepted : Prop) : Prop where
  /-- The escape text is blamed where there is one that is not a single character. -/
  bad_escape (found) : badEscape found ↔ escape = some found ∧ found.toList.length ≠ 1
  /-- The pattern is blamed where the run of the escape character at its end is odd. -/
  dangling : dangling ↔
    ∃ c, escape = some (String.singleton c) ∧ Odd (trailing c pattern.toList)
  /-- There is nothing else to blame. -/
  accepted : accepted ↔
    escape = none ∨ ∃ c, escape = some (String.singleton c) ∧ Even (trailing c pattern.toList)

/-- What comes to the same is judged alike. -/
theorem Judged.of_iff {pattern : String} {escape : Option String} {badEscape bad : String → Prop}
    {dangling dangles accepted accepts : Prop}
    (h : Judged pattern escape badEscape dangling accepted)
    (hbad : ∀ found, bad found ↔ badEscape found) (hdangling : dangles ↔ dangling)
    (haccepted : accepts ↔ accepted) : Judged pattern escape bad dangles accepts where
  bad_escape found := (hbad found).trans (h.bad_escape found)
  dangling := hdangling.trans h.dangling
  accepted := haccepted.trans h.accepted

namespace Pattern

/-- Without an escape character no pattern is refused. -/
theorem of_text_plain (text : String) : ∃ pattern, ofText text none = .ok pattern := by
  have hcomplete : (items? none text.toList).isSome = true := by
    induction text.toList with
    | nil => rfl
    | cons c rest ih =>
        rw [items_plain (by simp), Option.isSome_map]
        exact ih
  exact ⟨⟨text, none, hcomplete⟩, dif_pos hcomplete⟩

/-- With an escape character a pattern is refused just if it ends in the middle of an escape. -/
theorem of_text_single (text : String) (c : Char) :
    (Odd (trailing c text.toList) ∧
        ofText text (some (String.singleton c)) = .error .danglingEscape) ∨
      (Even (trailing c text.toList) ∧
        ∃ pattern, ofText text (some (String.singleton c)) = .ok pattern) := by
  have hescape : escapeChar? (some (String.singleton c)) = .ok (some c) := by
    simp [escapeChar?]
  have hodd := items_eq_none_iff c text.toList
  rw [← Option.not_isSome_iff_eq_none] at hodd
  simp only [ofText, hescape, bind, Except.bind]
  by_cases hcomplete : (items? (some c) text.toList).isSome = true
  · refine .inr ⟨Nat.not_odd_iff_even.mp fun h => hodd.mpr h hcomplete, ?_⟩
    exact ⟨_, dif_pos hcomplete⟩
  · exact .inl ⟨hodd.mp hcomplete, dif_neg hcomplete⟩

/-- An escape text that is no single character is refused, whatever the pattern is. -/
theorem of_text_long (text : String) {escape : String} (h : escape.toList.length ≠ 1) :
    ofText text (some escape) = .error (.escapeLength escape) := by
  have hescape : escapeChar? (some escape) = .error (.escapeLength escape) := by
    unfold escapeChar?
    dsimp only
    split
    · next c hchars => exact absurd (by rw [hchars]; rfl) h
    · rfl
  rw [ofText, hescape]
  rfl

end Pattern

/-- A text is a single character or has some other number of characters. -/
theorem single_or_long (escape : String) :
    (∃ c, escape = String.singleton c) ∨ escape.toList.length ≠ 1 := by
  by_cases hlength : escape.toList.length = 1
  · obtain ⟨c, hc⟩ := List.length_eq_one_iff.mp hlength
    exact .inl ⟨c, String.toList_inj.mp (by simpa using hc)⟩
  · exact .inr hlength

/-- Patterns by themselves are judged so. -/
theorem judged_of_text (pattern : String) (escape : Option String) :
    Judged pattern escape
      (fun found => Pattern.ofText pattern escape = .error (.escapeLength found))
      (Pattern.ofText pattern escape = .error .danglingEscape)
      (∃ compiled, Pattern.ofText pattern escape = .ok compiled) := by
  cases escape with
  | none =>
      obtain ⟨compiled, hok⟩ := Pattern.of_text_plain pattern
      exact ⟨by simp [hok], by simp [hok], by simp [hok]⟩
  | some escape =>
      obtain ⟨c, rfl⟩ | hlength := single_or_long escape
      · have hsingle (found : String) :
            ¬ (some (String.singleton c) = some found ∧ found.toList.length ≠ 1) := by
          rintro ⟨⟨⟩, hlength⟩
          exact hlength (by simp)
        obtain ⟨hodd, herror⟩ | ⟨heven, compiled, hok⟩ := Pattern.of_text_single pattern c
        · have hnot := Nat.not_even_iff_odd.mpr hodd
          refine ⟨fun found => iff_of_false ?_ (hsingle found), ?_, ?_⟩
          · simp [herror]
          · simp [herror, hodd]
          · simp [herror, hnot]
        · have hnot := Nat.not_odd_iff_even.mpr heven
          refine ⟨fun found => iff_of_false ?_ (hsingle found), ?_, ?_⟩
          · simp [hok]
          · simp [hok, hnot]
          · simp [hok, heven]
      · have herror := Pattern.of_text_long pattern hlength
        have hnone (c : Char) : escape ≠ String.singleton c := by
          rintro rfl
          exact hlength (by simp)
        refine ⟨fun found => ?_, ?_, ?_⟩
        · simp only [herror, Except.error.injEq, Fault.escapeLength.injEq, Option.some.injEq]
          exact ⟨fun heq => ⟨heq, heq ▸ hlength⟩, And.left⟩
        · simp [herror, hnone]
        · simp [herror, hnone]

/-! ## Conditions of texts -/

/-- The text is read with a condition in it that puts a pattern to a name. -/
structure PatternTest (text : List Char) (condition : Phrase) (pattern : QuotedString)
    (escape : Option QuotedString) : Prop where
  stands : ∃ whole, ReadsAs text whole ∧ Part condition whole
  tests : ∃ operand negated name, condition = .like operand pattern escape negated ∧
    operand.meaning text = .ok (.identifier name)

namespace PatternTest

variable {text : List Char} {condition : Phrase} {pattern : QuotedString}
  {escape : Option QuotedString}

/-- A condition on a name has the fault of its pattern and no other. -/
theorem fault_eq_some_iff (h : PatternTest text condition pattern escape)
    (fault : MessageSelector.Fault) :
    condition.fault? text = some fault ↔ Phrase.patternMeaning pattern escape = .error fault := by
  obtain ⟨operand, negated, name, rfl, hoperand⟩ := h.tests
  rw [Phrase.fault_eq_some_iff, Phrase.meaning]
  simp only [bind_error_iff, hoperand, Phrase.require_identifier_error_iff,
    Phrase.require_identifier_ok_iff]
  simp [Expr.identifier?, pure, Except.pure]

/-- A condition on a name has no fault where its pattern has a meaning. -/
theorem fault_eq_none_iff (h : PatternTest text condition pattern escape) :
    condition.fault? text = none ↔
      ∃ compiled, Phrase.patternMeaning pattern escape = .ok compiled := by
  cases hpattern : Phrase.patternMeaning pattern escape with
  | error fault => simp [(h.fault_eq_some_iff fault).mpr hpattern]
  | ok compiled =>
      cases hfault : condition.fault? text with
      | none => simp
      | some fault =>
          rw [h.fault_eq_some_iff, hpattern] at hfault
          cases hfault

end PatternTest

/-- A pattern of a text is judged as it is by itself, and the literal to blame is blamed. -/
theorem judged_pattern_meaning (pattern : QuotedString) (escape : Option QuotedString) :
    Judged pattern.contents (escape.map (·.contents))
      (fun found => Phrase.patternMeaning pattern escape =
        .error (.invalidEscape found (escape.getD pattern).span))
      (Phrase.patternMeaning pattern escape = .error (.danglingEscape pattern.span))
      (∃ compiled, Phrase.patternMeaning pattern escape = .ok compiled) := by
  have hjudged := judged_of_text pattern.contents (escape.map (·.contents))
  unfold Phrase.patternMeaning
  cases hcompiled : Pattern.ofText pattern.contents (escape.map (·.contents)) with
  | ok compiled =>
      rw [hcompiled] at hjudged
      exact hjudged.of_iff (by simp) (by simp) (by simp)
  | error refused =>
      rw [hcompiled] at hjudged
      cases refused with
      | escapeLength | danglingEscape => exact hjudged.of_iff (by simp) (by simp) (by simp)

/-- A condition on a name is judged by its pattern. -/
theorem PatternTest.judged {text : List Char} {condition : Phrase} {pattern : QuotedString}
    {escape : Option QuotedString} (h : PatternTest text condition pattern escape) :
    Judged pattern.contents (escape.map (·.contents))
      (fun found =>
        condition.fault? text = some (.invalidEscape found (escape.getD pattern).span))
      (condition.fault? text = some (.danglingEscape pattern.span))
      (condition.fault? text = none) :=
  (judged_pattern_meaning pattern escape).of_iff (fun _ => h.fault_eq_some_iff _)
    (h.fault_eq_some_iff _) h.fault_eq_none_iff

namespace PatternTest

variable {text : String} {condition : Phrase} {pattern : QuotedString}
  {escape : Option QuotedString}

/-- A text with a condition at fault is rejected. -/
theorem rejected (h : PatternTest text.toList condition pattern escape)
    (hfault : condition.fault? text.toList ≠ none) :
    ∃ fault, Expr.parse text = .error ⟨text, fault⟩ := by
  obtain ⟨whole, hreads, hpart⟩ := h.stands
  cases hwhole : whole.fault? text.toList with
  | some fault =>
      exact ⟨fault, (Expr.parse_error_iff _ _).mpr ((hreads.of_chars_error_iff fault).mpr hwhole)⟩
  | none =>
      rw [Phrase.fault_eq_none_iff] at hwhole
      obtain ⟨e, hmeaning⟩ := hwhole
      rw [Ne, Phrase.fault_eq_none_iff] at hfault
      obtain hinner | ⟨span, literal, rfl⟩ := Phrase.meaning_of_part hmeaning hpart
      · exact absurd hinner hfault
      · obtain ⟨_, _, _, hlike, -⟩ := h.tests
        cases hlike

/-- A text that is rejected for nothing but the condition is judged by its pattern. -/
theorem judged_parse (h : PatternTest text.toList condition pattern escape)
    (honly : ∀ fault, Expr.parse text = .error ⟨text, fault⟩ →
      condition.fault? text.toList = some fault) :
    Judged pattern.contents (escape.map (·.contents))
      (fun found =>
        Expr.parse text = .error ⟨text, .invalidEscape found (escape.getD pattern).span⟩)
      (Expr.parse text = .error ⟨text, .danglingEscape pattern.span⟩)
      (∃ e, Expr.parse text = .ok (some e)) := by
  have hrejected (fault : MessageSelector.Fault) :
      Expr.parse text = .error ⟨text, fault⟩ ↔ condition.fault? text.toList = some fault := by
    refine ⟨honly fault, fun hfault => ?_⟩
    obtain ⟨found, hfound⟩ := h.rejected (by rw [hfault]; simp)
    have hsame := honly found hfound
    rw [hfault] at hsame
    cases hsame
    exact hfound
  refine h.judged.of_iff (fun found => hrejected _) (hrejected _) ?_
  constructor
  · rintro ⟨e, haccepted⟩
    cases hfault : condition.fault? text.toList with
    | none => rfl
    | some fault =>
        rw [← hrejected, haccepted] at hfault
        cases hfault
  · intro hnone
    obtain ⟨whole, hreads, -⟩ := h.stands
    cases hmeaning : whole.meaning text.toList with
    | ok e => exact ⟨e, (Expr.parse_eq_ok_iff _ _).mpr ((hreads.of_chars_ok_iff e).mpr hmeaning)⟩
    | error fault =>
        rw [← Phrase.fault_eq_some_iff, ← hreads.of_chars_error_iff, ← Expr.parse_error_iff,
          hrejected, hnone] at hmeaning
        cases hmeaning

end PatternTest

/-- Only a condition on a name has a fault of its pattern. -/
theorem pattern_test_of_fault {text : List Char} {fault : MessageSelector.Fault}
    (h : Expr.ofChars text = .error fault)
    (hfault : (∃ found span, fault = .invalidEscape found span) ∨
      ∃ span, fault = .danglingEscape span) :
    ∃ condition pattern escape, PatternTest text condition pattern escape ∧
      condition.fault? text = some fault := by
  obtain ⟨span, rfl, -⟩ | ⟨position, expected, rfl⟩ | ⟨whole, hreads, hwhole⟩ := ReadsAs.of_error h
  · simp at hfault
  · simp at hfault
  · obtain ⟨part, hpart, hat⟩ :=
      Phrase.exists_at_fault ((Phrase.fault_eq_some_iff whole fault).mp hwhole)
    cases hat with
    | @pattern operand pattern escape negated name _ hoperand hmeaning =>
        have htest : PatternTest text (.like operand pattern escape negated) pattern escape :=
          ⟨⟨whole, hreads, hpart⟩, operand, negated, name, rfl, hoperand⟩
        exact ⟨_, pattern, escape, htest, (htest.fault_eq_some_iff fault).mpr hmeaning⟩
    | unclosedString | cutShort | name => simp at hfault
    | float hmeaning =>
        obtain ⟨-, rfl⟩ := (Phrase.float_meaning_error_iff _ _ _).mp hmeaning
        simp at hfault
    | integer hmeaning =>
        obtain ⟨-, rfl⟩ := (Phrase.integer_meaning_error_iff _ _ _ _).mp hmeaning
        simp at hfault

/-- When patterns are refused for their escapes, and for which. That is so for every pattern and
escape text, and for every condition of a text that puts its pattern to a name, wherever it stands.
The text itself is judged so too if it is rejected for nothing but the condition, and no text is
rejected for an escape without such a condition. -/
theorem escapes_judged :
    (∀ pattern escape, Judged pattern escape
      (fun found => Pattern.ofText pattern escape = .error (.escapeLength found))
      (Pattern.ofText pattern escape = .error .danglingEscape)
      (∃ compiled, Pattern.ofText pattern escape = .ok compiled)) ∧
    (∀ (text : String) condition pattern escape,
      PatternTest text.toList condition pattern escape →
      Judged pattern.contents (escape.map (·.contents))
        (fun found => condition.fault? text.toList =
          some (.invalidEscape found (escape.getD pattern).span))
        (condition.fault? text.toList = some (.danglingEscape pattern.span))
        (condition.fault? text.toList = none) ∧
      ((∀ fault, Expr.parse text = .error ⟨text, fault⟩ →
          condition.fault? text.toList = some fault) →
        Judged pattern.contents (escape.map (·.contents))
          (fun found =>
            Expr.parse text = .error ⟨text, .invalidEscape found (escape.getD pattern).span⟩)
          (Expr.parse text = .error ⟨text, .danglingEscape pattern.span⟩)
          (∃ e, Expr.parse text = .ok (some e)))) ∧
    ∀ (text : String) fault, Expr.parse text = .error ⟨text, fault⟩ →
      ((∃ found span, fault = .invalidEscape found span) ∨ ∃ span, fault = .danglingEscape span) →
      ∃ condition pattern escape, PatternTest text.toList condition pattern escape ∧
        condition.fault? text.toList = some fault := by
  refine ⟨judged_of_text, fun text condition pattern escape h => ⟨h.judged, h.judged_parse⟩, ?_⟩
  intro text fault h hfault
  exact pattern_test_of_fault ((Expr.parse_error_iff text fault).mp h) hfault

/-- Three escape characters at the end are one too many, behind a character of two bytes too. Two
percent signs at the end are not, even if the percent sign is the escape character. -/
theorem escapes_judged_by_parity :
    Expr.parse "n LIKE 'é!!!' ESCAPE '!'" =
        .error ⟨"n LIKE 'é!!!' ESCAPE '!'", .danglingEscape ⟨7, 7⟩⟩ ∧
      (∃ e, Expr.parse "n LIKE '50%%' ESCAPE '%'" = .ok (some e)) ∧
      Expr.parse "n LIKE '%' ESCAPE ''" =
        .error ⟨"n LIKE '%' ESCAPE ''", .invalidEscape "" ⟨18, 2⟩⟩ := by
  have hodd : ReadsAs "n LIKE 'é!!!' ESCAPE '!'".toList
      (.like (.identifier ⟨0, 1⟩ "n") ⟨⟨7, 7⟩, "é!!!"⟩ (some ⟨⟨22, 3⟩, "!"⟩) false) :=
    ⟨by decide +kernel, by cbv⟩
  have heven : ReadsAs "n LIKE '50%%' ESCAPE '%'".toList
      (.like (.identifier ⟨0, 1⟩ "n") ⟨⟨7, 6⟩, "50%%"⟩ (some ⟨⟨21, 3⟩, "%"⟩) false) :=
    ⟨by decide +kernel, by cbv⟩
  have hempty : ReadsAs "n LIKE '%' ESCAPE ''".toList
      (.like (.identifier ⟨0, 1⟩ "n") ⟨⟨7, 3⟩, "%"⟩ (some ⟨⟨18, 2⟩, ""⟩) false) :=
    ⟨by decide +kernel, by cbv⟩
  have hjudged {text : String} {operand : Phrase} {pattern : QuotedString}
      {escape : Option QuotedString} {negated : Bool} {name : String}
      (h : ReadsAs text.toList (.like operand pattern escape negated))
      (hoperand : operand.meaning text.toList = .ok (.identifier name)) :=
    (escapes_judged.2.1 text _ pattern escape ⟨⟨_, h, .whole _⟩, _, _, _, rfl, hoperand⟩).2
      fun fault hrejected =>
        (h.of_chars_error_iff fault).mp ((Expr.parse_error_iff text fault).mp hrejected)
  refine ⟨?_, ?_, ?_⟩
  · exact (hjudged hodd rfl).dangling.mpr ⟨'!', rfl, by decide⟩
  · exact (hjudged heven rfl).accepted.mpr (.inr ⟨'%', rfl, by decide⟩)
  · exact ((hjudged hempty rfl).bad_escape "").mpr ⟨rfl, by decide⟩

end MessageSelector.Like
