import MessageSelector.Proofs.Parts

/-!
# What is at fault

A phrase without a meaning has a part that is at fault by itself: an open string, a number out of
range, a test by name of something else, or a pattern that is refused. `exists_at_fault` finds it,
and `Spells.part_behind_opening` says where the tokens of a part stand: at the very beginning, or
behind something that an operand has to follow.
-/

namespace MessageSelector

/-! ## Parts at fault -/

namespace Phrase

/-- The test by name that a phrase is, with the operand it is put to. -/
def nameTest? : Phrase → Option (NameTest × Phrase)
  | inList operand _ _ _ => some (.inList, operand)
  | like operand _ _ _ => some (.like, operand)
  | isNull operand _ _ => some (.isNull, operand)
  | _ => none

/-- The phrase is at fault by itself, whatever it is part of. -/
inductive AtFault (text : List Char) : Phrase → Fault → Prop where
  | unclosedString (span) : AtFault text (.unclosedString span) (.unterminatedString span)
  | cutShort (operand unclosed) :
      AtFault text (.cutShort operand unclosed) (.unterminatedString unclosed)
  | float {span literal fault} :
      floatMeaning span literal = .error fault → AtFault text (.float span literal) fault
  | integer {span literal fault} :
      integerMeaning span literal (Token.integerValue literal) = .error fault →
      AtFault text (.integer span literal) fault
  | name {phrase test operand e} :
      phrase.nameTest? = some (test, operand) → operand.meaning text = .ok e →
      e.identifier? = none →
      AtFault text phrase (.identifierRequired test (operand.span.slice text) operand.span)
  | pattern {operand pattern escape negated name fault} :
      operand.meaning text = .ok (.identifier name) → patternMeaning pattern escape = .error fault →
      AtFault text (.like operand pattern escape negated) fault

variable {text : List Char} {fault : Fault}

/-- The operand of a test by name is what the test is made of. -/
theorem child_of_name_test {phrase operand : Phrase} {test : NameTest}
    (h : phrase.nameTest? = some (test, operand)) : operand ∈ phrase.children := by
  cases phrase <;> cases h <;> exact List.mem_cons_self

/-- A test by name is failed by what is no name, and by nothing else. -/
theorem require_identifier_error_iff (test : NameTest) (phrase : Phrase) (operand : Expr) :
    requireIdentifier text test phrase operand = .error fault ↔
      operand.identifier? = none ∧
        fault = .identifierRequired test (phrase.span.slice text) phrase.span := by
  cases operand <;> simp [requireIdentifier, Expr.identifier?, eq_comm]

/-- A phrase under a sign has no meaning only where its operand has none. -/
theorem meaning_signed_error {mark : Span} {sign : Sign} {operand : Phrase}
    (h : (signed mark sign operand).meaning text = .error fault) :
    operand.meaning text = .error fault := by
  by_cases hinteger : ∃ span literal, sign = .minus ∧ operand = .integer span literal
  · obtain ⟨span, literal, rfl, rfl⟩ := hinteger
    rw [meaning, integer_meaning_error_iff, Integer.narrow_eq_none_iff] at h
    rw [meaning, integer_meaning_error_iff, Integer.narrow_eq_none_iff]
    obtain ⟨hrange, rfl⟩ := h
    -- What is out of range under a minus is out of range without it.
    exact ⟨by omega, rfl⟩
  · rw [meaning_signed_other text mark fun span literal hsign hoperand =>
      hinteger ⟨span, literal, hsign, hoperand⟩] at h
    cases hoperand : operand.meaning text with
    | ok e =>
        rw [hoperand] at h
        cases h
    | error found =>
        rw [hoperand] at h
        cases h
        rfl

/-- What is at fault in a child is at fault in the phrase. -/
theorem at_fault_of_child {phrase child : Phrase} (hchild : child ∈ phrase.children)
    (h : ∃ part, Part part child ∧ part.AtFault text fault) :
    ∃ part, Part part phrase ∧ part.AtFault text fault := by
  obtain ⟨part, hpart, hfault⟩ := h
  exact ⟨part, .inside hchild hpart, hfault⟩

/-- A phrase without a meaning has a part that is at fault. -/
theorem exists_at_fault {phrase : Phrase} (h : phrase.meaning text = .error fault) :
    ∃ part, Part part phrase ∧ part.AtFault text fault := by
  induction phrase generalizing fault with
  | identifier | string | boolean => cases h
  | unclosedString span =>
      cases h
      exact ⟨_, .whole _, .unclosedString span⟩
  | float => exact ⟨_, .whole _, .float h⟩
  | integer => exact ⟨_, .whole _, .integer h⟩
  | group _ _ _ ih => exact at_fault_of_child List.mem_cons_self (ih h)
  | signed _ _ _ ih => exact at_fault_of_child List.mem_cons_self (ih (meaning_signed_error h))
  | arithmetic _ _ _ ihLeft ihRight | comparison _ _ _ ihLeft ihRight | and _ _ ihLeft ihRight
  | or _ _ ihLeft ihRight =>
      rw [meaning] at h
      simp only [bind_error_iff] at h
      rcases h with h | ⟨_, -, h | ⟨_, -, h⟩⟩
      · exact at_fault_of_child List.mem_cons_self (ihLeft h)
      · exact at_fault_of_child (List.mem_cons_of_mem _ List.mem_cons_self) (ihRight h)
      · cases h
  | between operand low high _ ih ihLow ihHigh =>
      rw [meaning] at h
      simp only [bind_error_iff] at h
      rcases h with h | ⟨_, -, h | ⟨_, -, h | ⟨_, -, h⟩⟩⟩
      · exact at_fault_of_child (show operand ∈ _ from List.mem_cons_self) (ih h)
      · exact at_fault_of_child (show low ∈ _ by simp [children]) (ihLow h)
      · exact at_fault_of_child (show high ∈ _ by simp [children]) (ihHigh h)
      · cases h
  | inList _ _ _ _ ih | isNull _ _ _ ih =>
      rw [meaning] at h
      simp only [bind_error_iff, require_identifier_error_iff] at h
      rcases h with h | ⟨e, hmeaning, ⟨hname, rfl⟩ | ⟨_, -, h⟩⟩
      · exact at_fault_of_child List.mem_cons_self (ih h)
      · exact ⟨_, .whole _, .name rfl hmeaning hname⟩
      · cases h
  | like _ _ _ _ ih =>
      rw [meaning] at h
      simp only [bind_error_iff, require_identifier_error_iff, require_identifier_ok_iff] at h
      rcases h with h | ⟨e, hmeaning, ⟨hname, rfl⟩ | ⟨_, ⟨name, rfl⟩, h | ⟨_, -, h⟩⟩⟩
      · exact at_fault_of_child List.mem_cons_self (ih h)
      · exact ⟨_, .whole _, .name rfl hmeaning hname⟩
      · exact ⟨_, .whole _, .pattern hmeaning h⟩
      · cases h
  | cutShort operand unclosed ih =>
      rw [meaning, bind_error_iff] at h
      rcases h with h | ⟨_, -, h⟩
      · exact at_fault_of_child List.mem_cons_self (ih h)
      · cases h
        exact ⟨_, .whole _, .cutShort operand unclosed⟩
  | not _ _ ih =>
      rw [meaning, bind_error_iff] at h
      rcases h with h | ⟨_, -, h⟩
      · exact at_fault_of_child List.mem_cons_self (ih h)
      · cases h

/-- A phrase has a meaning only where what it is made of has, apart from an integer literal under a
minus. -/
theorem meaning_of_child {phrase child : Phrase} {e : Expr} (h : phrase.meaning text = .ok e)
    (hchild : child ∈ phrase.children) :
    (∃ inner, child.meaning text = .ok inner) ∨ ∃ span literal, child = .integer span literal := by
  cases phrase with
  | identifier | string | unclosedString | float | integer | boolean => cases hchild
  | group =>
      rw [List.mem_singleton.mp hchild]
      exact .inl ⟨e, h⟩
  | signed =>
      rw [List.mem_singleton.mp hchild]
      obtain ⟨inner, hinner, -⟩ | ⟨span, literal, -, hoperand, -⟩ := meaning_signed_ok h
      · exact .inl ⟨inner, hinner⟩
      · exact .inr ⟨span, literal, hoperand⟩
  | arithmetic | comparison | and | or =>
      rw [meaning] at h
      simp only [bind_ok_iff] at h
      obtain ⟨left, hleft, right, hright, -⟩ := h
      rcases List.mem_pair.mp hchild with rfl | rfl
      · exact .inl ⟨left, hleft⟩
      · exact .inl ⟨right, hright⟩
  | between =>
      rw [meaning] at h
      simp only [bind_ok_iff] at h
      obtain ⟨tested, htested, low, hlow, high, hhigh, -⟩ := h
      simp only [children, List.mem_cons, List.not_mem_nil, or_false] at hchild
      rcases hchild with rfl | rfl | rfl
      · exact .inl ⟨tested, htested⟩
      · exact .inl ⟨low, hlow⟩
      · exact .inl ⟨high, hhigh⟩
  | inList | like | isNull | cutShort | not =>
      rw [List.mem_singleton.mp hchild]
      rw [meaning, bind_ok_iff] at h
      obtain ⟨inner, hinner, -⟩ := h
      exact .inl ⟨inner, hinner⟩

/-- All parts of a phrase with a meaning have one, apart from integer literals under a minus. -/
theorem meaning_of_part {phrase part : Phrase} {e : Expr} (h : phrase.meaning text = .ok e)
    (hpart : Part part phrase) :
    (∃ inner, part.meaning text = .ok inner) ∨ ∃ span literal, part = .integer span literal := by
  induction hpart generalizing e with
  | whole => exact .inl ⟨e, h⟩
  | inside hchild hpart ih =>
      obtain ⟨inner, hinner⟩ | ⟨span, literal, rfl⟩ := meaning_of_child h hchild
      · exact ih hinner
      · -- An integer literal is made of nothing.
        cases hpart with
        | whole => exact .inr ⟨span, literal, rfl⟩
        | inside hnone => cases hnone

end Phrase

/-! ## Where parts stand -/

/-- An operand has to follow the lexeme. -/
def Lexeme.opens : Lexeme → Bool
  | leftParen | plus | minus | star | slash | comparison _ | keyword .not | keyword .and
  | keyword .or | keyword .between => true
  | _ => false

/-- Nothing is in front, or something that an operand has to follow. -/
def BehindOpening (before : List Token) : Prop :=
  ∀ last, before.getLast? = some last → last.lexeme.opens = true

/-- Nothing in front is no obstacle. -/
theorem behind_opening_nil : BehindOpening [] :=
  nofun

/-- Only the last lexeme in front matters. -/
theorem behind_opening_concat {lexeme : Lexeme} (h : lexeme.opens = true) (before : List Token)
    (span : Span) : BehindOpening (before ++ [⟨lexeme, span⟩]) := by
  intro last hlast
  rw [List.getLast?_concat] at hlast
  cases hlast
  exact h

/-- What is in front of a part of a part. -/
theorem BehindOpening.append {before inner : List Token} (h : BehindOpening before)
    (hinner : BehindOpening inner) : BehindOpening (before ++ inner) := by
  intro last hlast
  rw [List.getLast?_append] at hlast
  cases hnone : inner.getLast? with
  | none =>
      rw [hnone] at hlast
      exact h last hlast
  | some other =>
      rw [hnone] at hlast
      cases hlast
      exact hinner last hnone

/-- Among the tokens of the phrase are those of the part, with an operand to come. -/
def StandsBehindOpening (part : Phrase) (tokens : List Token) : Prop :=
  ∃ before inner after, tokens = before ++ inner ++ after ∧ Spells part inner ∧
    BehindOpening before

variable {part left right : Phrase} {tokens ls rs : List Token}

/-- What stands first has nothing in front. -/
theorem stands_behind_opening_first (h : Spells part ls) (after : List Token) :
    StandsBehindOpening part (ls ++ after) :=
  ⟨[], ls, after, rfl, h, behind_opening_nil⟩

/-- What stands last is behind the lexeme in front of it. -/
theorem stands_behind_opening_last {lexeme : Lexeme} (h : Spells part rs)
    (hlexeme : lexeme.opens = true) (before : List Token) (span : Span) :
    StandsBehindOpening part (before ++ ⟨lexeme, span⟩ :: rs) :=
  ⟨before ++ [⟨lexeme, span⟩], rs, [], by simp, h, behind_opening_concat hlexeme before span⟩

/-- Both sides of an operator are operands. -/
theorem stands_behind_opening_joined {lexeme : Lexeme} (hleft : Spells left ls)
    (hright : Spells right rs) (hlexeme : lexeme.opens = true) (span : Span)
    (hpart : part ∈ [left, right]) : StandsBehindOpening part (ls ++ ⟨lexeme, span⟩ :: rs) := by
  rcases List.mem_pair.mp hpart with rfl | rfl
  · exact stands_behind_opening_first hleft _
  · exact stands_behind_opening_last hright hlexeme ls span

/-- What a phrase is made of stands first, or behind something that an operand has to follow. -/
theorem Spells.child_behind_opening {phrase : Phrase} (h : Spells phrase tokens)
    (hchild : part ∈ phrase.children) : StandsBehindOpening part tokens := by
  cases h with
  | identifier | string | unclosedString | float | integer | boolean => cases hchild
  | group leftParen rightParen hinner =>
      rw [List.mem_singleton.mp hchild]
      exact ⟨[_], _, [_], rfl, hinner, behind_opening_concat rfl [] leftParen⟩
  | signed mark sign hoperand =>
      rw [List.mem_singleton.mp hchild]
      exact stands_behind_opening_last hoperand (by cases sign <;> rfl) [] mark
  | arithmetic op span hls hrs =>
      exact stands_behind_opening_joined hls hrs (by cases op <;> rfl) span hchild
  | comparison op span hls hrs => exact stands_behind_opening_joined hls hrs rfl span hchild
  | and word hls hrs | or word hls hrs =>
      exact stands_behind_opening_joined hls hrs rfl word hchild
  | not word hoperand =>
      rw [List.mem_singleton.mp hchild]
      exact stands_behind_opening_last hoperand rfl [] word
  | @between word joint _ _ _ _ os ns ls hs hos _ hls hhs =>
      simp only [Phrase.children, List.mem_cons, List.not_mem_nil, or_false] at hchild
      rcases hchild with rfl | rfl | rfl
      · rw [List.append_assoc, List.append_assoc]
        exact stands_behind_opening_first hos _
      · exact ⟨os ++ ns ++ [⟨.keyword .between, word⟩], ls, ⟨.keyword .and, joint⟩ :: hs, by simp,
          hls, behind_opening_concat rfl _ word⟩
      · exact stands_behind_opening_last hhs rfl _ joint
  | inList _ _ _ _ hos =>
      rw [List.mem_singleton.mp hchild, List.append_assoc, List.append_assoc]
      exact stands_behind_opening_first hos _
  | like _ _ hos | isNull _ _ hos | cutShort _ hos =>
      rw [List.mem_singleton.mp hchild, List.append_assoc]
      exact stands_behind_opening_first hos _

/-- A part of a phrase stands first, or behind something that an operand has to follow. -/
theorem Spells.part_behind_opening {phrase : Phrase} (h : Spells phrase tokens)
    (hpart : Part part phrase) : StandsBehindOpening part tokens := by
  induction hpart generalizing tokens with
  | whole => exact ⟨[], tokens, [], by simp, h, behind_opening_nil⟩
  | inside hchild _ ih =>
      obtain ⟨before, inner, after, rfl, hinner, hbefore⟩ := h.child_behind_opening hchild
      obtain ⟨front, core, back, rfl, hcore, hfront⟩ := ih hinner
      exact ⟨before ++ front, core, back ++ after, by simp, hcore, hbefore.append hfront⟩

end MessageSelector
