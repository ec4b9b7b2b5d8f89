import MessageSelector.Proofs.Nesting.Balance
import MessageSelector.Proofs.Nesting.Fits
import MessageSelector.Proofs.Parts

/-!
# What is around the parts of a phrase

The measure of depth runs over a text from left to right and knows nothing of its grammar. Here it
is read off the phrase: `Phrase.partsIn` finds what is around each part, the levels that the measure
counts as well as those there are, and `measures_of_spells` says that the lexemes of a phrase nest
within the limit just if every part of it is permitted in its surroundings.
-/

namespace MessageSelector

open MessageSelector.Expr (Binding)

namespace Nesting

/-! ## Surroundings -/

/-- What is around a part of a phrase. -/
structure Surroundings where
  /-- The parentheses around the part, and the operators directly in front of each of them. -/
  inside : Nat
  /-- The operators directly in front of the part. -/
  ahead : Nat
  /-- The parentheses around the part, and all operators whose operand it is part of. -/
  levels : Nat
  deriving DecidableEq, Repr

namespace Surroundings

/-- Around a whole phrase there is nothing. -/
def outermost : Surroundings :=
  ⟨0, 0, 0⟩

/-- Inside parentheses, which come after the operators in front of them. -/
def inParens (around : Surroundings) : Surroundings :=
  ⟨around.inside + around.ahead + 1, 0, around.levels + 1⟩

/-- Behind an operator in front of its operand. -/
def underOperator (around : Surroundings) : Surroundings :=
  { around with ahead := around.ahead + 1, levels := around.levels + 1 }

/-- Behind another operand, with nothing in front but what is counted there. -/
def behindOperand (around : Surroundings) (counted : Nat) : Surroundings :=
  { around with ahead := counted }

/-- There are no more levels around a part than elsewhere, as the measure counts them. -/
structure NoMoreThan (around other : Surroundings) : Prop where
  inside : around.inside ≤ other.inside
  counted : around.inside + around.ahead ≤ other.inside + other.ahead

/-- Around a whole phrase there is no more than around anything. -/
theorem outermost_no_more_than (around : Surroundings) : outermost.NoMoreThan around :=
  ⟨Nat.zero_le _, Nat.zero_le _⟩

end Surroundings

end Nesting

open Nesting

namespace Phrase

/-- Whether a phrase ends with a number that ends in its point. -/
def endsInPoint : Phrase → Bool
  | float _ literal | integer _ literal => !literal.toList.getLast?.any isNumberLetter
  | signed _ _ operand | not _ operand => operand.endsInPoint
  | arithmetic _ _ right | comparison _ _ right | and _ right | or _ right => right.endsInPoint
  | between _ _ high _ => high.endsInPoint
  | _ => false

/-- Whether a phrase is a sum or difference with a number in front of its operator that ends in its
point. Such a number does not pass for an operand, and so the operator passes for a sign. -/
def passesForSign : Phrase → Bool
  | arithmetic op left _ => left.endsInPoint && !op.isMultiplicative
  | _ => false

/-- Whether a phrase is a test that takes a level behind its operand: one of a list, for the
parentheses of the list, or a negated one, for its `NOT`. -/
def takesLevel : Phrase → Bool
  | inList .. => true
  | between _ _ _ negated | like _ _ _ negated | isNull _ _ negated => negated
  | _ => false

/-- The phrases that a phrase is made of, each with what is around it. -/
def childrenIn (around : Surroundings) (phrase : Phrase) : List (Phrase × Surroundings) :=
  match phrase with
  | identifier .. | string _ | unclosedString _ | float .. | integer .. | boolean .. => []
  | group _ inner _ => [(inner, around.inParens)]
  | signed _ _ operand | not _ operand => [(operand, around.underOperator)]
  | inList operand _ _ _ | like operand _ _ _ | isNull operand _ _ | cutShort operand _ =>
    [(operand, around)]
  | arithmetic _ left right =>
    [(left, around), (right, around.behindOperand phrase.passesForSign.toNat)]
  | comparison _ left right | and left right | or left right =>
    [(left, around), (right, around.behindOperand 0)]
  | between operand low high _ =>
    [(operand, around), (low, around.behindOperand 0), (high, around.behindOperand 0)]

/-- The parts of a phrase, the phrase itself first, each with what is around it. -/
def partsIn (around : Surroundings) (phrase : Phrase) : List (Phrase × Surroundings) :=
  (phrase, around) ::
    match phrase with
    | identifier .. | string _ | unclosedString _ | float .. | integer .. | boolean .. => []
    | group _ inner _ => inner.partsIn around.inParens
    | signed _ _ operand | not _ operand => operand.partsIn around.underOperator
    | inList operand _ _ _ | like operand _ _ _ | isNull operand _ _ | cutShort operand _ =>
      operand.partsIn around
    | arithmetic op left right =>
      left.partsIn around ++
        right.partsIn (around.behindOperand (arithmetic op left right).passesForSign.toNat)
    | comparison _ left right | and left right | or left right =>
      left.partsIn around ++ right.partsIn (around.behindOperand 0)
    | between operand low high _ =>
      operand.partsIn around ++ (low.partsIn (around.behindOperand 0) ++
        high.partsIn (around.behindOperand 0))

/-- The parts of a phrase are the phrase and the parts of its children. -/
theorem parts_in_eq (around : Surroundings) (phrase : Phrase) :
    phrase.partsIn around = (phrase, around) ::
      (phrase.childrenIn around).flatMap fun child => child.1.partsIn child.2 := by
  cases phrase <;> simp [partsIn, childrenIn]

/-- What is around the children does not matter to what they are. -/
theorem map_children_in (around : Surroundings) (phrase : Phrase) :
    (phrase.childrenIn around).map Prod.fst = phrase.children := by
  cases phrase <;> rfl

/-- What holds of a phrase if it holds of its children holds of every phrase. -/
theorem induction_on_children {P : Phrase → Surroundings → Prop}
    (h : ∀ phrase around, (∀ child ∈ phrase.childrenIn around, P child.1 child.2) →
      P phrase around) (phrase : Phrase) (around : Surroundings) : P phrase around := by
  induction phrase generalizing around with
  | identifier | string | unclosedString | float | integer | boolean => exact h _ _ nofun
  | group _ _ _ ih | signed _ _ _ ih | inList _ _ _ _ ih | like _ _ _ _ ih | isNull _ _ _ ih
  | cutShort _ _ ih | not _ _ ih => exact h _ _ (List.forall_mem_singleton.mpr (ih _))
  | arithmetic _ _ _ ihLeft ihRight | comparison _ _ _ ihLeft ihRight | and _ _ ihLeft ihRight
  | or _ _ ihLeft ihRight =>
      exact h _ _ (List.forall_mem_cons.mpr ⟨ihLeft _, List.forall_mem_singleton.mpr (ihRight _)⟩)
  | between _ _ _ _ ih ihLow ihHigh =>
      exact h _ _ (List.forall_mem_cons.mpr ⟨ih _, List.forall_mem_cons.mpr
        ⟨ihLow _, List.forall_mem_singleton.mpr (ihHigh _)⟩⟩)

/-- A property of all parts is one of the phrase and of all parts of its children. -/
theorem forall_parts_in_iff {Q : Phrase × Surroundings → Prop} (phrase : Phrase)
    (around : Surroundings) : (∀ part ∈ phrase.partsIn around, Q part) ↔ Q (phrase, around) ∧
      ∀ child ∈ phrase.childrenIn around, ∀ part ∈ child.1.partsIn child.2, Q part := by
  rw [parts_in_eq, List.forall_mem_cons, List.forall_mem_flatMap]

/-- What every phrase passes on to its children holds of all the parts. -/
theorem forall_parts_in {P : Phrase → Surroundings → Prop}
    (hstep : ∀ phrase around, P phrase around →
      ∀ child ∈ phrase.childrenIn around, P child.1 child.2)
    {phrase : Phrase} {around : Surroundings} (h : P phrase around) :
    ∀ part ∈ phrase.partsIn around, P part.1 part.2 := by
  induction phrase, around using induction_on_children with
  | h phrase around ih =>
      rw [forall_parts_in_iff]
      exact ⟨h, fun child hchild => ih child hchild (hstep phrase around h child hchild)⟩

/-- Something is around every part. -/
theorem exists_around_part {part phrase : Phrase} (h : Part part phrase)
    (around : Surroundings) : ∃ surroundings, (part, surroundings) ∈ phrase.partsIn around := by
  induction h generalizing around with
  | whole => exact ⟨around, by rw [parts_in_eq]; exact List.mem_cons_self⟩
  | inside hchild _ ih =>
      rw [← map_children_in around] at hchild
      obtain ⟨⟨_, inner⟩, hmem, rfl⟩ := List.mem_map.mp hchild
      obtain ⟨surroundings, hpart⟩ := ih inner
      rw [parts_in_eq]
      exact ⟨surroundings, List.mem_cons_of_mem _ (List.mem_flatMap.mpr ⟨_, hmem, hpart⟩)⟩

/-! ## Shallow phrases -/

/-- The measure lets the part stand there. -/
def Permitted (part : Phrase) (around : Surroundings) : Prop :=
  around.inside + around.ahead ≤ limit ∧ (part.takesLevel = true → around.inside < limit)

/-- The measure lets every part of the phrase stand where it does. -/
def Shallow (phrase : Phrase) (around : Surroundings) : Prop :=
  ∀ part ∈ phrase.partsIn around, part.1.Permitted part.2

/-- A phrase is shallow if it is permitted and its children are shallow. -/
theorem shallow_iff (phrase : Phrase) (around : Surroundings) :
    phrase.Shallow around ↔ phrase.Permitted around ∧
      ∀ child ∈ phrase.childrenIn around, child.1.Shallow child.2 :=
  forall_parts_in_iff phrase around

/-- What has no more around it than another phrase has passes that on to its children. -/
theorem children_in_mono (phrase : Phrase) {around other : Surroundings}
    (h : other.NoMoreThan around) : ∀ child ∈ phrase.childrenIn other,
      ∃ outer, (child.1, outer) ∈ phrase.childrenIn around ∧ child.2.NoMoreThan outer := by
  have hparens : other.inParens.NoMoreThan around.inParens :=
    ⟨Nat.succ_le_succ h.counted, Nat.succ_le_succ h.counted⟩
  have hoperator : other.underOperator.NoMoreThan around.underOperator :=
    ⟨h.inside, Nat.succ_le_succ h.counted⟩
  have hbehind (counted : Nat) :
      (other.behindOperand counted).NoMoreThan (around.behindOperand counted) :=
    ⟨h.inside, Nat.add_le_add_right h.inside counted⟩
  cases phrase with
  | identifier | string | unclosedString | float | integer | boolean => exact List.forall_mem_nil _
  | group =>
      exact List.forall_mem_singleton.mpr ⟨_, List.mem_singleton_self _, hparens⟩
  | signed | not =>
      exact List.forall_mem_singleton.mpr ⟨_, List.mem_singleton_self _, hoperator⟩
  | inList | like | isNull | cutShort =>
      exact List.forall_mem_singleton.mpr ⟨_, List.mem_singleton_self _, h⟩
  | arithmetic | comparison | and | or =>
      exact List.forall_mem_cons.mpr ⟨⟨_, List.mem_cons_self, h⟩, List.forall_mem_singleton.mpr
        ⟨_, List.mem_cons_of_mem _ List.mem_cons_self, hbehind _⟩⟩
  | between =>
      simp only [childrenIn, List.forall_mem_cons]
      exact ⟨⟨_, List.mem_cons_self, h⟩, ⟨_, List.mem_cons_of_mem _ List.mem_cons_self, hbehind 0⟩,
        ⟨_, by simp, hbehind 0⟩, List.forall_mem_nil _⟩

/-- A phrase that is shallow is so with no more around it. -/
theorem Shallow.mono {phrase : Phrase} {around other : Surroundings} (h : phrase.Shallow around)
    (hle : other.NoMoreThan around) : phrase.Shallow other := by
  induction phrase, other using induction_on_children generalizing around with
  | h phrase other ih =>
      rw [shallow_iff] at h ⊢
      obtain ⟨⟨hplace, htest⟩, hchildren⟩ := h
      refine ⟨⟨Nat.le_trans hle.counted hplace,
        fun hlevel => Nat.lt_of_le_of_lt hle.inside (htest hlevel)⟩, fun child hchild => ?_⟩
      obtain ⟨outer, houter, hmore⟩ := children_in_mono phrase hle child hchild
      exact ih child hchild (hchildren (child.1, outer) houter) hmore

/-- What begins with its first child is as deep as that, and its test and the other children are
what may be deeper. -/
theorem shallow_iff_of_first {phrase first : Phrase} {around : Surroundings}
    {others : List (Phrase × Surroundings)}
    (h : phrase.childrenIn around = (first, around) :: others) :
    phrase.Shallow around ↔ first.Shallow around ∧
      (phrase.takesLevel = true → around.inside < limit) ∧
      ∀ child ∈ others, child.1.Shallow child.2 := by
  rw [shallow_iff, h, List.forall_mem_cons]
  constructor
  · rintro ⟨⟨-, htest⟩, hfirst, hothers⟩
    exact ⟨hfirst, htest, hothers⟩
  · rintro ⟨hfirst, htest, hothers⟩
    have hpermitted := ((shallow_iff _ _).mp hfirst).1
    exact ⟨⟨hpermitted.1, htest⟩, hfirst, hothers⟩

end Phrase

namespace Nesting

/-! ## The depth after a phrase -/

/-- After the lexemes no operators are counted, and an operand has ended or not. -/
def Closes (ended : Bool) (lexemes : List Lexeme) : Prop :=
  ∀ depth : Depth, (depth.afterLexemes lexemes).operators = 0 ∧
    (depth.afterLexemes lexemes).afterOperand = ended

/-- Only the last lexemes matter. -/
theorem Closes.append {ended : Bool} {ms : List Lexeme} (h : Closes ended ms) (ls : List Lexeme) :
    Closes ended (ls ++ ms) := by
  intro depth
  rw [Depth.after_lexemes_append]
  exact h _

/-- Only the last lexemes matter. -/
theorem Closes.cons {ended : Bool} {ls : List Lexeme} (h : Closes ended ls) (lexeme : Lexeme) :
    Closes ended (lexeme :: ls) :=
  h.append [lexeme]

/-- After a phrase an operand has ended, but not after a number that ends in its point. -/
theorem closes_of_spells {phrase : Phrase} {tokens : List Token} (h : Spells phrase tokens) :
    Closes (!phrase.endsInPoint) (tokens.map (·.lexeme)) := by
  induction h with
  | identifier | string | unclosedString | boolean => exact fun _ => ⟨rfl, rfl⟩
  | float | integer => exact fun _ => ⟨rfl, (Bool.not_not _).symm⟩
  | signed _ _ _ _ ih | not _ _ _ ih => exact ih.cons _
  | arithmetic _ _ _ _ _ _ _ ihRight | comparison _ _ _ _ _ _ _ ihRight
  | and _ _ _ _ _ _ ihRight | or _ _ _ _ _ _ ihRight =>
      rw [List.map_append]
      exact (ihRight.cons _).append _
  | between _ _ _ _ _ _ _ _ _ _ _ ihHigh =>
      rw [List.map_append]
      exact (ihHigh.cons _).append _
  | like _ _ _ _ hescape =>
      rw [List.map_append, List.map_cons, List.map_cons]
      refine Closes.append ?_ _
      cases hescape <;> exact fun _ => ⟨rfl, rfl⟩
  | group | inList | isNull | cutShort =>
      rw [List.map_append]
      exact Closes.append (fun _ => ⟨rfl, rfl⟩) _

/-- After a phrase the parentheses that were open are open, and an operand has ended if the phrase
does not end in the point of a number. -/
theorem after_spells {phrase : Phrase} {tokens : List Token} (h : Spells phrase tokens)
    (hproper : AllProper tokens) (depth : Depth) :
    depth.afterLexemes (tokens.map (·.lexeme)) =
      ⟨depth.insideParens, 0, !phrase.endsInPoint⟩ := by
  obtain ⟨hoperators, hended⟩ := closes_of_spells h depth
  have hparens := balanced_of_spells h hproper depth
  generalize depth.afterLexemes (tokens.map (·.lexeme)) = after at hoperators hended hparens ⊢
  obtain ⟨parens, operators, ended⟩ := after
  cases hoperators
  cases hended
  cases hparens
  rfl

/-! ## The depth of a phrase -/

/-- From any place that is no deeper than the limit, the lexemes nest within the limit just if the
phrase is shallow there. -/
def Measures (phrase : Phrase) (lexemes : List Lexeme) : Prop :=
  ∀ (parens : List Nat) (ahead levels : Nat),
    (parens.headD 0 + ahead ≤ limit ∧ (⟨parens, ahead, false⟩ : Depth).Within lexemes) ↔
      phrase.Shallow ⟨parens.headD 0, ahead, levels⟩

variable {phrase operand left right : Phrase} {tokens os ls rs : List Token}

/-- After a phrase the measure goes on in the same parentheses. -/
theorem Measures.append (h : Measures phrase (tokens.map (·.lexeme)))
    (hspells : Spells phrase tokens) (hproper : AllProper tokens) (parens : List Nat)
    (ahead levels : Nat) (more : List Lexeme) :
    (parens.headD 0 + ahead ≤ limit ∧
        (⟨parens, ahead, false⟩ : Depth).Within (tokens.map (·.lexeme) ++ more)) ↔
      phrase.Shallow ⟨parens.headD 0, ahead, levels⟩ ∧
        (⟨parens, 0, !phrase.endsInPoint⟩ : Depth).Within more := by
  rw [Depth.within_append, after_spells hspells hproper, ← and_assoc, h parens ahead levels]

/-- Behind an operand and what joins the next one to it, the measure begins anew. -/
theorem Measures.behind (h : Measures phrase (tokens.map (·.lexeme))) {lexeme : Lexeme}
    {parens : List Nat} {ended : Bool} {counted : Nat}
    (hlexeme : (⟨parens, 0, ended⟩ : Depth).afterLexeme lexeme = ⟨parens, counted, false⟩)
    (levels : Nat) :
    (⟨parens, 0, ended⟩ : Depth).Within (lexeme :: tokens.map (·.lexeme)) ↔
      phrase.Shallow ⟨parens.headD 0, counted, levels⟩ := by
  rw [Depth.Within, hlexeme]
  exact h parens counted levels

/-- What is read without a level of its own is shallow anywhere that is. -/
theorem measures_leaf {lexeme : Lexeme} (hends : ∀ depth : Depth,
      (depth.afterLexeme lexeme).levels = depth.insideParens.headD 0)
    (hchildren : ∀ around, phrase.childrenIn around = []) (htest : phrase.takesLevel = false) :
    Measures phrase [lexeme] := by
  intro parens ahead levels
  rw [Phrase.shallow_iff, hchildren, Phrase.Permitted, htest, Depth.Within, hends]
  constructor
  · rintro ⟨hplace, -⟩
    exact ⟨⟨hplace, fun htest => absurd htest Bool.false_ne_true⟩, List.forall_mem_nil _⟩
  · rintro ⟨⟨hplace, -⟩, -⟩
    exact ⟨hplace, Nat.le_trans (Nat.le_add_right _ _) hplace, trivial⟩

/-- Parentheses take a level, and the operators in front of them are left outside. -/
theorem measures_group (h : Measures operand (tokens.map (·.lexeme)))
    (hspells : Spells operand tokens) (hproper : AllProper tokens) (leftParen rightParen : Span) :
    Measures (.group leftParen operand rightParen)
      (.leftParen :: tokens.map (·.lexeme) ++ [.rightParen]) := by
  intro parens ahead levels
  have hinner := h.append hspells hproper ((parens.headD 0 + ahead + 1) :: parens) 0 (levels + 1)
    [.rightParen]
  rw [Phrase.shallow_iff, Phrase.childrenIn, List.forall_mem_singleton]
  constructor
  · rintro ⟨hplace, hwithin⟩
    exact ⟨⟨hplace, nofun⟩, (hinner.mp hwithin).1⟩
  · rintro ⟨⟨hplace, -⟩, hshallow⟩
    have hclosed : parens.headD 0 ≤ limit := Nat.le_trans (Nat.le_add_right _ _) hplace
    exact ⟨hplace, hinner.mpr ⟨hshallow, hclosed, trivial⟩⟩

/-- An operator in front of its operand takes a level. -/
theorem measures_under_operator {lexeme : Lexeme} (h : Measures operand (tokens.map (·.lexeme)))
    (hlexeme : IsOperator lexeme)
    (hchildren : ∀ around, phrase.childrenIn around = [(operand, around.underOperator)])
    (htest : phrase.takesLevel = false) :
    Measures phrase (lexeme :: tokens.map (·.lexeme)) := by
  intro parens ahead levels
  rw [Phrase.shallow_iff, hchildren, List.forall_mem_singleton, Phrase.Permitted, htest,
    Depth.Within, hlexeme]
  exact and_congr (by simp) (h parens (ahead + 1) (levels + 1))

/-- What joins two operands leaves each its own levels. -/
theorem measures_joined {lexeme : Lexeme} {counted : Nat}
    (hleft : Measures left (ls.map (·.lexeme))) (hright : Measures right (rs.map (·.lexeme)))
    (hspells : Spells left ls) (hproper : AllProper ls)
    (hlexeme : ∀ parens, (⟨parens, 0, !left.endsInPoint⟩ : Depth).afterLexeme lexeme =
      ⟨parens, counted, false⟩)
    (hchildren : ∀ around, phrase.childrenIn around =
      [(left, around), (right, around.behindOperand counted)])
    (htest : phrase.takesLevel = false) :
    Measures phrase (ls.map (·.lexeme) ++ lexeme :: rs.map (·.lexeme)) := by
  intro parens ahead levels
  rw [hleft.append hspells hproper parens ahead levels, hright.behind (hlexeme parens) levels,
    Phrase.shallow_iff_of_first (hchildren _), htest, List.forall_mem_singleton]
  simp [Surroundings.behindOperand]

/-- A negation of a test takes a level, which the keyword of the test gives back. -/
theorem within_negation {negated : Bool} {ns : List Token} (hns : SpellsNegation negated ns)
    {lexeme : Lexeme} {after : Bool} {parens : List Nat} (hlimit : parens.headD 0 ≤ limit)
    (hlexeme : ∀ operators ended, (⟨parens, operators, ended⟩ : Depth).afterLexeme lexeme =
      ⟨parens, 0, after⟩) (ended : Bool) (more : List Lexeme) :
    (⟨parens, 0, ended⟩ : Depth).Within (ns.map (·.lexeme) ++ lexeme :: more) ↔
      (negated = true → parens.headD 0 < limit) ∧
        (⟨parens, 0, after⟩ : Depth).Within more := by
  have hkeyword (operators ended) :
      (⟨parens, operators, ended⟩ : Depth).Within (lexeme :: more) ↔
        (⟨parens, 0, after⟩ : Depth).Within more := by
    rw [Depth.Within, hlexeme]
    exact and_iff_right hlimit
  cases hns with
  | plain => simpa using hkeyword 0 ended
  | negated span =>
      rw [List.map_singleton, List.singleton_append, Depth.Within]
      refine and_congr ?_ (hkeyword 1 false)
      exact ⟨fun h _ => h, fun h => h rfl⟩

/-- What is shallow stands in parentheses that are. -/
theorem inside_le_of_shallow {around : Surroundings} (h : phrase.Shallow around) :
    around.inside ≤ limit :=
  Nat.le_trans (Nat.le_add_right _ _) ((Phrase.shallow_iff _ _).mp h).1.1

/-- A test with nothing but literals behind its operand is as deep as that, but for the level that
the test itself may take. -/
theorem measures_tested {test : List Lexeme} (h : Measures operand (os.map (·.lexeme)))
    (hspells : Spells operand os) (hproper : AllProper os)
    (hchildren : ∀ around, phrase.childrenIn around = [(operand, around)])
    (htest : ∀ (parens : List Nat) (ended : Bool), parens.headD 0 ≤ limit →
      ((⟨parens, 0, ended⟩ : Depth).Within test ↔
        (phrase.takesLevel = true → parens.headD 0 < limit))) :
    Measures phrase (os.map (·.lexeme) ++ test) := by
  intro parens ahead levels
  rw [h.append hspells hproper parens ahead levels, Phrase.shallow_iff_of_first (hchildren _)]
  refine and_congr_right fun hshallow => ?_
  rw [htest parens _ (inside_le_of_shallow hshallow)]
  exact ⟨fun h => ⟨h, nofun⟩, And.left⟩

/-- The items of a list add no levels to those of its parentheses. -/
theorem within_list {items : List QuotedString} {is : List Token} (h : SpellsItems items is)
    (item : QuotedString) {parens : List Nat} (hinside : parens.headD 0 ≤ limit)
    (houtside : parens.tail.headD 0 ≤ limit) (ended : Bool) :
    (⟨parens, 0, ended⟩ : Depth).Within
      (is.map (·.lexeme) ++ [item.token.lexeme, .rightParen]) := by
  induction h generalizing ended with
  | nil => exact ⟨hinside, houtside, trivial⟩
  | cons _ _ _ ih => exact ⟨hinside, hinside, ih false⟩

/-- The lexemes of a phrase nest within the limit just if each of its parts is permitted in its
surroundings. -/
theorem measures_of_spells (h : Spells phrase tokens) (hproper : AllProper tokens) :
    Measures phrase (tokens.map (·.lexeme)) := by
  induction h with
  | identifier | string | unclosedString | float | integer | boolean =>
      exact measures_leaf (fun _ => Nat.add_zero _) (fun _ => rfl) rfl
  | group leftParen rightParen hspells ih =>
      simp only [all_proper_append, all_proper_cons] at hproper
      rw [List.map_append, List.map_cons]
      exact measures_group (ih hproper.1.2) hspells hproper.1.2 leftParen rightParen
  | signed mark sign hspells _ ih =>
      rw [all_proper_cons] at hproper
      exact measures_under_operator (ih hproper.2) (is_operator_sign sign) (fun _ => rfl) rfl
  | not word hspells _ ih =>
      rw [all_proper_cons] at hproper
      exact measures_under_operator (ih hproper.2) is_operator_not (fun _ => rfl) rfl
  | @arithmetic op span left right ls rs hspells _ _ _ ihLeft ihRight =>
      simp only [all_proper_append, all_proper_cons] at hproper
      rw [List.map_append, List.map_cons]
      refine measures_joined (ihLeft hproper.1) (ihRight hproper.2.2) hspells hproper.1
        (fun parens => ?_) (fun _ => rfl) rfl
      -- Only a plus or a minus passes for a sign, and only where no operand passes for ended.
      simp only [Phrase.passesForSign]
      cases left.endsInPoint <;> cases op <;> rfl
  | comparison op span hspells _ _ _ ihLeft ihRight =>
      simp only [all_proper_append, all_proper_cons] at hproper
      rw [List.map_append, List.map_cons]
      exact measures_joined (ihLeft hproper.1) (ihRight hproper.2.2) hspells hproper.1
        (fun _ => rfl) (fun _ => rfl) rfl
  | and word hspells _ _ _ ihLeft ihRight | or word hspells _ _ _ ihLeft ihRight =>
      simp only [all_proper_append, all_proper_cons] at hproper
      rw [List.map_append, List.map_cons]
      exact measures_joined (ihLeft hproper.1) (ihRight hproper.2.2) hspells hproper.1
        (fun _ => rfl) (fun _ => rfl) rfl
  | @between word joint operand low high negated os ns ls hs hspells hnegation hlow _ _ _ _
      ih ihLow ihHigh =>
      simp only [all_proper_append, all_proper_cons] at hproper
      obtain ⟨⟨⟨hos, -⟩, -, hls⟩, -, hhs⟩ := hproper
      simp only [List.map_append, List.map_cons, List.append_assoc, List.cons_append]
      intro parens ahead levels
      have hwhole := (Phrase.between operand low high negated).shallow_iff_of_first
        (show _ = (operand, (⟨parens.headD 0, ahead, levels⟩ : Surroundings)) :: _ from rfl)
      rw [(ih hos).append hspells hos parens ahead levels, hwhole]
      refine and_congr_right fun hshallow => ?_
      have hlimit := inside_le_of_shallow hshallow
      have hbounds := (ihLow hls).append hlow hls parens 0 levels
        (.keyword .and :: hs.map (·.lexeme))
      rw [(ihHigh hhs).behind rfl levels] at hbounds
      rw [within_negation hnegation hlimit (fun _ _ => rfl)]
      refine and_congr_right fun _ => ?_
      rw [List.forall_mem_cons, List.forall_mem_singleton]
      exact (and_iff_right hlimit).symm.trans hbounds
  | inList inside leftParen rightParen item hspells hnegation hitems _ ih =>
      simp only [all_proper_append] at hproper
      simp only [List.map_append, List.map_cons, List.append_assoc, List.cons_append]
      refine measures_tested (ih hproper.1.1.1) hspells hproper.1.1.1 (fun _ => rfl)
        fun parens ended hlimit => ?_
      rw [within_negation hnegation hlimit (fun _ _ => rfl)]
      refine ⟨fun h _ => h.2.1, fun h => ⟨fun _ => h rfl, h rfl, ?_⟩⟩
      have hdeeper : ((parens.headD 0 + 1) :: parens).headD 0 ≤ limit := h rfl
      exact within_list hitems item hdeeper hlimit false
  | like word pattern hspells hnegation hescape _ ih =>
      simp only [all_proper_append] at hproper
      simp only [List.map_append, List.map_cons, List.append_assoc]
      refine measures_tested (ih hproper.1.1) hspells hproper.1.1 (fun _ => rfl)
        fun parens ended hlimit => ?_
      rw [within_negation hnegation hlimit fun _ _ => rfl]
      refine and_iff_left ?_
      cases hescape with
      | absent => exact ⟨hlimit, trivial⟩
      | present => exact ⟨hlimit, hlimit, hlimit, trivial⟩
  | isNull word nullKeyword hspells hnegation _ ih =>
      simp only [all_proper_append] at hproper
      simp only [List.map_append, List.map_cons, List.append_assoc]
      refine measures_tested (ih hproper.1.1) hspells hproper.1.1 (fun _ => rfl)
        fun parens ended hlimit => ?_
      rw [List.cons_append, Depth.Within]
      refine (and_iff_right hlimit).trans ?_
      exact (within_negation hnegation hlimit (fun _ _ => rfl) false []).trans
        (and_iff_left trivial)
  | cutShort =>
      simp only [all_proper_append, all_proper_cons] at hproper
      exact absurd rfl hproper.2.1.2.1

end Nesting

end MessageSelector
