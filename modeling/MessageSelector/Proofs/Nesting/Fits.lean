import MessageSelector.Proofs.Nesting.Lexemes

/-!
# Lexemes that fit a place

An operand stands inside so many parentheses and behind so many operators. `Fits` says that its
lexemes nest within the limit in every place that is no deeper, and `Follows` says it of what comes
after an operand. Neither asks where the parentheses were opened, so both are kept where a place
gets shallower.
-/

namespace MessageSelector.Nesting

/-! ## What lexemes do to a depth -/

/-- Wherever it stands, the lexeme puts an operand behind. -/
def EndsOperand (lexeme : Lexeme) : Prop :=
  ∀ depth : Depth, depth.afterLexeme lexeme = depth.operandEnded

/-- The lexeme is an operator in front of the operand that is to come. -/
def IsOperator (lexeme : Lexeme) : Prop :=
  ∀ parens operators, (⟨parens, operators, false⟩ : Depth).afterLexeme lexeme =
    ⟨parens, operators + 1, false⟩

/-- The lexeme stands between operands, or between an operand and a test of it. One that is also a
sign counts as an operator where no operand has passed for ended. -/
structure IsJoint (lexeme : Lexeme) : Prop where
  after_operand : ∀ parens, (⟨parens, 0, true⟩ : Depth).afterLexeme lexeme = ⟨parens, 0, false⟩
  after_any : ∀ depth : Depth, ∃ operators,
    depth.afterLexeme lexeme = ⟨depth.insideParens, operators, false⟩

/-- A sign is an operator. -/
theorem is_operator_sign (sign : Sign) : IsOperator sign.lexeme := by
  intro parens operators
  cases sign <;> rfl

/-- `NOT` is an operator. -/
theorem is_operator_not : IsOperator (.keyword .not) :=
  fun _ _ => rfl

/-- An arithmetic operator stands between operands. -/
theorem is_joint_arithmetic (op : Arithmetic) : IsJoint op.lexeme where
  after_operand parens := by cases op <;> rfl
  after_any := by
    rintro ⟨parens, operators, ended⟩
    cases op with
    | add | subtract => cases ended <;> exact ⟨_, rfl⟩
    | multiply | divide => exact ⟨0, rfl⟩

/-- What only expects an operand stands between operands. -/
theorem is_joint_of_expected {lexeme : Lexeme}
    (h : ∀ depth : Depth, depth.afterLexeme lexeme = depth.operandExpected) : IsJoint lexeme :=
  ⟨fun _ => h _, fun depth => ⟨0, h depth⟩⟩

/-! ## Places -/

/-- The lexemes of an operand nest within the limit wherever no more than so many levels are around
and so many operators in front of it, if what follows does. -/
def Fits (around operators : Nat) (lexemes : List Lexeme) : Prop :=
  ∀ (parens : List Nat) (ahead : Nat) (more : List Lexeme), parens.headD 0 ≤ around →
    parens.headD 0 + ahead ≤ around + operators → parens.headD 0 + ahead ≤ limit →
    (⟨parens, 0, true⟩ : Depth).Within more →
      (⟨parens, ahead, false⟩ : Depth).Within (lexemes ++ more)

/-- After an operand the lexemes nest within the limit wherever no more than so many levels are
around, if what follows does. -/
def Follows (around : Nat) (lexemes : List Lexeme) : Prop :=
  ∀ (parens : List Nat) (more : List Lexeme), parens.headD 0 ≤ around → parens.headD 0 ≤ limit →
    (⟨parens, 0, true⟩ : Depth).Within more → (⟨parens, 0, true⟩ : Depth).Within (lexemes ++ more)

variable {around operators : Nat} {lexeme : Lexeme} {ls ms : List Lexeme}

/-- What fits a place fits a shallower one. -/
theorem Fits.shallower (h : Fits around operators ls) {around' operators' : Nat}
    (haround : around' ≤ around) (hlevels : around' + operators' ≤ around + operators) :
    Fits around' operators' ls :=
  fun parens ahead more hparens hahead hlimit hmore =>
    h parens ahead more (Nat.le_trans hparens haround) (Nat.le_trans hahead hlevels) hlimit hmore

/-- An operand of one lexeme fits anywhere. -/
theorem fits_of_ends_operand (h : EndsOperand lexeme) : Fits around operators [lexeme] := by
  intro parens ahead more _ _ hlimit hmore
  refine ⟨?_, ?_⟩
  · rw [h]
    exact Nat.le_trans (Nat.le_add_right _ _) hlimit
  · rw [h]
    exact hmore

/-- An operator in front of an operand takes a level. -/
theorem Fits.operator (hlexeme : IsOperator lexeme) (hlimit : around + operators + 1 ≤ limit)
    (h : Fits around (operators + 1) ls) : Fits around operators (lexeme :: ls) := by
  intro parens ahead more hparens hahead _ hmore
  have hdeeper : parens.headD 0 + (ahead + 1) ≤ limit := by omega
  refine ⟨?_, ?_⟩
  · rw [hlexeme]
    exact hdeeper
  · rw [hlexeme]
    exact h parens (ahead + 1) more hparens (by omega) hdeeper hmore

/-- Parentheses take a level and leave the operators in front of them outside. -/
theorem Fits.group (hlimit : around + operators + 1 ≤ limit)
    (h : Fits (around + operators + 1) 0 ls) :
    Fits around operators (.leftParen :: ls ++ [.rightParen]) := by
  intro parens ahead more hparens hahead hplace hmore
  have hdeeper : parens.headD 0 + ahead + 1 ≤ limit := by omega
  rw [List.cons_append, List.cons_append, List.append_assoc]
  refine ⟨hdeeper, h ((parens.headD 0 + ahead + 1) :: parens) 0 _ ?_ ?_ hdeeper ?_⟩
  · exact Nat.succ_le_succ hahead
  · exact Nat.succ_le_succ hahead
  · exact ⟨Nat.le_trans (Nat.le_add_right _ _) hplace, hmore⟩

/-- An operand and what follows it fit together. -/
theorem Fits.append (h : Fits around operators ls) (hfollows : Follows around ms) :
    Fits around operators (ls ++ ms) := by
  intro parens ahead more hparens hahead hplace hmore
  rw [List.append_assoc]
  exact h parens ahead _ hparens hahead hplace
    (hfollows parens more hparens (Nat.le_trans (Nat.le_add_right _ _) hplace) hmore)

/-- What follows an operand may be followed itself. -/
theorem Follows.append (h : Follows around ls) (hfollows : Follows around ms) :
    Follows around (ls ++ ms) := by
  intro parens more hparens hlimit hmore
  rw [List.append_assoc]
  exact h parens _ hparens hlimit (hfollows parens more hparens hlimit hmore)

/-- A joint and an operand follow an operand. -/
theorem Fits.joined (hlexeme : IsJoint lexeme) (h : Fits around 0 ls) :
    Follows around (lexeme :: ls) := by
  intro parens more hparens hlimit hmore
  refine ⟨?_, ?_⟩
  · rw [hlexeme.after_operand]
    exact hlimit
  · rw [hlexeme.after_operand]
    exact h parens 0 more hparens hparens hlimit hmore

/-- A negation of a test takes a level, which the keyword of the test gives back. -/
theorem Follows.negated {negated : Bool} (hlimit : negated = true → around + 1 ≤ limit)
    (hexpected : ∀ depth : Depth, depth.afterLexeme lexeme = depth.operandExpected)
    (h : Follows around (lexeme :: ls)) :
    Follows around (Expr.notLexemes negated ++ lexeme :: ls) := by
  intro parens more hparens hplace hmore
  have htest := h parens more hparens hplace hmore
  cases negated with
  | false => exact htest
  | true =>
      have hdeeper : parens.headD 0 + 1 ≤ limit :=
        Nat.le_trans (Nat.succ_le_succ hparens) (hlimit rfl)
      simp only [List.cons_append, Depth.Within, hexpected] at htest
      refine ⟨hdeeper, ?_⟩
      change (⟨parens, 1, false⟩ : Depth).Within (lexeme :: (ls ++ more))
      rw [Depth.Within, hexpected]
      exact htest

end MessageSelector.Nesting
