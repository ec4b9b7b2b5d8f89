import MessageSelector.Expr.Rendering
import MessageSelector.Proofs.Doubles.Reading
import MessageSelector.Proofs.Lexical.Spacing
import MessageSelector.Proofs.WellFormed

/-!
# Scanning canonical text

The canonical text of an expression is scanned to its canonical lexemes, which `Expr.lexemes` tells
by recursion on the expression, and it is well spaced. `LaysOut` says both of a part of the text in
front of any separator, so that parts can be put side by side.
-/

namespace MessageSelector

open Lexeme (Written)

/-! ## Parts of a text -/

/-- In front of a separator the text is scanned to the lexemes. -/
def Writes (text : List Char) (lexemes : List Lexeme) : Prop :=
  ∀ rest, Separates rest → Token.lexemes (text ++ rest) = lexemes ++ Token.lexemes rest

/-- In front of a separator the text consists of the lexemes, well spaced. -/
def LaysOut (text : List Char) (lexemes : List Lexeme) : Prop :=
  ∀ rest, Separates rest → Laid text lexemes rest

variable {before after joint : List Char} {ls ms js : List Lexeme}

/-- What lays lexemes out is scanned to them. -/
theorem LaysOut.writes (h : LaysOut after ls) : Writes after ls :=
  fun rest hrest => (h rest hrest).cut.lexemes

/-- Nothing lays out nothing. -/
theorem lays_out_nil : LaysOut [] [] :=
  fun rest _ => .nil rest

/-- A lexeme is laid out by how it is written. -/
theorem lays_out_of_written {lexeme : Lexeme} {text : List Char} (h : Written lexeme text) :
    LaysOut text [lexeme] := by
  intro rest hrest
  rw [← List.append_nil text]
  exact .lexeme h (.inr hrest) (.nil rest)

/-- Parts with a space between them lay out one after the other. -/
theorem LaysOut.space (hbefore : LaysOut before ls) (hafter : LaysOut after ms) :
    LaysOut (before ++ ' ' :: after) (ls ++ ms) :=
  fun rest hrest => (hbefore _ (separates_space _)).append (.space (hafter rest hrest))

/-- Parts with an operator between them lay out one after the other. -/
theorem LaysOut.joined (hbefore : LaysOut before ls) (hjoint : LaysOut joint js)
    (hafter : LaysOut after ms) :
    LaysOut (before ++ ' ' :: (joint ++ ' ' :: after)) (ls ++ (js ++ ms)) :=
  hbefore.space (hjoint.space hafter)

/-- A sign may stand directly in front of a part. -/
theorem LaysOut.after_sign (sign : Sign) (hafter : LaysOut after ms) :
    LaysOut (sign.symbol.toList ++ after) (sign.lexeme :: ms) := by
  intro rest hrest
  cases sign with
  | plus => exact .lexeme .plus (.inl (.inl rfl)) (hafter rest hrest)
  | minus => exact .lexeme .minus (.inl (.inr (.inl rfl))) (hafter rest hrest)

/-- An opening parenthesis may stand directly in front of a part. -/
theorem LaysOut.after_open (hafter : LaysOut after ms) :
    LaysOut ('(' :: after) (.leftParen :: ms) :=
  fun rest hrest => .lexeme .leftParen (.inl (.inr (.inr rfl))) (hafter rest hrest)

/-- A closing parenthesis ends the part in front of it. -/
theorem LaysOut.close (hbefore : LaysOut before ls) :
    LaysOut (before ++ [')']) (ls ++ [.rightParen]) :=
  fun rest hrest => (hbefore _ (separates_close rest)).append
    (lays_out_of_written .rightParen rest hrest)

/-- A comma ends the part in front of it. -/
theorem LaysOut.comma (hbefore : LaysOut before ls) (hafter : LaysOut after ms) :
    LaysOut (before ++ ',' :: ' ' :: after) (ls ++ .comma :: ms) :=
  fun rest hrest => (hbefore _ (separates_comma _)).append
    (.lexeme .comma (.inr (separates_space _)) (.space (hafter rest hrest)))

/-- A word lays out the lexeme it is. -/
theorem lays_out_word {word : String} {first : Char} {following : List Char}
    (hword : word.toList = first :: following) (hfirst : isWordStart first = true)
    (hfollowing : following.all isWordChar = true) : LaysOut word.toList [.ofWord word] :=
  lays_out_of_written (Lexeme.written_word hword hfirst hfollowing)

/-- A string is laid out by its literal. -/
theorem lays_out_quote (text : String) : LaysOut (Text.quote text).toList [.string text] :=
  lays_out_of_written (.string text)

/-- An integer is laid out by its digits. -/
theorem lays_out_integer (n : Nat) : LaysOut (toString n).toList [.integer (toString n)] := by
  have hdigits : Token.IsInteger (Nat.toDigits 10 n) :=
    ⟨_, [], (List.append_nil _).symm, .decimal Nat.toDigits_ne_nil (Integer.to_digits_all n),
      .inl rfl⟩
  have hlaid := lays_out_of_written (.integer hdigits)
  rwa [← Nat.toString_eq_ofList_toDigits, ← Nat.toList_repr, ← Nat.toString_eq_repr] at hlaid

/-- A floating-point literal is laid out by its text. -/
theorem lays_out_numeral (numeral : Numeral) :
    LaysOut numeral.text [.float (String.ofList numeral.text)] :=
  lays_out_of_written (.float numeral.written)

/-! ## The canonical lexemes -/

/-- A keyword as the canonical text has it. -/
def Keyword.text : Keyword → String
  | not => "NOT"
  | and => "AND"
  | or => "OR"
  | between => "BETWEEN"
  | like => "LIKE"
  | inside => "IN"
  | is => "IS"
  | null => "NULL"
  | escape => "ESCAPE"

/-- The lexemes of a literal. A negative number is a minus and the number without it. -/
def Value.lexemes : Value → List Lexeme
  | string text => [.string text]
  | integer number =>
    (if number.toInt < 0 then [.minus] else []) ++ [.integer (toString number.toInt.natAbs)]
  | float number =>
    (if 2 ^ 63 ≤ number.toBits.toNat then [.minus] else []) ++ [.float (floatDigits number)]
  | boolean flag => [.boolean flag]

namespace Expr

/-- Lexemes in parentheses where their binding is looser than demanded. -/
def encloseLexemes (demanded actual : Binding) (lexemes : List Lexeme) : List Lexeme :=
  if actual.rank < demanded.rank then .leftParen :: lexemes ++ [.rightParen] else lexemes

/-- The keyword that negates a condition, when it is negated. -/
def notLexemes (negated : Bool) : List Lexeme :=
  if negated then [.keyword .not] else []

/-- Items with commas between them. -/
def itemLexemes : List String → List Lexeme
  | [] => []
  | [item] => [.string item]
  | item :: items => .string item :: .comma :: itemLexemes items

/-- A pattern with its escape clause. -/
def patternLexemes (pattern : Like.Pattern) : List Lexeme :=
  .string pattern.text ::
    match pattern.escape with
    | none => []
    | some c => [.keyword .escape, .string (String.singleton c)]

/-- The lexemes of the canonical text. -/
def lexemes : Expr → List Lexeme
  | identifier name => [.identifier name]
  | literal value => value.lexemes
  | not operand => .keyword .not :: encloseLexemes .not operand.binding operand.lexemes
  | and left right =>
    encloseLexemes .and left.binding left.lexemes ++ .keyword .and ::
      encloseLexemes .not right.binding right.lexemes
  | or left right =>
    encloseLexemes .or left.binding left.lexemes ++ .keyword .or ::
      encloseLexemes .and right.binding right.lexemes
  | comparison op left right =>
    encloseLexemes .additive left.binding left.lexemes ++ .comparison op ::
      encloseLexemes .additive right.binding right.lexemes
  | arithmetic op left right =>
    encloseLexemes (.ofArithmetic op) left.binding left.lexemes ++ op.lexeme ::
      encloseLexemes (.aboveArithmetic op) right.binding right.lexemes
  | signed sign operand =>
    sign.lexeme :: encloseLexemes .sign operand.binding operand.lexemes
  | between operand low high negated =>
    encloseLexemes .additive operand.binding operand.lexemes ++ notLexemes negated ++
      .keyword .between :: encloseLexemes .additive low.binding low.lexemes ++
      .keyword .and :: encloseLexemes .additive high.binding high.lexemes
  | inList operand items negated =>
    encloseLexemes .additive operand.binding operand.lexemes ++ notLexemes negated ++
      .keyword .inside :: .leftParen :: itemLexemes items ++ [.rightParen]
  | like operand pattern negated =>
    encloseLexemes .additive operand.binding operand.lexemes ++ notLexemes negated ++
      .keyword .like :: patternLexemes pattern
  | isNull operand negated =>
    encloseLexemes .additive operand.binding operand.lexemes ++ .keyword .is ::
      notLexemes negated ++ [.keyword .null]

/-- A keyword in capitals is the keyword. -/
theorem of_word_keyword (word : Keyword) : Lexeme.ofWord word.text = .keyword word := by
  cases word <;> decide +kernel

/-- A keyword is written in capitals. -/
theorem written_keyword (word : Keyword) : Lexeme.Written (.keyword word) word.text.toList := by
  rw [← of_word_keyword]
  cases word <;> exact .word rfl rfl

/-- A keyword is laid out in capitals. -/
theorem lays_out_keyword (word : Keyword) : LaysOut word.text.toList [.keyword word] :=
  lays_out_of_written (written_keyword word)

/-- An operand is laid out with the parentheses around it, if it has them. -/
theorem lays_out_enclose {text : String} {ls : List Lexeme} (h : LaysOut text.toList ls)
    (demanded actual : Binding) :
    LaysOut (enclose demanded actual text).toList (encloseLexemes demanded actual ls) := by
  unfold encloseLexemes
  split
  · next hlt =>
      rw [Binding.enclose_of_lt hlt, String.toList_append, String.toList_append, List.append_assoc]
      exact h.close.after_open
  · next hge =>
      rw [Binding.enclose_of_le (Nat.le_of_not_lt hge)]
      exact h

/-- A comparison is laid out by its symbol. -/
theorem lays_out_comparison (op : Comparison) : LaysOut op.symbol.toList [.comparison op] :=
  lays_out_of_written (.comparison op)

/-- An arithmetic operator is laid out by its symbol. -/
theorem lays_out_arithmetic (op : Arithmetic) : LaysOut op.symbol.toList [op.lexeme] := by
  cases op with
  | add => exact lays_out_of_written .plus
  | subtract => exact lays_out_of_written .minus
  | multiply => exact lays_out_of_written .star
  | divide => exact lays_out_of_written .slash

/-- A minus in front of a number is a lexeme by itself. -/
theorem lays_out_minus_if (negative : Prop) [Decidable negative] {text : String} {ls : List Lexeme}
    (h : LaysOut text.toList ls) :
    LaysOut ((if negative then "-" else "") ++ text).toList
      ((if negative then [.minus] else []) ++ ls) := by
  rw [String.toList_append]
  split
  · exact h.after_sign .minus
  · exact h

/-- The text of a value lays out its lexemes. -/
theorem lays_out_value {value : Value} (h : (literal value).WellFormed) :
    LaysOut value.text.toList value.lexemes := by
  cases value with
  | string text => exact lays_out_quote text
  | boolean flag =>
      have hlexeme : Lexeme.ofWord (Value.boolean flag).text = .boolean flag := by
        cases flag <;> decide +kernel
      change LaysOut (Value.boolean flag).text.toList [.boolean flag]
      rw [← hlexeme]
      cases flag <;> exact lays_out_word rfl rfl rfl
  | integer number =>
      have htext : toString number.toInt =
          (if number.toInt < 0 then "-" else "") ++ toString number.toInt.natAbs := by
        rw [Int.toString_eq_repr, Int.repr_eq_if]
        by_cases hsign : number.toInt < 0
        · rw [if_pos hsign, if_neg (by omega),
            show (-number.toInt).toNat = number.toInt.natAbs by omega]
          rfl
        · rw [if_neg hsign, if_pos (by omega),
            show number.toInt.toNat = number.toInt.natAbs by omega]
          simp
      rw [Value.text, Value.lexemes, htext]
      exact lays_out_minus_if _ (lays_out_integer number.toInt.natAbs)
  | float number =>
      obtain ⟨numeral, hnumeral, -⟩ := Value.float_digits_numeral h
      have hdigits := lays_out_numeral numeral
      rw [← hnumeral, String.ofList_toList] at hdigits
      rw [Value.float_text h, Value.lexemes]
      exact lays_out_minus_if _ hdigits

/-- A negation is laid out in front of what it negates. -/
theorem lays_out_negated (negated : Bool) {text : List Char} {ls : List Lexeme}
    (h : LaysOut text ls) :
    LaysOut ((notKeyword negated).toList ++ text) (notLexemes negated ++ ls) := by
  cases negated with
  | false => exact h
  | true => exact (lays_out_keyword .not).space h

/-- The items of a list are laid out with the commas between them. -/
theorem lays_out_items (items : List String) :
    LaysOut (", ".intercalate (items.map Text.quote)).toList (itemLexemes items) := by
  induction items with
  | nil => exact lays_out_nil
  | cons item items ih =>
      cases items with
      | nil => exact lays_out_quote item
      | cons next items =>
          have htext : (", ".intercalate ((item :: next :: items).map Text.quote)).toList =
              (Text.quote item).toList ++ ',' :: ' ' ::
                (", ".intercalate ((next :: items).map Text.quote)).toList := by
            simp [String.intercalate_cons_cons]
          rw [htext]
          exact (lays_out_quote item).comma ih

/-- A pattern is laid out with its escape clause. -/
theorem lays_out_pattern (pattern : Like.Pattern) :
    LaysOut pattern.literal.toList (patternLexemes pattern) := by
  unfold Like.Pattern.literal patternLexemes
  cases pattern.escape with
  | none => exact lays_out_quote pattern.text
  | some c =>
      have htext : (Text.quote pattern.text ++ " ESCAPE " ++
          Text.quote (String.singleton c)).toList = (Text.quote pattern.text).toList ++ ' ' ::
            ((Keyword.text .escape).toList ++ ' ' :: (Text.quote (String.singleton c)).toList) := by
        simp [Keyword.text]
      dsimp only
      rw [htext]
      exact (lays_out_quote pattern.text).joined (lays_out_keyword .escape) (lays_out_quote _)

/-- The canonical text of a well-formed expression lays out its canonical lexemes. -/
theorem lays_out_render {e : Expr} (h : e.WellFormed) : LaysOut e.render.toList e.lexemes := by
  induction e with
  | identifier name =>
    obtain ⟨⟨first, following, hname, hfirst, hfollowing⟩, hreserved⟩ := h
    have hword : Lexeme.ofWord name = .identifier name :=
      (Lexeme.of_word_eq_identifier _ _).mpr ⟨rfl, hreserved⟩
    have hlaid := lays_out_word hname hfirst hfollowing
    rwa [hword] at hlaid
  | literal value => exact lays_out_value h
  | not operand ih =>
      have htext : (Expr.not operand).render.toList = (Keyword.text .not).toList ++
          ' ' :: (enclose .not operand.binding operand.render).toList := by
        simp [render, Keyword.text]
      rw [htext]
      exact (lays_out_keyword .not).space (lays_out_enclose (ih h) .not operand.binding)
  | and left right ihLeft ihRight =>
      have htext : (Expr.and left right).render.toList =
          (enclose .and left.binding left.render).toList ++ ' ' ::
            ((Keyword.text .and).toList ++ ' ' ::
              (enclose .not right.binding right.render).toList) := by
        simp [render, Keyword.text]
      rw [htext]
      exact (lays_out_enclose (ihLeft h.1) _ _).joined (lays_out_keyword .and)
        (lays_out_enclose (ihRight h.2) _ _)
  | or left right ihLeft ihRight =>
      have htext : (Expr.or left right).render.toList =
          (enclose .or left.binding left.render).toList ++ ' ' ::
            ((Keyword.text .or).toList ++ ' ' ::
              (enclose .and right.binding right.render).toList) := by
        simp [render, Keyword.text]
      rw [htext]
      exact (lays_out_enclose (ihLeft h.1) _ _).joined (lays_out_keyword .or)
        (lays_out_enclose (ihRight h.2) _ _)
  | comparison op left right ihLeft ihRight =>
      have htext : (Expr.comparison op left right).render.toList =
          (enclose .additive left.binding left.render).toList ++ ' ' :: (op.symbol.toList ++ ' ' ::
            (enclose .additive right.binding right.render).toList) := by
        simp [render]
      rw [htext]
      exact (lays_out_enclose (ihLeft h.1) _ _).joined (lays_out_comparison op)
        (lays_out_enclose (ihRight h.2) _ _)
  | arithmetic op left right ihLeft ihRight =>
      have htext : (Expr.arithmetic op left right).render.toList =
          (enclose (.ofArithmetic op) left.binding left.render).toList ++ ' ' ::
            (op.symbol.toList ++ ' ' ::
              (enclose (.aboveArithmetic op) right.binding right.render).toList) := by
        simp [render]
      rw [htext]
      exact (lays_out_enclose (ihLeft h.1) _ _).joined (lays_out_arithmetic op)
        (lays_out_enclose (ihRight h.2) _ _)
  | signed sign operand ih =>
      -- A space keeps the sign apart from another one, or from a number that it is no part of.
      have hoperand := lays_out_enclose (ih h.1) .sign operand.binding
      have hspaced : LaysOut ((if operand.startsSigned then " " else "").toList ++
          (enclose .sign operand.binding operand.render).toList)
          (encloseLexemes .sign operand.binding operand.lexemes) := by
        split
        · exact lays_out_nil.space hoperand
        · exact hoperand
      rw [render, String.toList_append, String.toList_append, List.append_assoc, lexemes]
      exact hspaced.after_sign sign
  | between operand low high negated ih ihLow ihHigh =>
      have htext : (Expr.between operand low high negated).render.toList =
          (enclose .additive operand.binding operand.render).toList ++ ' ' ::
            ((notKeyword negated).toList ++ ((Keyword.text .between).toList ++ ' ' ::
              ((enclose .additive low.binding low.render).toList ++ ' ' ::
                ((Keyword.text .and).toList ++ ' ' ::
                  (enclose .additive high.binding high.render).toList)))) := by
        simp [render, Keyword.text]
      have hbounds := (lays_out_enclose (ihLow h.2.1) .additive low.binding).joined
        (lays_out_keyword .and) (lays_out_enclose (ihHigh h.2.2) .additive high.binding)
      rw [htext]
      simpa [lexemes] using (lays_out_enclose (ih h.1) .additive operand.binding).space
        (lays_out_negated negated ((lays_out_keyword .between).space hbounds))
  | inList operand items negated ih =>
      have htext : (Expr.inList operand items negated).render.toList =
          (enclose .additive operand.binding operand.render).toList ++ ' ' ::
            ((notKeyword negated).toList ++ ((Keyword.text .inside).toList ++ ' ' ::
              ('(' :: ((", ".intercalate (items.map Text.quote)).toList ++ [')'])))) := by
        simp [render, listText, Keyword.text]
      have hitems : LaysOut ('(' :: ((", ".intercalate (items.map Text.quote)).toList ++ [')']))
          (.leftParen :: (itemLexemes items ++ [.rightParen])) :=
        (lays_out_items items).close.after_open
      rw [htext]
      simpa [lexemes] using (lays_out_enclose (ih h.2.1) .additive operand.binding).space
        (lays_out_negated negated ((lays_out_keyword .inside).space hitems))
  | like operand pattern negated ih =>
      have htext : (Expr.like operand pattern negated).render.toList =
          (enclose .additive operand.binding operand.render).toList ++ ' ' ::
            ((notKeyword negated).toList ++ ((Keyword.text .like).toList ++ ' ' ::
              pattern.literal.toList)) := by
        simp [render, Keyword.text]
      rw [htext]
      simpa [lexemes] using (lays_out_enclose (ih h.2.1) .additive operand.binding).space
        (lays_out_negated negated ((lays_out_keyword .like).space (lays_out_pattern pattern)))
  | isNull operand negated ih =>
      have htext : (Expr.isNull operand negated).render.toList =
          (enclose .additive operand.binding operand.render).toList ++ ' ' ::
            ((Keyword.text .is).toList ++ ' ' ::
              ((notKeyword negated).toList ++ (Keyword.text .null).toList)) := by
        simp [render, Keyword.text]
      rw [htext]
      simpa [lexemes] using (lays_out_enclose (ih h.2) .additive operand.binding).joined
        (lays_out_keyword .is) (lays_out_negated negated (lays_out_keyword .null))

/-- The canonical text of a well-formed expression is scanned to its canonical lexemes. -/
theorem writes_render {e : Expr} (h : e.WellFormed) : Writes e.render.toList e.lexemes :=
  (lays_out_render h).writes

end Expr

end MessageSelector
