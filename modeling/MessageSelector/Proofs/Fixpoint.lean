import MessageSelector.Proofs.Nesting.NoDeeper

/-!
# Canonical text is a fixpoint

What a text means is well formed, its canonical text nests no deeper than the text itself, and so it
is read back as the same expression. Rendering once more changes nothing.
-/

namespace MessageSelector.Expr

/-- The canonical text of an expression that a text has is accepted, is read back as that
expression, and is its own canonical text. -/
theorem parse_render_of_parse {text : String} {e : Expr} (h : parse text = .ok (some e)) :
    Nesting.tooDeep? e.render.toList = none ∧ parse e.render = .ok (some e) ∧
      ∀ again, parse e.render = .ok (some again) → again.render = e.render := by
  obtain ⟨hnesting, phrase, tokens, stop, htokens, hspells, hmeaning⟩ := of_chars_ok (of_parse_ok h)
  have hwellFormed := well_formed_of_scan htokens hspells hmeaning
  have hcanonical := Nesting.too_deep_render hnesting htokens hspells hmeaning
  have hparse : parse e.render = .ok (some e) := by
    unfold parse
    rw [of_chars_render hwellFormed hcanonical]
    rfl
  refine ⟨hcanonical, hparse, fun again hagain => ?_⟩
  rw [hparse] at hagain
  cases hagain
  rfl

/-- Parentheses and signs that canonical text has not are dropped once and for all. -/
theorem parse_render_of_parse_signs :
    parse "not ((a)) <= - -(2)" = .ok (some (.not (.comparison .lessOrEqual (.identifier "a")
        (.literal (.integer 2))))) ∧
      parse (Expr.not (.comparison .lessOrEqual (.identifier "a") (.literal (.integer 2)))).render =
        .ok (some (.not (.comparison .lessOrEqual (.identifier "a") (.literal (.integer 2))))) := by
  have h : parse "not ((a)) <= - -(2)" = .ok (some (.not (.comparison .lessOrEqual (.identifier "a")
      (.literal (.integer 2))))) := by
    cbv
  exact ⟨h, (parse_render_of_parse h).2.1⟩

end MessageSelector.Expr
