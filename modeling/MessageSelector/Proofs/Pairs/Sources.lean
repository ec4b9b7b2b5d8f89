import MessageSelector.Proofs.Diagnostics
import MessageSelector.Proofs.Pairs.Building

/-!
# What is written where a token stands

A pair knows only where it stands, so its word, its number or its string is read from the text
again. `source_of_scan` says that there stands what the token is written as, and `gap_of_scan` that
nothing but layout stands between neighbours. The readings of the text then give back what the token
says.
-/

namespace MessageSelector

open Lexeme (Written)

/-! ## Slices -/

/-- The bytes of the front of a text are dropped with it. -/
theorem drop_bytes_append (front back : List Char) :
    Span.dropBytes (front ++ back) (byteCount front) = back := by
  induction front with
  | nil => cases back <;> rfl
  | cons c front ih =>
      have hsize := c.utf8Size_pos
      rw [List.cons_append, byte_count_cons]
      obtain ⟨bytes, hbytes⟩ := Nat.exists_eq_add_of_le' (Nat.le_trans hsize (Nat.le_add_right _ _))
      rw [hbytes, Span.dropBytes, ← hbytes, Nat.add_sub_cancel_left, ih]

/-- The bytes of the front of a text are taken with it. -/
theorem take_bytes_append (front back taken : List Char) :
    Span.takeBytes (front ++ back) (byteCount front) taken = taken.reverse ++ front := by
  induction front generalizing taken with
  | nil => cases back <;> simp [Span.takeBytes]
  | cons c front ih =>
      have hsize := c.utf8Size_pos
      rw [List.cons_append, byte_count_cons]
      obtain ⟨bytes, hbytes⟩ := Nat.exists_eq_add_of_le' (Nat.le_trans hsize (Nat.le_add_right _ _))
      rw [hbytes, Span.takeBytes, ← hbytes, Nat.add_sub_cancel_left, ih]
      simp

/-- A stretch of a text is where a span says, and is not cut short. -/
def StandsAt (text : List Char) (span : Span) (source : List Char) : Prop :=
  ∃ front back, text = front ++ (source ++ back) ∧ span = ⟨byteCount front, byteCount source⟩

/-- A span covers what stands there. -/
theorem StandsAt.slice {text source : List Char} {span : Span} (h : StandsAt text span source) :
    span.slice text = String.ofList source := by
  obtain ⟨front, back, rfl, rfl⟩ := h
  rw [Span.slice, drop_bytes_append, take_bytes_append]
  rfl

/-- Between two boundaries there stands something. -/
theorem stands_between {text : List Char} {start stop : Nat} (hstart : Boundary text start)
    (hstop : Boundary text stop) (hle : start ≤ stop) :
    ∃ source, StandsAt text (.between start stop) source := by
  obtain ⟨before, rest, rfl, rfl⟩ := hstart
  obtain ⟨through, after, htext, rfl⟩ := hstop
  obtain ⟨source, rfl, rfl⟩ := append_of_byte_count_le htext hle
  exact ⟨source, before, after, rfl, by simp [Span.between]⟩

/-! ## Tokens -/

section Tokens

variable {before text : List Char} {position skip : Nat} {token next : Token}
  {tokens following : List Token}

/-- In front of the first token there is nothing but layout. -/
theorem gap_in_front (h : Token.scanFrom [] position skip text = token :: following) :
    ∃ gap back, text = text.take skip ++ (gap ++ back) ∧ gap.all isLayout = true ∧
      token.span.start = position + byteCount (text.take skip) + byteCount gap := by
  induction text generalizing position skip with
  | nil =>
      rw [Token.scanFrom, List.reverse_singleton] at h
      obtain ⟨rfl, -⟩ := List.cons.inj h
      exact ⟨[], [], by simp, rfl, by simp⟩
  | cons c rest ih =>
      cases skip with
      | succ skip =>
          obtain ⟨gap, back, hsplit, hgap, hstart⟩ := ih h
          refine ⟨gap, back, ?_, hgap, ?_⟩
          · rw [List.take_succ_cons, List.cons_append, ← hsplit]
          · rw [hstart, List.take_succ_cons, byte_count_cons, ← Nat.add_assoc position]
      | zero =>
          cases hlayout : isLayout c with
          | true =>
              rw [Token.scan_from_layout hlayout] at h
              obtain ⟨gap, back, hsplit, hgap, hstart⟩ := ih h
              rw [List.take_zero, List.nil_append] at hsplit
              rw [List.take_zero, byte_count_nil, Nat.add_zero] at hstart
              refine ⟨c :: gap, back, ?_, by rw [List.all_cons, hlayout, hgap]; rfl, ?_⟩
              · rw [List.take_zero, List.nil_append, List.cons_append, ← hsplit]
              · rw [hstart, List.take_zero, byte_count_nil, byte_count_cons, Nat.add_zero,
                  Nat.add_assoc]
          | false =>
              rw [Token.scan_from_cons hlayout] at h
              obtain ⟨rfl, -⟩ := List.cons.inj h
              exact ⟨[], c :: rest, rfl, rfl, rfl⟩

/-- A token of a text stands where it is written, unless it is an open string. -/
theorem source_of_scan {stop : Span} (hscan : Token.scan text = tokens ++ [⟨.endOfText, stop⟩])
    (hstray : NoStray tokens) (hmem : token ∈ tokens) (hclosed : token.lexeme ≠ .unclosedString) :
    ∃ source, StandsAt text token.span source ∧ Written token.lexeme source := by
  have hend := Token.ne_end_of_mem hscan hmem
  obtain ⟨before, following, rfl⟩ := List.append_of_mem hmem
  rw [no_stray_append, no_stray_cons] at hstray
  obtain ⟨-, hstrayToken, hstrayFollowing⟩ := hstray
  rw [List.append_assoc, List.cons_append] at hscan
  obtain ⟨front, c, rest, rfl, hlayout, hfrom⟩ := Token.scan_at_token hscan hend
  obtain ⟨source, back, rfl, hwritten, -, hspan, -⟩ :=
    first_token hlayout hfrom ⟨hstrayToken, hclosed, hend⟩
      ((no_stray_append _ _).mpr ⟨hstrayFollowing, by simp⟩)
  exact ⟨c :: source, ⟨front, back, rfl, hspan⟩, hwritten⟩

/-- Neighbours of a text have nothing but layout between them. -/
theorem gap_of_scan (h : [token, next] <:+: Token.scan text) :
    ∃ gap, StandsAt text (.between token.span.stop next.span.start) gap ∧
      token.span.stop ≤ next.span.start ∧ gap.all isLayout = true := by
  obtain ⟨before, following, heq⟩ := h
  have hscan : Token.scan text = before ++ token :: next :: following := by
    rw [← heq]
    simp
  obtain ⟨front, c, rest, rfl, hlayout, hfrom⟩ :=
    Token.scan_at_token hscan (Token.ne_end_of_followed hscan)
  rw [Token.scan_from_cons hlayout] at hfrom
  obtain ⟨rfl, hnext⟩ := List.cons.inj hfrom
  obtain ⟨gap, back, hsplit, hgap, hstart⟩ := gap_in_front hnext
  refine ⟨gap, ⟨front ++ c :: rest.take (Lexeme.atFront c rest).2, back, ?_, ?_⟩, ?_, hgap⟩
  · rw [List.append_assoc, List.cons_append, ← hsplit]
  · rw [hstart]
    simp [Span.between, Span.stop]
    omega
  · rw [hstart]
    simp only [Span.stop]
    omega

/-- What stands between two places is part of what is between them. -/
theorem StandsAt.between {source : List Char} {span : Span} {start stop : Nat}
    (h : StandsAt text span source) (hstart : Boundary text start) (hstop : Boundary text stop)
    (hle : start ≤ span.start) (hle' : span.stop ≤ stop) :
    ∃ before after,
      ((Span.between start stop).slice text).toList = before ++ (source ++ after) := by
  obtain ⟨front, back, rfl, rfl⟩ := h
  obtain ⟨first, others, hfirst, rfl⟩ := hstart
  obtain ⟨last, behind, hlast, rfl⟩ := hstop
  obtain ⟨before, rfl, rfl⟩ := append_of_byte_count_le hfirst.symm hle
  rw [← List.append_assoc] at hlast
  simp only [Span.stop] at hle'
  obtain ⟨after, rfl, rfl⟩ := append_of_byte_count_le hlast
    (by simpa [Nat.add_assoc] using hle')
  have hstands : StandsAt (first ++ before ++ (source ++ (after ++ behind)))
      (.between (byteCount first) (byteCount (first ++ before ++ source ++ after)))
      (before ++ (source ++ after)) := by
    refine ⟨first, behind, by simp, ?_⟩
    simp [Span.between]
  refine ⟨before, after, ?_⟩
  rw [hstands.slice, String.toList_ofList]

end Tokens

/-! ## Words -/

section Words

variable {source : List Char} {name literal contents : String}

/-- An identifier is written as its name. -/
theorem written_identifier (h : Written (.identifier name) source) : source = name.toList := by
  generalize hlexeme : Lexeme.identifier name = lexeme at h
  cases h with
  | word =>
      obtain ⟨rfl, -⟩ := (Lexeme.of_word_eq_identifier _ _).mp hlexeme.symm
      exact String.toList_ofList.symm
  | _ => cases hlexeme

/-- A boolean literal is written as the word for it, in any case. -/
theorem written_boolean {flag : Bool} (h : Written (.boolean flag) source) :
    ((String.ofList source).toLower == "true") = flag := by
  generalize hlexeme : Lexeme.boolean flag = lexeme at h
  cases h with
  | word =>
      unfold Lexeme.ofWord at hlexeme
      split at hlexeme <;> cases hlexeme
      all_goals next hlower => rw [hlower]; rfl
  | _ => cases hlexeme

/-- No word is a literal. -/
theorem of_word_ne_literal (word : String) :
    (∀ literal, Lexeme.ofWord word ≠ .float literal) ∧
      (∀ literal, Lexeme.ofWord word ≠ .integer literal) ∧
      (∀ contents, Lexeme.ofWord word ≠ .string contents) ∧
      ∀ op, Lexeme.ofWord word ≠ .comparison op := by
  unfold Lexeme.ofWord
  split <;> exact ⟨nofun, nofun, nofun, nofun⟩

/-- A floating-point literal is written as it is. -/
theorem written_float (h : Written (.float literal) source) :
    source = literal.toList ∧ Token.IsFloat source := by
  generalize hlexeme : Lexeme.float literal = lexeme at h
  cases h with
  | word => exact absurd hlexeme.symm ((of_word_ne_literal _).1 _)
  | float hsource =>
      cases hlexeme
      exact ⟨String.toList_ofList.symm, hsource⟩
  | _ => cases hlexeme

/-- An integer literal is written as it is. -/
theorem written_integer (h : Written (.integer literal) source) :
    source = literal.toList ∧ Token.IsInteger source := by
  generalize hlexeme : Lexeme.integer literal = lexeme at h
  cases h with
  | word => exact absurd hlexeme.symm ((of_word_ne_literal _).2.1 _)
  | integer hsource =>
      cases hlexeme
      exact ⟨String.toList_ofList.symm, hsource⟩
  | _ => cases hlexeme

/-- A string literal is written between quotes. -/
theorem written_string (h : Written (.string contents) source) :
    source = '\'' :: (Text.doubleQuotes contents.toList ++ ['\'']) := by
  generalize hlexeme : Lexeme.string contents = lexeme at h
  cases h with
  | word => exact absurd hlexeme.symm ((of_word_ne_literal _).2.2.1 _)
  | string =>
      cases hlexeme
      rw [Text.quote, String.toList_ofList]
      rfl
  | _ => cases hlexeme

/-- A comparison is written as its symbol. -/
theorem written_comparison {op : Comparison} (h : Written (.comparison op) source) :
    source = op.symbol.toList := by
  generalize hlexeme : Lexeme.comparison op = lexeme at h
  cases h with
  | word => exact absurd hlexeme.symm ((of_word_ne_literal _).2.2.2 _)
  | comparison =>
      cases hlexeme
      rfl
  | _ => cases hlexeme

/-- Parentheses and signs are written as marks that are not blank. -/
theorem written_mark {lexeme : Lexeme} (h : Written lexeme source)
    (hmark : lexeme = .leftParen ∨ ∃ sign : Sign, lexeme = sign.lexeme) :
    ∃ c, source = [c] ∧ Text.isBlank c = false := by
  have hword (word : String) :
      ¬ (Lexeme.ofWord word = .leftParen ∨ ∃ sign : Sign, Lexeme.ofWord word = sign.lexeme) := by
    unfold Lexeme.ofWord
    rintro (hparen | ⟨_ | _, hsign⟩)
    · split at hparen <;> cases hparen
    · split at hsign <;> cases hsign
    · split at hsign <;> cases hsign
  cases h with
  | word => exact absurd hmark (hword _)
  | plus | minus | leftParen => exact ⟨_, rfl, by decide⟩
  | _ => rcases hmark with hparen | ⟨_ | _, hsign⟩ <;> contradiction

end Words

end MessageSelector
