import MessageSelector.Proofs.Grammar.CutShort
import MessageSelector.Proofs.Nesting.Balance

/-!
# Texts that end in an open string

An accepted text that is broken off inside one of its string literals is rejected. It is rejected
for the open string where nothing but the end of a list is awaited there. In parentheses, and in the
first bound of a range, more has to come before the text may end, and so the end of the text is what
it is rejected for.
-/

namespace MessageSelector

variable {u behind : List Char} {phrase : Phrase} {tokens others before after : List Token}
  {token : Token} {stop unclosed : Span} {contents : String}

/-- Tokens of the same lexemes come to await the same. -/
theorem Awaited.after_tokens_eq (awaited : List Awaited)
    (h : others.map (·.lexeme) = tokens.map (·.lexeme)) :
    afterTokens awaited others = afterTokens awaited tokens := by
  have hfold (tokens : List Token) :
      afterTokens awaited tokens = (tokens.map (·.lexeme)).foldl Awaited.after awaited := by
    rw [List.foldl_map]
    rfl
  rw [hfold, hfold, h]

/-- Tokens of the same lexemes are written out alike. -/
theorem all_proper_of_lexemes (h : others.map (·.lexeme) = tokens.map (·.lexeme))
    (hproper : AllProper tokens) : AllProper others := by
  intro other hmem
  have hlexeme : other.lexeme ∈ tokens.map (·.lexeme) := h ▸ List.mem_map_of_mem hmem
  obtain ⟨token, htoken, hsame⟩ := List.mem_map.mp hlexeme
  exact hsame ▸ hproper token htoken

/-- What is in front of a token of an accepted text is cut into the tokens before it. -/
theorem cut_in_front (hscan : Token.scan (u ++ behind) = before ++ token :: after)
    (hproper : AllProper before) (hstray : NoStray (token :: after))
    (hplace : token.span.start = byteCount u) : Cut u (before.map (·.lexeme)) behind := by
  have hsorted := Token.scan_sorted (u ++ behind)
  rw [hscan, List.pairwise_append, List.pairwise_cons] at hsorted
  obtain ⟨-, ⟨hlater, -⟩, hearlier⟩ := hsorted
  refine (cut_of_scan hscan hproper hstray (fun other hmem => ?_) fun other hmem => ?_).1
  · have hle := hearlier other hmem token List.mem_cons_self
    omega
  · rcases List.mem_cons.mp hmem with rfl | hmem
    · omega
    · have hle := hlater other hmem
      rw [Span.stop] at hle
      omega

/-- An open string in place of a closed one makes a text no deeper. -/
theorem too_deep_of_open {text other : List Char}
    (htokens : Token.scan text = tokens ++ [⟨.endOfText, stop⟩]) (hspells : Spells phrase tokens)
    (hsplit : tokens = before ++ token :: after) (hstring : token.lexeme = .string contents)
    (hother : Token.lexemes other = before.map (·.lexeme) ++ [.unclosedString, .endOfText])
    (hnesting : Nesting.tooDeep? text = none) : Nesting.tooDeep? other = none := by
  have hstray := no_stray_of_spells hspells
  rw [Nesting.too_deep_eq_none_iff htokens hspells, hsplit, List.map_append, List.append_assoc,
    Nesting.Depth.within_append, List.map_cons, hstring] at hnesting
  obtain ⟨hbefore, hlevels, -⟩ := hnesting
  refine (Nesting.within_text_iff other (Nat.zero_le _) ?_).mpr ?_
  · rw [hsplit, no_stray_append] at hstray
    intro c hmem
    rw [hother, List.mem_append] at hmem
    rcases hmem with hmem | hmem
    · obtain ⟨token, htoken, hlexeme⟩ := List.mem_map.mp hmem
      exact hstray.1 token htoken c hlexeme
    · simp at hmem
  · rw [hother, Nesting.Depth.within_append]
    exact ⟨hbefore, hlevels, hlevels, trivial⟩

/-- The tokens of a text that ends in an open string, when those in front of it are known. -/
theorem scan_open (h : Cut u (before.map (·.lexeme)) behind) (hhead : behind.head? = some '\'')
    (contents : List Char) : ∃ others stop, others.map (·.lexeme) = before.map (·.lexeme) ∧
      Token.scan (u ++ '\'' :: Text.doubleQuotes contents) = others ++
        [⟨.unclosedString, ⟨byteCount u, byteCount ('\'' :: Text.doubleQuotes contents)⟩⟩,
          ⟨.endOfText, stop⟩] := by
  have hcut : Cut u (before.map (·.lexeme)) ('\'' :: Text.doubleQuotes contents) := by
    refine h.followed fun lexeme _ hends => ?_
    rwa [Lexeme.Ends, hhead] at hends
  obtain ⟨others, hlexemes, hscan⟩ := Token.scan_from_cut hcut 0
  rw [Nat.zero_add, Token.scan_from_open] at hscan
  exact ⟨others, _, hlexemes, hscan⟩

/-- What a text in front of a string literal awaits is told by its tokens. -/
theorem awaited_in_front (h : Cut u (before.map (·.lexeme)) behind)
    (hlexemes : others.map (·.lexeme) = before.map (·.lexeme)) :
    Awaited.afterTokens [] (Token.scan u) = Awaited.afterTokens [] others := by
  have hcut : Cut u (before.map (·.lexeme)) [] := h.followed fun lexeme _ _ => rfl
  obtain ⟨tokens, stop, hscan, htokens⟩ := hcut.scanned
  rw [hscan, Awaited.after_tokens_append, Awaited.after_tokens_eq [] (htokens.trans hlexemes.symm)]
  rfl

/-- No text is read that ends in an open string where more than the end of a list is awaited. -/
theorem of_tokens_open_error {text : List Char} (hproper : AllProper others)
    (hscan : Token.scan text = others ++ [⟨.unclosedString, unclosed⟩, ⟨.endOfText, stop⟩])
    (hmore : ¬ OnlyLists (Awaited.afterTokens [] others)) :
    ∃ furthest, Phrase.ofTokens (Token.scan text) = .error furthest := by
  rw [List.append_cons] at hscan
  refine Phrase.not_read_of_not_spelled hscan (List.concat_ne_nil _ _) fun phrase hspells => ?_
  obtain ⟨new, hnew, honly⟩ := leaves_of_spells hspells rfl hproper (Awaited.admits_nil _)
  rw [List.append_nil] at hnew
  exact absurd (hnew ▸ honly) hmore

/-- The outcome of breaking an accepted text off inside a string literal. -/
theorem of_chars_open {e : Expr} (haccepted : Expr.ofChars (u ++ '\'' :: behind) = .ok (some e))
    (hmem : token ∈ Token.scan (u ++ '\'' :: behind)) (hplace : token.span.start = byteCount u)
    (hstring : token.lexeme = .string contents) (w : List Char) :
    (OnlyLists (Awaited.afterTokens [] (Token.scan u)) →
      Expr.ofChars (u ++ '\'' :: Text.doubleQuotes w) = .error (.unterminatedString
        ⟨byteCount u, byteCount ('\'' :: Text.doubleQuotes w)⟩)) ∧
    (¬ OnlyLists (Awaited.afterTokens [] (Token.scan u)) →
      ∃ position expected, Expr.ofChars (u ++ '\'' :: Text.doubleQuotes w) =
        .error (.unexpected position expected)) := by
  obtain ⟨hnesting, phrase, tokens, stop, hscan, hspells, hmeaning⟩ := Expr.of_chars_ok haccepted
  have hproper := hspells.all_proper hmeaning
  have hstray := no_stray_of_spells hspells
  rw [hscan, List.mem_append] at hmem
  have htoken : token ∈ tokens := hmem.resolve_right fun hend => by
    cases List.mem_singleton.mp hend
    cases hstring
  obtain ⟨before, after, rfl⟩ := List.append_of_mem htoken
  rw [all_proper_append] at hproper
  rw [no_stray_append] at hstray
  have hcut := cut_in_front ((hscan.trans (List.append_assoc _ _ _))) hproper.1
    (by simpa using hstray.2) hplace
  obtain ⟨others, stop', hothers, hopen⟩ := scan_open hcut rfl w
  have hdepth : Nesting.tooDeep? (u ++ '\'' :: Text.doubleQuotes w) = none := by
    refine too_deep_of_open hscan hspells rfl hstring ?_ hnesting
    rw [Token.lexemes, hopen, List.map_append, hothers]
    rfl
  rw [awaited_in_front hcut hothers]
  unfold Expr.ofChars
  rw [hdepth]
  constructor
  · intro honly
    -- The phrase is read again from the tokens that the other text has in its stead.
    have halike : AlikeTokens (before ++ token :: after) (others ++ token :: after) :=
      alike_of_lexemes (by simp [hothers])
    obtain ⟨phrase', hspells', hstands⟩ :=
      hspells.relocated (u ++ '\'' :: behind) (u ++ '\'' :: Text.doubleQuotes w) _ halike
    rcases leaves_or_ends hspells' (hstands.meaning hmeaning) rfl hstring
      ⟨byteCount u, byteCount ('\'' :: Text.doubleQuotes w)⟩ (Awaited.admits_nil _) with
      ⟨new, hnew, hmore⟩ | ⟨cut, hcutSpells, -, hfault⟩
    · rw [List.append_nil] at hnew
      exact absurd (hnew ▸ honly) hmore
    · have hread := Phrase.of_tokens_complete hcutSpells stop'
      rw [List.append_assoc, List.singleton_append] at hread
      simp only [hopen, hread, hfault]
      rfl
  · intro hmore
    have hothersProper : AllProper others := all_proper_of_lexemes hothers hproper.1
    obtain ⟨furthest, herror⟩ := of_tokens_open_error hothersProper hopen hmore
    rw [herror]
    exact ⟨_, _, rfl⟩

namespace Expr

/-- A string literal of an accepted text that is broken off inside is found to be open, from its
quote to the end of the text, if nothing but the end of a list is awaited in front of it. Otherwise
the text is rejected where it ends. -/
theorem parse_unclosed {u w z : String} {found : Option Expr}
    (hdoubled : ∃ contents, w.toList = Text.doubleQuotes contents)
    (haccepted : parse (u ++ "'" ++ w ++ "'" ++ z) = .ok found)
    (hopens : ∃ token ∈ Token.scan (u ++ "'" ++ w ++ "'" ++ z).toList,
      token.span.start = byteCount u.toList ∧ ∃ contents, token.lexeme = .string contents) :
    (OnlyLists (Awaited.afterTokens [] (Token.scan u.toList)) →
      parse (u ++ "'" ++ w) = .error ⟨u ++ "'" ++ w,
        .unterminatedString ⟨byteCount u.toList, byteCount ("'" ++ w).toList⟩⟩) ∧
    (¬ OnlyLists (Awaited.afterTokens [] (Token.scan u.toList)) →
      ∃ position expected, parse (u ++ "'" ++ w) = .error ⟨u ++ "'" ++ w,
        .unexpected position expected⟩) := by
  obtain ⟨contents, hcontents⟩ := hdoubled
  obtain ⟨token, hmem, hplace, inside, hstring⟩ := hopens
  have hopen : (u ++ "'" ++ w).toList = u.toList ++ '\'' :: Text.doubleQuotes contents := by
    simp [hcontents]
  have hclosed : (u ++ "'" ++ w ++ "'" ++ z).toList =
      u.toList ++ '\'' :: (w ++ "'" ++ z).toList := by
    simp
  have hquote : ("'" ++ w).toList = '\'' :: Text.doubleQuotes contents := by
    simp [hcontents]
  have hchars := of_parse_ok haccepted
  rw [hclosed] at hchars hmem
  cases found with
  | none =>
      obtain ⟨stop, hscan⟩ := of_chars_none hchars
      rw [hscan, List.mem_singleton] at hmem
      cases hmem ▸ hstring
  | some e =>
      obtain ⟨hlists, hmore⟩ := of_chars_open hchars hmem hplace hstring contents
      constructor
      · intro honly
        unfold parse
        rw [hopen, hlists honly, hquote]
        rfl
      · intro hrest
        obtain ⟨position, expected, herror⟩ := hmore hrest
        refine ⟨position, expected, ?_⟩
        unfold parse
        rw [hopen, herror]
        rfl

/-- The last string of a list is found to be open where it begins. -/
theorem parse_unclosed_item :
    parse "a IN ('x', 'it''s')" =
        .ok (some (.inList (.identifier "a") ["x", "it's"] false)) ∧
      parse "a IN ('x', 'it''s" =
        .error ⟨"a IN ('x', 'it''s", .unterminatedString ⟨11, 6⟩⟩ := by
  have haccepted : parse ("a IN ('x', " ++ "'" ++ "it''s" ++ "'" ++ ")") =
      .ok (some (.inList (.identifier "a") ["x", "it's"] false)) := by
    cbv
  have hopens : ∃ token ∈ Token.scan ("a IN ('x', " ++ "'" ++ "it''s" ++ "'" ++ ")").toList,
      token.span.start = byteCount "a IN ('x', ".toList ∧
        ∃ contents, token.lexeme = .string contents :=
    ⟨⟨.string "it's", ⟨11, 7⟩⟩, by decide +kernel, by decide +kernel, "it's", rfl⟩
  refine ⟨haccepted, (parse_unclosed ⟨"it's".toList, by decide⟩ haccepted hopens).1 ?_⟩
  have hlist : Awaited.afterTokens [] (Token.scan "a IN ('x', ".toList) = [.listEnd] := by
    decide +kernel
  rw [hlist]
  exact List.forall_mem_singleton.mpr rfl

/-- A string that is open in parentheses is not found to be: the text is rejected where it ends. -/
theorem parse_unclosed_in_parentheses :
    parse "(a = 'x')" =
        .ok (some (.comparison .equal (.identifier "a") (.literal (.string "x")))) ∧
      ⟨.string "x", ⟨5, 3⟩⟩ ∈ Token.scan "(a = 'x')".toList ∧
      parse "(a = 'x" = .error ⟨"(a = 'x",
        .unexpected 7 [.add, .subtract, .multiply, .divide, .or, .and]⟩ := by
  refine ⟨?_, by decide +kernel, ?_⟩
  · cbv
  · cbv

end Expr

end MessageSelector
