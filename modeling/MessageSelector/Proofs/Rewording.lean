import Mathlib.Logic.Relation
import MessageSelector.Proofs.Parts
import MessageSelector.Proofs.Texts

/-!
# Texts that differ in layout, case and parentheses

An `Edit` changes the layout between two tokens of a text, the case of a word or number, or the
parentheses around a part. `Says.edited` is the step: a text says after an edit what it said before.
So texts that edits lead to are accepted with the same expression, unless they nest too deep.
-/

namespace MessageSelector

/-- One change of a text that leaves what it says. -/
inductive Edit : List Char → List Char → Prop where
  /-- Layout between two tokens, or at either end, is put there or takes the place of other
  layout. -/
  | layout {before gap gap' after} :
      (∀ token ∈ Token.scan (before ++ gap ++ after),
        token.span.stop ≤ byteCount before ∨ byteCount (before ++ gap) ≤ token.span.start) →
      gap.all isLayout = true → gap'.all isLayout = true → gap' ≠ [] →
      Edit (before ++ gap ++ after) (before ++ gap' ++ after)
  /-- The ASCII letters of a keyword, a boolean literal or a number change their case. -/
  | letters {before source source' after lexeme} :
      ⟨lexeme, ⟨byteCount before, byteCount source⟩⟩ ∈ Token.scan (before ++ source ++ after) →
      lexeme.anyCase = true → SameLetters source source' →
      Edit (before ++ source ++ after) (before ++ source' ++ after)
  /-- A part of the text that means something by itself is put in parentheses. Every subtree of
  what the text means is the meaning of such a part. -/
  | parentheses {before source after phrase part meant} :
      Phrase.ofTokens (Token.scan (before ++ source ++ after)) = .ok (some phrase) →
      Part part phrase → part.meaning (before ++ source ++ after) = .ok meant →
      part.start = byteCount before → part.stop = byteCount (before ++ source) →
      Edit (before ++ source ++ after) (before ++ ('(' :: source ++ [')']) ++ after)

/-! ## Places in a text -/

variable {text other before source after : List Char} {tokens ls ms rs : List Token} {stop : Span}
  {e : Expr}

/-- Tokens in order, each in front of a gap or behind it, are those in front of it and then those
behind it. -/
theorem split_at_gap {start stop : Nat}
    (hsorted : tokens.Pairwise fun token next => token.span.stop ≤ next.span.start)
    (h : ∀ token ∈ tokens, token.span.stop ≤ start ∨ stop ≤ token.span.start) :
    ∃ ls rs, tokens = ls ++ rs ∧ (∀ token ∈ ls, token.span.stop ≤ start) ∧
      ∀ token ∈ rs, stop ≤ token.span.start := by
  induction tokens with
  | nil => exact ⟨[], [], rfl, nofun, nofun⟩
  | cons token tokens ih =>
      obtain ⟨hfirst, hsorted⟩ := List.pairwise_cons.mp hsorted
      obtain ⟨hplace, h⟩ := List.forall_mem_cons.mp h
      rcases hplace with hbefore | hbehind
      · obtain ⟨ls, rs, rfl, hls, hrs⟩ := ih hsorted h
        exact ⟨token :: ls, rs, rfl, List.forall_mem_cons.mpr ⟨hbefore, hls⟩, hrs⟩
      · refine ⟨[], token :: tokens, rfl, nofun, List.forall_mem_cons.mpr ⟨hbehind, ?_⟩⟩
        intro next hnext
        have hle := hfirst next hnext
        rw [Span.stop] at hle
        omega

/-- The front of a text is cut in two where no token stands on both sides of a place. -/
theorem cut_in_two (htokens : Token.scan (before ++ source ++ after) = ls ++ ms ++ rs)
    (hproper : AllProper (ls ++ ms)) (hstray : NoStray rs)
    (hls : ∀ token ∈ ls, token.span.stop ≤ byteCount before)
    (hms : ∀ token ∈ ms, byteCount before ≤ token.span.start ∧
      token.span.stop ≤ byteCount (before ++ source))
    (hrs : ∀ token ∈ rs, byteCount (before ++ source) ≤ token.span.start) :
    Cut before (ls.map (·.lexeme)) (source ++ after) ∧ Cut source (ms.map (·.lexeme)) after ∧
      Token.scanFrom [] (byteCount (before ++ source)) 0 after = rs := by
  obtain ⟨hproperLs, hproperMs⟩ := (all_proper_append _ _).mp hproper
  have hstrayMs : NoStray ms := fun token hmem => (hproperMs token hmem).1
  rw [byte_count_append] at hms hrs ⊢
  rw [List.append_assoc, List.append_assoc] at htokens
  obtain ⟨hcutBefore, hscan⟩ := cut_of_scan htokens hproperLs
    ((no_stray_append _ _).mpr ⟨hstrayMs, hstray⟩)
    (fun token hmem => by rw [Nat.zero_add]; exact hls token hmem) fun token hmem => by
      rcases List.mem_append.mp hmem with hmem | hmem
      · have hle := (hms token hmem).1
        omega
      · have hle := hrs token hmem
        omega
  rw [Nat.zero_add] at hscan
  obtain ⟨hcutSource, hscan⟩ := cut_of_scan hscan hproperMs hstray
    (fun token hmem => (hms token hmem).2) hrs
  exact ⟨hcutBefore, hcutSource, hscan⟩

/-- A text is cut in three where no token stands on both sides of a place. -/
theorem cut_in_three
    (htokens : Token.scan (before ++ source ++ after) =
      ls ++ ms ++ rs ++ [⟨.endOfText, stop⟩])
    (hproper : AllProper (ls ++ ms ++ rs))
    (hls : ∀ token ∈ ls, token.span.stop ≤ byteCount before)
    (hms : ∀ token ∈ ms, byteCount before ≤ token.span.start ∧
      token.span.stop ≤ byteCount (before ++ source))
    (hrs : ∀ token ∈ rs, byteCount (before ++ source) ≤ token.span.start) :
    Cut before (ls.map (·.lexeme)) (source ++ after) ∧ Cut source (ms.map (·.lexeme)) after ∧
      Cut after (rs.map (·.lexeme)) [] := by
  obtain ⟨hproperFront, hproperRs⟩ := (all_proper_append _ _).mp hproper
  have hend : byteCount (before ++ source) ≤ stop.start := by
    have hlast := Token.last_of_scan (before ++ source ++ after)
    rw [htokens, List.getLast?_concat] at hlast
    cases hlast
    simp
  have hstray : NoStray (rs ++ [⟨.endOfText, stop⟩]) :=
    (no_stray_append _ _).mpr ⟨fun token hmem => (hproperRs token hmem).1, by simp⟩
  rw [List.append_assoc (ls ++ ms)] at htokens
  obtain ⟨hcutBefore, hcutSource, hscan⟩ := cut_in_two htokens hproperFront hstray hls hms
    (List.forall_mem_append.mpr ⟨hrs, List.forall_mem_singleton.mpr hend⟩)
  exact ⟨hcutBefore, hcutSource, cut_to_end hscan hproperRs⟩

/-- The tokens of a text are in order. -/
theorem sorted_of_scan {last : Token} (htokens : Token.scan text = tokens ++ [last]) :
    tokens.Pairwise fun token next => token.span.stop ≤ next.span.start := by
  have hsorted := Token.scan_sorted text
  rw [htokens] at hsorted
  exact (List.pairwise_append.mp hsorted).1

/-- The tokens of a part stand from its start to its stop, and the others do not. -/
theorem Spells.places {part : Phrase} (h : Spells part ms)
    (hsorted : (ls ++ ms ++ rs).Pairwise fun token next => token.span.stop ≤ next.span.start) :
    (∀ token ∈ ls, token.span.stop ≤ part.start) ∧
      (∀ token ∈ ms, part.start ≤ token.span.start ∧ token.span.stop ≤ part.stop) ∧
      ∀ token ∈ rs, part.stop ≤ token.span.start := by
  obtain ⟨first, hfirst, hstart⟩ := Option.map_eq_some_iff.mp h.start_eq
  obtain ⟨last, hlast, hstop⟩ := Option.map_eq_some_iff.mp h.stop_eq
  obtain ⟨hinner, -, hrs⟩ := List.pairwise_append.mp hsorted
  obtain ⟨-, hms, hls⟩ := List.pairwise_append.mp hinner
  rw [← hstart, ← hstop]
  refine ⟨fun token hmem => hls token hmem first (List.mem_of_head? hfirst), fun token hmem => ?_,
    fun token hmem => hrs last ?_ token hmem⟩
  · constructor
    · obtain ⟨more, rfl⟩ := List.head?_eq_some_iff.mp hfirst
      rcases List.mem_cons.mp hmem with rfl | hmem
      · exact Nat.le_refl _
      · exact Nat.le_trans (Nat.le_add_right _ _) ((List.pairwise_cons.mp hms).1 token hmem)
    · obtain ⟨front, rfl⟩ := List.getLast?_eq_some_iff.mp hlast
      rcases List.mem_append.mp hmem with hmem | hmem
      · have hle := (List.pairwise_append.mp hms).2.2 token hmem last (List.mem_singleton_self last)
        exact Nat.le_trans hle (Nat.le_add_right _ _)
      · rw [List.mem_singleton.mp hmem]
  · exact List.mem_append_right _ (List.mem_of_getLast? hlast)

/-- Like lexemes are like one another. -/
theorem alike_refl (ls : List Lexeme) : List.Forall₂ Lexeme.Alike ls ls :=
  List.forall₂_same.mpr fun lexeme _ => .same lexeme

/-! ## Edits -/

/-- Other layout between two tokens leaves what a text says. -/
theorem Says.with_layout {gap gap' : List Char} (h : Says (before ++ gap ++ after) e)
    (hplace : ∀ token ∈ Token.scan (before ++ gap ++ after),
      token.span.stop ≤ byteCount before ∨ byteCount (before ++ gap) ≤ token.span.start)
    (hgap' : gap'.all isLayout = true) (hne : gap' ≠ []) : Says (before ++ gap' ++ after) e := by
  obtain ⟨phrase, tokens, stop, htokens, hspells, hmeaning⟩ := h
  obtain ⟨ls, rs, rfl, hls, hrs⟩ := split_at_gap (sorted_of_scan htokens)
    fun token hmem => hplace token (by rw [htokens]; exact List.mem_append_left _ hmem)
  have hproper := hspells.all_proper hmeaning
  rw [← List.append_nil ls] at htokens hproper
  obtain ⟨hcutBefore, -, hcutAfter⟩ := cut_in_three htokens hproper hls nofun hrs
  have hbreaks : Breaks (gap' ++ after) := by
    obtain ⟨c, rest, rfl⟩ := List.exists_cons_of_ne_nil hne
    rw [List.all_cons, Bool.and_eq_true] at hgap'
    exact .inl hgap'.1
  have hcut := (hcutBefore.followed fun lexeme _ _ => hbreaks.ends lexeme).append_last
    ((cut_layout hgap' after).append_last hcutAfter)
  rw [← List.append_assoc] at hcut
  refine hspells.said hmeaning hcut ?_
  rw [List.map_append]
  exact alike_refl _

/-- A stretch of lexemes that may be written in any case is cut into like ones in either case. -/
theorem Cut.recased {ls : List Lexeme} (h : Cut source ls after)
    (hcase : ∀ lexeme ∈ ls, lexeme.anyCase = true) {source' : List Char}
    (hsame : SameLetters source source') :
    ∃ ls', Cut source' ls' after ∧ List.Forall₂ Lexeme.Alike ls ls' := by
  induction h generalizing source' with
  | nil back =>
      rw [SameLetters.nil_iff.mp hsame]
      exact ⟨[], .nil back, .nil⟩
  | layout hc _ ih =>
      obtain ⟨c', front', rfl, hc', hfront⟩ := SameLetters.cons_iff.mp hsame
      obtain ⟨ls', hcut, halike⟩ := ih hcase hfront
      refine ⟨ls', .layout ?_ hcut, halike⟩
      rw [← kind_eq (p := isLayout) (by decide) hc', hc]
  | @lexeme lexeme source front ls back hwritten hends _ ih =>
      obtain ⟨written, front', rfl, hwritten', hfront⟩ := SameLetters.append_iff.mp hsame
      obtain ⟨hfirst, hcase⟩ := List.forall_mem_cons.mp hcase
      obtain ⟨lexeme', hlexeme, halike, hgoesOn⟩ := hwritten.recased hfirst hwritten'
      obtain ⟨ls', hcut, hmore⟩ := ih hcase hfront
      refine ⟨lexeme' :: ls', .lexeme hlexeme ?_ hcut, .cons halike hmore⟩
      have hother := hends.recased (SameLetters.append_iff.mpr ⟨front', back, rfl, hfront, rfl⟩)
      unfold Lexeme.Ends at hother ⊢
      rwa [hgoesOn]

/-- Words and numbers in other cases leave what a text says. -/
theorem Says.with_letters {source' : List Char} {lexeme : Lexeme}
    (h : Says (before ++ source ++ after) e)
    (htoken : ⟨lexeme, ⟨byteCount before, byteCount source⟩⟩ ∈
      Token.scan (before ++ source ++ after))
    (hcase : lexeme.anyCase = true) (hsame : SameLetters source source') :
    Says (before ++ source' ++ after) e := by
  obtain ⟨phrase, tokens, stop, htokens, hspells, hmeaning⟩ := h
  rw [htokens, List.mem_append, List.mem_singleton] at htoken
  have hmem : ⟨lexeme, ⟨byteCount before, byteCount source⟩⟩ ∈ tokens :=
    htoken.resolve_right fun hend => by
      cases hend
      cases hcase
  obtain ⟨ls, rs, rfl⟩ := List.mem_iff_append.mp hmem
  have hproper := hspells.all_proper hmeaning
  have hsorted := sorted_of_scan htokens
  rw [List.pairwise_append, List.pairwise_cons] at hsorted
  obtain ⟨-, ⟨hrs, -⟩, hls⟩ := hsorted
  rw [List.append_cons ls] at htokens hproper
  obtain ⟨hcutBefore, hcutSource, hcutAfter⟩ := cut_in_three htokens hproper
    (fun token hmem => hls token hmem _ List.mem_cons_self)
    (List.forall_mem_singleton.mpr ⟨Nat.le_refl _, (byte_count_append _ _).ge⟩)
    fun token hmem => (byte_count_append _ _).trans_le (hrs token hmem)
  obtain ⟨ms, hcutSource', halike⟩ :=
    hcutSource.recased (List.forall_mem_singleton.mpr hcase) hsame
  have hfollowing : SameLetters (source ++ after) (source' ++ after) :=
    SameLetters.append_iff.mpr ⟨source', after, rfl, hsame, rfl⟩
  have hcut := (hcutBefore.followed fun lexeme _ hends => hends.recased hfollowing).append_last
    (hcutSource'.append_last hcutAfter)
  rw [← List.append_assoc] at hcut
  refine hspells.said hmeaning hcut ?_
  rw [List.map_append]
  exact List.rel_append (alike_refl _) (List.rel_append halike (alike_refl _))

/-- Parentheses around a part leave what a text says. -/
theorem Says.with_parentheses {phrase part : Phrase} {meant : Expr}
    (h : Says (before ++ source ++ after) e)
    (hphrase : Phrase.ofTokens (Token.scan (before ++ source ++ after)) = .ok (some phrase))
    (hpart : Part part phrase) (hmeant : part.meaning (before ++ source ++ after) = .ok meant)
    (hstart : part.start = byteCount before) (hstop : part.stop = byteCount (before ++ source)) :
    Says (before ++ ('(' :: source ++ [')']) ++ after) e := by
  obtain ⟨whole, tokens, stop, htokens, hspells, hmeaning⟩ := h
  rw [htokens, Phrase.of_tokens_complete hspells stop] at hphrase
  cases hphrase
  obtain ⟨ls, ms, rs, rfl, hms, hreplace⟩ :=
    hspells.place_of_part (before ++ source ++ after) hpart
  obtain ⟨hplaceLs, hplaceMs, hplaceRs⟩ := hms.places (sorted_of_scan htokens)
  rw [hstart] at hplaceLs
  rw [hstart, hstop] at hplaceMs
  rw [hstop] at hplaceRs
  obtain ⟨hcutBefore, hcutSource, hcutAfter⟩ :=
    cut_in_three htokens (hspells.all_proper hmeaning) hplaceLs hplaceMs hplaceRs
  -- The part is spelled in parentheses in its place, and then the whole in the other text.
  have hgroup : Phrase.Stands (before ++ source ++ after) (before ++ source ++ after) part
      (.group default part default) :=
    Phrase.stands_of_ok hmeant hmeant (Expr.Binding.rank_le_primary _)
  obtain ⟨phrase', hspells', hstands⟩ := hreplace _ _ (.group default default hms) hgroup
  have hopen : Breaks ('(' :: source ++ [')'] ++ after) := .inr (by simp)
  have hcut := (hcutBefore.followed fun lexeme _ _ => hopen.ends lexeme).append_last
    ((hcutSource.group after).append_last hcutAfter)
  rw [← List.append_assoc] at hcut
  refine hspells'.said (hstands.meaning hmeaning) hcut ?_
  rw [List.map_append, List.map_append, List.map_append, List.map_cons, List.append_assoc]
  exact alike_refl _

/-- An edit of a text leaves what it says. -/
theorem Says.edited (h : Says text e) (hedit : Edit text other) : Says other e := by
  cases hedit with
  | layout hplace _ hgap' hne => exact h.with_layout hplace hgap' hne
  | letters htoken hcase hsame => exact h.with_letters htoken hcase hsame
  | parentheses hphrase hpart hmeant hstart hstop =>
      exact h.with_parentheses hphrase hpart hmeant hstart hstop

/-- Edits one after the other leave what a text says. -/
theorem Says.edits (h : Says text e) (hedits : Relation.ReflTransGen Edit text other) :
    Says other e := by
  induction hedits with
  | refl => exact h
  | tail _ hedit ih => exact ih.edited hedit

namespace Expr

/-- Layout, the case of words and numbers, and parentheses around parts do not matter: whatever
text edits lead to is accepted with the same expression, unless it nests too deep. -/
theorem parse_of_edits {text other : String} {e : Expr} (h : parse text = .ok (some e))
    (hedits : Relation.ReflTransGen Edit text.toList other.toList)
    (hnesting : Nesting.tooDeep? other.toList = none) : parse other = .ok (some e) :=
  (parse_ok_iff _ _).mpr ⟨hnesting, ((parse_ok_iff _ _).mp h).2.edits hedits⟩

/-- A tab for a space, a word in capitals and parentheses around a name change nothing. -/
theorem parse_of_edits_null :
    parse "a is null" = .ok (some (.isNull (.identifier "a") false)) ∧
      Relation.ReflTransGen Edit "a is null".toList "(a)\tIS null".toList ∧
      parse "(a)\tIS null" = .ok (some (.isNull (.identifier "a") false)) := by
  have hparse : parse "a is null" = .ok (some (.isNull (.identifier "a") false)) := by
    cbv
  have htab : Edit ("a".toList ++ " ".toList ++ "is null".toList)
      ("a".toList ++ "\t".toList ++ "is null".toList) :=
    .layout (by decide +kernel) (by decide) (by decide) (by decide)
  have hword : (⟨.keyword .is, ⟨2, 2⟩⟩ : Token) ∈
      Token.scan ("a\t".toList ++ "is".toList ++ " null".toList) := by
    decide +kernel
  have hcapitals : Edit ("a\t".toList ++ "is".toList ++ " null".toList)
      ("a\t".toList ++ "IS".toList ++ " null".toList) :=
    .letters hword rfl (by decide)
  have hphrase : Phrase.ofTokens (Token.scan ("".toList ++ "a".toList ++ "\tIS null".toList)) =
      .ok (some (.isNull (.identifier ⟨0, 1⟩ "a") ⟨5, 4⟩ false)) := by
    cbv
  have hparentheses : Edit ("".toList ++ "a".toList ++ "\tIS null".toList)
      ("".toList ++ ('(' :: "a".toList ++ [')']) ++ "\tIS null".toList) :=
    .parentheses hphrase (part_of_child List.mem_cons_self) rfl rfl rfl
  have hedits := ((Relation.ReflTransGen.single htab).tail hcapitals).tail hparentheses
  exact ⟨hparse, hedits, parse_of_edits hparse hedits (by decide +kernel)⟩

end Expr

end MessageSelector
