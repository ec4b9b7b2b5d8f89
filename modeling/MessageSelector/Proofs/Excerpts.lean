import MessageSelector.Proofs.Faults.Leftmost
import MessageSelector.Proofs.Nesting.Surroundings
import MessageSelector.Proofs.Rewording

/-!
# Parts of a text as texts

A diagnostic quotes what a part of the text covers. `ReadsAs.excerpt` says that the quotation can be
read by itself: it is accepted with what the part means, it is no deeper than the text, and it stops
at the last character of the part, with no blanks behind it.
-/

namespace MessageSelector

open Lexeme (Written)

/-! ## Open strings -/

/-- An open string begins with a quote and takes all that is behind it. -/
theorem Lexeme.at_front_open {c : Char} {rest : List Char}
    (h : (atFront c rest).1 = .unclosedString) : c = '\'' ∧ (atFront c rest).2 = rest.length := by
  unfold atFront at h ⊢
  split at h
  · change ofWord _ = _ at h
    unfold ofWord at h
    split at h <;> cases h
  split at h
  · next hquote =>
      rw [if_neg ‹_›, if_pos hquote]
      unfold stringAt at h ⊢
      split at h
      · cases h
      · exact ⟨hquote, rfl⟩
  split at h
  · unfold numberAt at h
    split at h
    · cases h
    · split at h <;> cases h
  · unfold symbolAt at h
    split at h <;> cases h

section Open

variable {text : List Char} {token : Token} {tokens following : List Token}

/-- An open string goes from its quote to the end of the text, and nothing but the end follows. -/
theorem open_of_scan (h : Token.scan text = tokens ++ token :: following)
    (hopen : token.lexeme = .unclosedString) :
    ∃ front back stop, text = front ++ '\'' :: back ∧
      token.span = ⟨byteCount front, byteCount ('\'' :: back)⟩ ∧
      following = [⟨.endOfText, stop⟩] := by
  obtain ⟨front, c, rest, rfl, hlayout, hfrom⟩ :=
    Token.scan_at_token h (by rw [hopen]; nofun)
  rw [Token.scan_from_cons hlayout] at hfrom
  obtain ⟨rfl, hfollowing⟩ := List.cons.inj hfrom
  obtain ⟨rfl, htaken⟩ := Lexeme.at_front_open hopen
  have hskip := Token.scan_from_skip (byteCount front + '\''.utf8Size) rest []
  rw [List.append_nil] at hskip
  rw [htaken, hskip] at hfollowing
  refine ⟨front, rest, _, rfl, ?_, hfollowing.symm⟩
  rw [htaken, List.take_length, byte_count_cons]

/-- What another token follows is written out, unless it is stray. -/
theorem all_proper_of_followed {stop : Span}
    (hscan : Token.scan text = tokens ++ token :: following ++ [⟨.endOfText, stop⟩])
    (hstray : NoStray tokens) : AllProper tokens := by
  intro other hmem
  have hend : other.lexeme ≠ .endOfText :=
    Token.ne_end_of_mem hscan (List.mem_append_left _ hmem)
  obtain ⟨front, back, rfl⟩ := List.append_of_mem hmem
  refine ⟨hstray other hmem, fun hopen => ?_, hend⟩
  simp only [List.append_assoc, List.cons_append] at hscan
  obtain ⟨-, -, _, -, -, hlast⟩ := open_of_scan hscan hopen
  have hlength := congrArg List.length hlast
  simp only [List.length_append, List.length_cons, List.length_nil] at hlength
  omega

end Open

/-! ## Blanks -/

/-- No blank of any script is part of the mark of a word. -/
theorem not_word_mark_of_blank {c : Char} (h : Text.isBlank c = true) :
    Nesting.isWordMark c = false := by
  have hblocks : ∀ block ∈ (0x20, 0x20) :: (0x09, 0x0D) :: Text.blankBlocks,
      ∀ n < block.2 + 1 - block.1, Nesting.isWordMark (Char.ofNat (block.1 + n)) = false := by
    decide +kernel
  have hblock : ∃ block ∈ (0x20, 0x20) :: (0x09, 0x0D) :: Text.blankBlocks,
      block.1 ≤ c.toNat ∧ c.toNat ≤ block.2 := by
    unfold Text.isBlank at h
    split at h
    · rw [Bool.or_eq_true, decide_eq_true_eq] at h
      rcases h with rfl | h
      · exact ⟨_, List.mem_cons_self, by decide, by decide⟩
      · exact ⟨_, List.mem_cons_of_mem _ List.mem_cons_self, by simpa using h⟩
    · obtain ⟨block, hmem, hblock⟩ := List.any_eq_true.mp h
      exact ⟨block, List.mem_cons_of_mem _ (List.mem_cons_of_mem _ hmem), by simpa using hblock⟩
  obtain ⟨block, hmem, hfirst, hlast⟩ := hblock
  have hc := hblocks block hmem (c.toNat - block.1) (by omega)
  rwa [Nat.add_sub_cancel' hfirst, Char.ofNat_toNat] at hc

/-- What a word goes on with is no blank. -/
theorem not_blank_of_word_mark {c : Char} (h : Nesting.isWordMark c = true) :
    Text.isBlank c = false := by
  cases hblank : Text.isBlank c with
  | false => rfl
  | true =>
      rw [not_word_mark_of_blank hblank] at h
      cases h

/-- No character of a number is a blank. -/
theorem not_blank_of_number {text : List Char} (h : Nesting.IsNumberText false text) :
    ∀ c ∈ text, Text.isBlank c = false := by
  intro c hmem
  rcases h.forall_mem c hmem with hletter | hmark
  · exact not_blank_of_word_mark (Nesting.number_letter_word_mark hletter).1
  · simp only [List.mem_cons, List.not_mem_nil, or_false] at hmark
    rcases hmark with rfl | rfl | rfl <;> rfl

/-- The text has a last character, which is no blank. -/
def EndsInInk (text : List Char) : Prop :=
  ∃ front c, text = front ++ [c] ∧ Text.isBlank c = false

/-- What ends in ink does so behind anything. -/
theorem EndsInInk.append {text : List Char} (h : EndsInInk text) (before : List Char) :
    EndsInInk (before ++ text) := by
  obtain ⟨front, c, rfl, hc⟩ := h
  exact ⟨before ++ front, c, (List.append_assoc _ _ _).symm, hc⟩

/-- A text without blanks ends in ink. -/
theorem ends_in_ink_of_all {text : List Char} (hne : text ≠ [])
    (h : ∀ c ∈ text, Text.isBlank c = false) : EndsInInk text :=
  ⟨text.dropLast, text.getLast hne, (List.dropLast_append_getLast hne).symm,
    h _ (List.getLast_mem hne)⟩

/-- Every lexeme is written with ink at its end. -/
theorem Lexeme.Written.ends_in_ink {lexeme : Lexeme} {source : List Char}
    (h : Written lexeme source) : EndsInInk source := by
  have hne := h.ne_nil
  cases h with
  | @word first rest hfirst hrest =>
      refine ends_in_ink_of_all hne (List.forall_mem_cons.mpr ⟨?_, fun c hmem => ?_⟩)
      · refine not_blank_of_word_mark (Nesting.is_word_mark_of_word_char ?_)
        rw [isWordChar, hfirst, Bool.true_or]
      · exact not_blank_of_word_mark
          (Nesting.is_word_mark_of_word_char (List.all_eq_true.mp hrest c hmem))
  | string contents =>
      rw [Text.quote, String.toList_ofList]
      exact ⟨_, '\'', rfl, by decide⟩
  | float hfloat =>
      exact ends_in_ink_of_all hne (not_blank_of_number (Nesting.is_number_text_float hfloat))
  | integer hinteger =>
      exact ends_in_ink_of_all hne (not_blank_of_number (Nesting.is_number_text_integer hinteger))
  | comparison op =>
      cases op with
      | equal | less | greater => exact ⟨[], _, rfl, rfl⟩
      | notEqual | lessOrEqual | greaterOrEqual => exact ⟨[_], _, rfl, rfl⟩
  | _ => exact ⟨[], _, rfl, rfl⟩

/-! ## Depth -/

namespace Nesting

/-- Behind a sign an operand is to come. -/
theorem expected_after_sign (depth : Depth) : (depth.after .sign).afterOperand = false := by
  unfold Depth.after
  dsimp only
  split
  · rfl
  · next hended => exact Bool.eq_false_iff.mpr hended

/-- Behind what an operand has to follow, it is still to come. -/
theorem expected_after_opening {lexeme : Lexeme} (h : lexeme.opens = true) (depth : Depth) :
    (depth.afterLexeme lexeme).afterOperand = false := by
  unfold Lexeme.opens at h
  split at h
  case h_2 | h_3 => exact expected_after_sign depth
  all_goals first
    | rfl
    | cases h

/-- Behind such tokens an operand is to come, and the depth is within the limit if theirs is. -/
theorem depth_behind_opening {before : List Token} (hopening : BehindOpening before)
    (hwithin : Depth.start.Within (before.map (·.lexeme))) :
    ∃ parens ahead, Depth.start.afterLexemes (before.map (·.lexeme)) = ⟨parens, ahead, false⟩ ∧
      parens.headD 0 + ahead ≤ limit := by
  rcases List.eq_nil_or_concat before with rfl | ⟨front, last, rfl⟩
  · exact ⟨[], 0, rfl, Nat.zero_le _⟩
  · rw [List.concat_eq_append] at hopening hwithin ⊢
    rw [List.map_append, Depth.within_append] at hwithin
    have hlast := hopening last List.getLast?_concat
    rw [List.map_append, Depth.after_lexemes_append]
    exact ⟨_, _, congrArg (Depth.mk _ _) (expected_after_opening hlast _), hwithin.2.1⟩

/-- The lexemes of a part nest by themselves if they do behind others that it has to follow. -/
theorem within_of_part {part : Phrase} {before inner : List Token} {more : List Lexeme}
    (hspells : Spells part inner) (hproper : AllProper inner) (hopening : BehindOpening before)
    (hwithin : Depth.start.Within
      (before.map (·.lexeme) ++ (inner.map (·.lexeme) ++ more))) :
    Depth.start.Within (inner.map (·.lexeme) ++ [.endOfText]) := by
  have hmeasures := measures_of_spells hspells hproper
  rw [Depth.within_append, Depth.within_append] at hwithin
  obtain ⟨hbefore, hinner, -⟩ := hwithin
  obtain ⟨parens, ahead, hdepth, hplace⟩ := depth_behind_opening hopening hbefore
  rw [hdepth] at hinner
  -- In the whole text there is no less around the part than there is by itself.
  have hshallow : part.Shallow .outermost :=
    ((hmeasures parens ahead 0).mp ⟨hplace, hinner⟩).mono (Surroundings.outermost_no_more_than _)
  rw [Depth.within_append, after_spells hspells hproper]
  exact ⟨((hmeasures [] 0 0).mpr hshallow).2, Nat.zero_le _, trivial⟩

end Nesting

/-! ## Excerpts -/

section Excerpts

variable {text source inner : List Char} {span other : Span} {whole part : Phrase} {e : Expr}

/-- What stands in a stretch and stops with it stands at its end. -/
theorem StandsAt.at_end (h : StandsAt text span source) (hinner : StandsAt text other inner)
    (hstart : span.start ≤ other.start) (hstop : other.stop = span.stop) :
    ∃ before, source = before ++ inner := by
  obtain ⟨front, back, rfl, rfl⟩ := h
  obtain ⟨front', back', htext, rfl⟩ := hinner
  obtain ⟨before, rfl, hbefore⟩ := append_of_byte_count_le htext hstart
  simp only [Span.stop, byte_count_append] at hstop
  rw [← List.append_assoc] at hbefore
  obtain ⟨rest, rfl, -⟩ := append_of_byte_count_le hbefore.symm (by
    rw [byte_count_append]
    omega)
  cases rest with
  | nil => exact ⟨before, List.append_nil _⟩
  | cons c rest =>
      have hsize := c.utf8Size_pos
      simp only [byte_count_append, byte_count_cons] at hstop
      omega

variable {ls ms rs : List Token} {stop : Span}

/-- Up to the end of a part with a meaning the tokens of a text are written out. -/
theorem Spells.proper_through_part
    (hscan : Token.scan text = ls ++ ms ++ rs ++ [⟨.endOfText, stop⟩])
    (hspells : Spells whole (ls ++ ms ++ rs)) (hms : Spells part ms)
    (hmeaning : part.meaning text = .ok e) : AllProper (ls ++ ms) := by
  refine (all_proper_append _ _).mpr ⟨?_, hms.all_proper hmeaning⟩
  have hstray := no_stray_of_spells hspells
  rw [no_stray_append, no_stray_append] at hstray
  obtain ⟨first, hfirst, -⟩ := Option.map_eq_some_iff.mp hms.start_eq
  obtain ⟨more, rfl⟩ := List.head?_eq_some_iff.mp hfirst
  rw [List.append_assoc ls] at hscan
  exact all_proper_of_followed hscan hstray.1.1

/-- A part stops behind its start. -/
theorem Spells.start_le_stop (hms : Spells part ms)
    (hsorted : (ls ++ ms ++ rs).Pairwise fun token next => token.span.stop ≤ next.span.start) :
    part.start ≤ part.stop := by
  obtain ⟨-, hplaces, -⟩ := hms.places hsorted
  obtain ⟨first, hfirst, -⟩ := Option.map_eq_some_iff.mp hms.start_eq
  obtain ⟨hle, hle'⟩ := hplaces first (List.mem_of_mem_head? hfirst)
  rw [Span.stop] at hle'
  omega

/-- A part stands where its tokens do, up to the end of the last one. -/
theorem Spells.stands (hscan : Token.scan text = ls ++ ms ++ rs ++ [⟨.endOfText, stop⟩])
    (hspells : Spells whole (ls ++ ms ++ rs)) (hms : Spells part ms) (hproper : AllProper ms) :
    ∃ source, StandsAt text part.span source ∧ EndsInInk source := by
  have hle := hms.start_le_stop (sorted_of_scan hscan)
  obtain ⟨first, hfirst, hstart⟩ := Option.map_eq_some_iff.mp hms.start_eq
  obtain ⟨last, hlast, hstop⟩ := Option.map_eq_some_iff.mp hms.stop_eq
  have hfirst := List.mem_of_mem_head? hfirst
  have hlast := List.mem_of_mem_getLast? hlast
  have hwhole {token : Token} (hmem : token ∈ ms) : token ∈ ls ++ ms ++ rs :=
    List.mem_append_left _ (List.mem_append_right _ hmem)
  have hbounded := bounded_of_scan hscan
  obtain ⟨source, hstands⟩ := stands_between (hstart ▸ (hbounded first (hwhole hfirst)).1)
    (hstop ▸ (hbounded last (hwhole hlast)).2) hle
  refine ⟨source, hstands, ?_⟩
  -- What stands there ends as the last token does.
  obtain ⟨written, hplace, hwritten⟩ := source_of_scan hscan (no_stray_of_spells hspells)
    (hwhole hlast) (hproper last hlast).2.1
  obtain ⟨-, hplaces, -⟩ := hms.places (sorted_of_scan hscan)
  obtain ⟨before, rfl⟩ := hstands.at_end hplace (hplaces last hlast).1 (by
    rw [hstop]
    exact (Nat.add_sub_cancel' hle).symm)
  exact hwritten.ends_in_ink.append before

/-- What stands where a part does is cut into the lexemes of the part. -/
theorem Spells.cut_part (hscan : Token.scan text = ls ++ ms ++ rs ++ [⟨.endOfText, stop⟩])
    (hspells : Spells whole (ls ++ ms ++ rs)) (hms : Spells part ms)
    (hmeaning : part.meaning text = .ok e) (hstands : StandsAt text part.span source) :
    Cut source (ms.map (·.lexeme)) [] := by
  have hstray : NoStray (rs ++ [⟨.endOfText, stop⟩]) := by
    have hstray := no_stray_of_spells hspells
    rw [no_stray_append] at hstray ⊢
    exact ⟨hstray.2, by simp⟩
  have hsorted := Token.scan_sorted text
  rw [hscan, List.append_assoc (ls ++ ms)] at hsorted
  obtain ⟨hplaceLs, hplaceMs, hplaceRs⟩ := hms.places hsorted
  have hle := hms.start_le_stop hsorted
  have hproper := hspells.proper_through_part hscan hms hmeaning
  obtain ⟨before, after, rfl, hspan⟩ := hstands
  obtain ⟨hstart, hlength⟩ := Span.mk.inj hspan
  have hstop : part.stop = byteCount (before ++ source) := by
    rw [byte_count_append, ← hstart, ← hlength, Nat.add_sub_cancel' hle]
  rw [← List.append_assoc, List.append_assoc (ls ++ ms)] at hscan
  rw [hstart] at hplaceLs
  rw [hstart, hstop] at hplaceMs
  rw [hstop] at hplaceRs
  obtain ⟨-, hcut, -⟩ := cut_in_two hscan hproper hstray hplaceLs hplaceMs hplaceRs
  have hbreaks : Breaks [] := trivial
  exact hcut.followed fun lexeme _ _ => hbreaks.ends lexeme

/-- What a part of a text covers is accepted by itself, with what the part means. It stops at the
last character of the part. -/
theorem ReadsAs.excerpt (h : ReadsAs text whole) (hpart : Part part whole)
    (hmeaning : part.meaning text = .ok e) :
    ∃ source, StandsAt text part.span source ∧ EndsInInk source ∧
      Expr.ofChars source = .ok (some e) := by
  obtain ⟨tokens, stop, hscan, hspells⟩ := h.spells
  obtain ⟨ls, ms, rs, rfl, hms, hopening⟩ := hspells.part_behind_opening hpart
  have hproper := hms.all_proper hmeaning
  obtain ⟨source, hstands, hink⟩ := hspells.stands hscan hms hproper
  refine ⟨source, hstands, hink, ?_⟩
  have hsource := hspells.cut_part hscan hms hmeaning hstands
  have hnesting := h.nesting
  rw [Nesting.too_deep_eq_none_iff hscan hspells, List.map_append, List.map_append,
    List.append_assoc, List.append_assoc] at hnesting
  refine (hms.said hmeaning hsource (alike_refl _)).of_chars ?_
  rw [(hms.denotes hmeaning).too_deep_eq_none_iff hsource]
  exact Nesting.within_of_part hms hproper hopening hnesting

end Excerpts

end MessageSelector
