import MessageSelector.Proofs.Composition
import MessageSelector.Proofs.Faults.Shifting

/-!
# The leftmost fault

Two texts that follow the grammar are joined by a connective to a text that follows it too, but not
always to a phrase of their phrases: where the connective binds tighter than what stands beside it,
it takes only a part of it. `SpellsInTurn` is what stays whatever the grouping: the fault of the
joined phrase is the first of the faults of the two. Read `parse_leftmost_fault` for what this makes
of the rejection of joined texts.
-/

namespace MessageSelector

open MessageSelector.Expr (Binding)

/-! ## Faults of phrases -/

namespace Phrase

variable {text : List Char} {whole left right : Phrase}

/-- The fault that keeps a phrase from having a meaning, if there is one. -/
def fault? (text : List Char) (phrase : Phrase) : Option Fault :=
  match phrase.meaning text with
  | .ok _ => none
  | .error fault => some fault

/-- The fault of a phrase is what its meaning fails with. -/
theorem fault_eq_some_iff (phrase : Phrase) (fault : Fault) :
    phrase.fault? text = some fault ↔ phrase.meaning text = .error fault := by
  unfold fault?
  cases phrase.meaning text <;> simp

/-- A phrase without a fault has a meaning. -/
theorem fault_eq_none_iff (phrase : Phrase) :
    phrase.fault? text = none ↔ ∃ e, phrase.meaning text = .ok e := by
  unfold fault?
  cases phrase.meaning text <;> simp

/-- Of a phrase that is made of two by their meanings the first fault counts. -/
theorem fault_of_two {make : Expr → Expr → Expr}
    (h : whole.meaning text = do return make (← left.meaning text) (← right.meaning text)) :
    whole.fault? text = (left.fault? text).or (right.fault? text) := by
  unfold fault?
  rw [h]
  cases left.meaning text with
  | error fault => rfl
  | ok => cases right.meaning text <;> rfl

variable (text left right)

theorem fault_and : (and left right).fault? text = (left.fault? text).or (right.fault? text) :=
  fault_of_two rfl

theorem fault_or : (or left right).fault? text = (left.fault? text).or (right.fault? text) :=
  fault_of_two rfl

end Phrase

/-- A phrase in a longer text has the fault that it has in its own, as far behind as the text. -/
theorem Spells.fault_shift {phrase : Phrase} {tokens : List Token} {text : List Char}
    (h : Spells phrase tokens) (hbounded : Bounded text tokens) (front back : List Char) :
    (phrase.shift (byteCount front)).fault? (front ++ (text ++ back)) =
      (phrase.fault? text).map (·.shift (byteCount front)) := by
  unfold Phrase.fault?
  rw [h.meaning_shift hbounded]
  cases phrase.meaning text <;> rfl

/-! ## Phrases joined -/

/-- The tokens spell a phrase that binds as tightly as demanded and has the first of the faults of
two phrases. -/
def SpellsInTurn (demanded : Binding) (first second : Phrase) (tokens : List Token) : Prop :=
  ∃ whole, Spells whole tokens ∧ demanded.rank ≤ whole.binding.rank ∧
    ∀ text, whole.fault? text = (first.fault? text).or (second.fault? text)

section Joining

variable {first second : Phrase} {demanded : Binding} {ts us tokens front : List Token}

/-- What is no disjunction binds at least as tightly as a conjunction. -/
theorem and_rank_le {phrase : Phrase} (h : ∀ left right, phrase ≠ .or left right) :
    Binding.and.rank ≤ phrase.binding.rank := by
  cases phrase with
  | or left right => exact absurd rfl (h left right)
  | arithmetic op => cases op <;> exact Nat.le_of_ble_eq_true rfl
  | _ => exact Nat.le_of_ble_eq_true rfl

/-- What is neither a disjunction nor a conjunction binds at least as tightly as a negation. -/
theorem not_rank_le {phrase : Phrase} (htight : Binding.and.rank ≤ phrase.binding.rank)
    (h : ∀ left right, phrase ≠ .and left right) : Binding.not.rank ≤ phrase.binding.rank := by
  cases phrase with
  | and left right => exact absurd rfl (h left right)
  | or => exact absurd htight (Nat.not_le_of_gt Nat.zero_lt_one)
  | arithmetic op => cases op <;> exact Nat.le_of_ble_eq_true rfl
  | _ => exact Nat.le_of_ble_eq_true rfl

/-- What binds tightly binds loosely enough. -/
theorem SpellsInTurn.loosen (h : SpellsInTurn demanded first second tokens) :
    SpellsInTurn .or first second tokens := by
  obtain ⟨whole, hspells, -, hfault⟩ := h
  exact ⟨whole, hspells, Nat.zero_le _, hfault⟩

/-- Conjunctions side by side are one conjunction. It is the members of the second one that are
added one by one, since AND groups to the left. -/
theorem spells_in_turn_conjunctions (hfirst : Spells first ts) (hsecond : Spells second us)
    (htight : Binding.and.rank ≤ first.binding.rank)
    (htight' : Binding.and.rank ≤ second.binding.rank) (word : Span) :
    SpellsInTurn .and first second (ts ++ ⟨.keyword .and, word⟩ :: us) := by
  induction second generalizing us with
  | and left right ih _ =>
      cases hsecond with
      | and word' hleft hright hrank hrank' =>
          obtain ⟨whole, hspells, hwhole, hfault⟩ := ih hleft hrank
          refine ⟨.and whole right, ?_, Nat.le_refl _, fun text => ?_⟩
          · simpa using Spells.and word' hspells hright hwhole hrank'
          · rw [Phrase.fault_and, Phrase.fault_and, hfault, Option.or_assoc]
  | _ =>
      exact ⟨.and first _, .and word hfirst hsecond htight (not_rank_le htight' (by simp)),
        Nat.le_refl _, fun text => Phrase.fault_and text first _⟩

/-- What goes in front of conjunctions goes in front of disjunctions, whose first member takes
it. -/
theorem spells_in_turn_disjunction
    (hconjunction : ∀ {second us}, Spells second us → Binding.and.rank ≤ second.binding.rank →
      SpellsInTurn .or first second (front ++ us))
    (hsecond : Spells second us) : SpellsInTurn .or first second (front ++ us) := by
  induction second generalizing us with
  | or left right ih _ =>
      cases hsecond with
      | or word hleft hright hrank hrank' =>
          obtain ⟨whole, hspells, hwhole, hfault⟩ := ih hleft
          refine ⟨.or whole right, ?_, Nat.le_refl _, fun text => ?_⟩
          · simpa using Spells.or word hspells hright hwhole hrank'
          · rw [Phrase.fault_or, Phrase.fault_or, hfault, Option.or_assoc]
  | _ => exact hconjunction hsecond (and_rank_le (by simp))

/-- An AND takes the last member of a disjunction in front of it. -/
theorem spells_in_turn_and (hfirst : Spells first ts) (hsecond : Spells second us)
    (htight : Binding.and.rank ≤ second.binding.rank) (word : Span) :
    SpellsInTurn .or first second (ts ++ ⟨.keyword .and, word⟩ :: us) := by
  cases first with
  | or left right =>
      cases hfirst with
      | or word' hleft hright hrank hrank' =>
          obtain ⟨whole, hspells, hwhole, hfault⟩ :=
            spells_in_turn_conjunctions hright hsecond hrank' htight word
          refine ⟨.or left whole, ?_, Nat.le_refl _, fun text => ?_⟩
          · simpa using Spells.or word' hleft hspells hrank hwhole
          · rw [Phrase.fault_or, Phrase.fault_or, hfault, Option.or_assoc]
  | _ =>
      exact (spells_in_turn_conjunctions hfirst hsecond (and_rank_le (by simp)) htight word).loosen

/-- Phrases joined by a connective are a phrase, in whatever way it groups them. -/
theorem Spells.joined (connective : Connective) (hfirst : Spells first ts)
    (hsecond : Spells second us) (word : Span) :
    SpellsInTurn .or first second (ts ++ ⟨.keyword connective.keyword, word⟩ :: us) := by
  rw [List.append_cons]
  refine spells_in_turn_disjunction (fun {second us} hsecond htight => ?_) hsecond
  rw [← List.append_cons]
  cases connective with
  | and => exact spells_in_turn_and hfirst hsecond htight word
  | or =>
      exact ⟨.or first second, .or word hfirst hsecond (Nat.zero_le _) htight, Nat.le_refl _,
        fun text => Phrase.fault_or text first second⟩

end Joining

/-! ## Texts joined -/

/-- What is written between two conditions to join them. -/
def Connective.joiner : Connective → String
  | and => " AND "
  | or => " OR "

section Texts

variable {t u : List Char} {ts us : List Token} {p q : Phrase} {stop stop' : Span}

/-- What joins two conditions is cut into a keyword. -/
theorem cut_joiner (connective : Connective) (back : List Char) :
    Cut connective.joiner.toList [.keyword connective.keyword] back := by
  have hjoiner : connective.joiner.toList = ' ' :: (connective.keyword.text.toList ++ [' ']) := by
    cases connective <;> rfl
  rw [hjoiner]
  exact .layout rfl (cut_keyword connective.keyword back)

/-- Joined texts have the tokens of the first one, the keyword that joins them, and the tokens of
the second one, as far behind as it is written. -/
theorem scan_joined (connective : Connective) (ht : Token.scan t = ts ++ [⟨.endOfText, stop⟩])
    (hproper : AllProper ts) (hu : Token.scan u = us ++ [⟨.endOfText, stop'⟩]) :
    ∃ word stop'', Token.scan (t ++ (connective.joiner.toList ++ u)) =
      ts ++ ⟨.keyword connective.keyword, word⟩ ::
        us.map (·.shift (byteCount (t ++ connective.joiner.toList))) ++
          [⟨.endOfText, stop''⟩] := by
  have hbreaks : Breaks (connective.joiner.toList ++ u) := by
    cases connective <;> exact .inl rfl
  obtain ⟨tokens, hlexemes, hscan⟩ :=
    Token.scan_from_cut (cut_joiner connective u) (byteCount t)
  obtain ⟨word, rfl⟩ := eq_token_singleton hlexemes
  have hbehind := Token.scan_from_shift (byteCount (t ++ connective.joiner.toList)) 0 0 u
  rw [← Token.scan, hu, List.map_append, Nat.zero_add, byte_count_append] at hbehind
  rw [scan_in_front ht hproper hbreaks, hscan, hbehind, byte_count_append]
  exact ⟨word, _, by simp; rfl⟩

/-- Joined texts nest within the limit where both do: a connective outside all parentheses begins
the depth anew. -/
theorem within_joined (connective : Connective) (hbalanced : Nesting.Balanced (ts.map (·.lexeme)))
    (ht : Nesting.Depth.start.Within (ts.map (·.lexeme) ++ [.endOfText]))
    (hu : Nesting.Depth.start.Within (us.map (·.lexeme) ++ [.endOfText])) (word : Span) (k : Nat) :
    Nesting.Depth.start.Within
      ((ts ++ ⟨.keyword connective.keyword, word⟩ :: us.map (·.shift k)).map (·.lexeme) ++
        [.endOfText]) := by
  have hlexemes : (us.map (·.shift k)).map (·.lexeme) = us.map (·.lexeme) := by
    rw [List.map_map]
    rfl
  rw [Nesting.Depth.within_append] at ht
  rw [List.map_append, List.append_assoc, Nesting.Depth.within_append, List.map_cons, hlexemes,
    List.cons_append, Nesting.Depth.Within, Nesting.after_connective connective (hbalanced _)]
  exact ⟨ht.1, Nat.zero_le _, hu⟩

/-- The tokens that spell a phrase are written out, if no string among them is open. -/
theorem all_proper_of_closed (hscan : Token.scan t = ts ++ [⟨.endOfText, stop⟩])
    (hspells : Spells p ts) (hclosed : ∀ token ∈ Token.scan t, token.lexeme ≠ .unclosedString) :
    AllProper ts := by
  intro token hmem
  refine ⟨no_stray_of_spells hspells token hmem, hclosed token ?_, Token.ne_end_of_mem hscan hmem⟩
  rw [hscan]
  exact List.mem_append_left _ hmem

/-- The tokens of a text begin and end between its characters. -/
theorem bounded_of_scan (hscan : Token.scan t = ts ++ [⟨.endOfText, stop⟩]) : Bounded t ts :=
  fun token hmem => boundaries_of_scan (by rw [hscan]; exact List.mem_append_left _ hmem)

end Texts

/-- The grammar reads the text as the phrase, and the text nests within the limit. Whether the
phrase has a meaning is another matter. -/
structure ReadsAs (text : List Char) (phrase : Phrase) : Prop where
  nesting : Nesting.tooDeep? text = none
  reading : Phrase.ofTokens (Token.scan text) = .ok (some phrase)

namespace ReadsAs

variable {text t u : List Char} {phrase p q : Phrase}

/-- The tokens of a text that is read spell the phrase. -/
theorem spells (h : ReadsAs text phrase) :
    ∃ tokens stop, Token.scan text = tokens ++ [⟨.endOfText, stop⟩] ∧ Spells phrase tokens :=
  Phrase.scan_of_some h.reading

/-- A text that is read has what its phrase means. -/
theorem of_chars_eq (h : ReadsAs text phrase) :
    Expr.ofChars text = (phrase.meaning text).map some := by
  rw [Expr.ofChars, h.nesting, h.reading]

/-- A text that is read is accepted with what its phrase means and with nothing else. -/
theorem of_chars_ok_iff (h : ReadsAs text phrase) (e : Expr) :
    Expr.ofChars text = .ok (some e) ↔ phrase.meaning text = .ok e := by
  rw [h.of_chars_eq]
  cases phrase.meaning text <;> simp [Except.map]

/-- A text that is read is rejected for the fault of its phrase and for nothing else. -/
theorem of_chars_error_iff (h : ReadsAs text phrase) (fault : Fault) :
    Expr.ofChars text = .error fault ↔ phrase.fault? text = some fault := by
  rw [h.of_chars_eq, Phrase.fault_eq_some_iff]
  cases phrase.meaning text <;> simp [Except.map]

/-- A text is rejected because it nests too deep, because the grammar does not read it, or for the
fault of the phrase that it is read as. -/
theorem of_error {fault : Fault} (h : Expr.ofChars text = .error fault) :
    (∃ span, fault = .nestingTooDeep span ∧ Nesting.tooDeep? text = some span) ∨
      (∃ position expected, fault = .unexpected position expected) ∨
      ∃ whole, ReadsAs text whole ∧ whole.fault? text = some fault := by
  cases hnesting : Nesting.tooDeep? text with
  | some span =>
      rw [Expr.ofChars, hnesting] at h
      cases h
      exact .inl ⟨span, rfl, rfl⟩
  | none =>
      cases hreading : Phrase.ofTokens (Token.scan text) with
      | error furthest =>
          rw [Expr.ofChars, hnesting, hreading] at h
          cases h
          exact .inr (.inl ⟨_, _, rfl⟩)
      | ok found =>
          cases found with
          | none =>
              rw [Expr.ofChars, hnesting, hreading] at h
              cases h
          | some whole =>
              have hreads : ReadsAs text whole := ⟨hnesting, hreading⟩
              exact .inr (.inr ⟨whole, hreads, (hreads.of_chars_error_iff fault).mp h⟩)

/-- A text that is accepted has no fault in its phrase. -/
theorem fault_eq_none (h : ReadsAs text phrase) {found : Option Expr}
    (haccepted : Expr.ofChars text = .ok found) : phrase.fault? text = none := by
  cases hfault : phrase.fault? text with
  | none => rfl
  | some fault =>
      rw [← h.of_chars_error_iff, haccepted] at hfault
      cases hfault

/-- Joined texts are read as a phrase that has the fault of the first one, or else that of the
second one where it stands now. -/
theorem joined (connective : Connective) (ht : ReadsAs t p) (hu : ReadsAs u q)
    (hclosed : ∀ token ∈ Token.scan t, token.lexeme ≠ .unclosedString) :
    ∃ whole, ReadsAs (t ++ connective.joiner.toList ++ u) whole ∧
      whole.fault? (t ++ connective.joiner.toList ++ u) =
        (p.fault? t).or
          ((q.fault? u).map (·.shift (byteCount (t ++ connective.joiner.toList)))) := by
  obtain ⟨ts, stop, htscan, htspells⟩ := ht.spells
  obtain ⟨us, stop', huscan, huspells⟩ := hu.spells
  have hproper := all_proper_of_closed htscan htspells hclosed
  obtain ⟨word, stop'', hscan⟩ := scan_joined connective htscan hproper huscan
  rw [← List.append_assoc] at hscan
  obtain ⟨whole, hspells, -, hfault⟩ :=
    htspells.joined connective (huspells.shift (byteCount (t ++ connective.joiner.toList))) word
  refine ⟨whole, ⟨?_, ?_⟩, ?_⟩
  · rw [Nesting.too_deep_eq_none_iff hscan hspells]
    exact within_joined connective (Nesting.balanced_of_spells htspells hproper)
      ((Nesting.too_deep_eq_none_iff htscan htspells).mp ht.nesting)
      ((Nesting.too_deep_eq_none_iff huscan huspells).mp hu.nesting) word _
  · rw [hscan]
    exact Phrase.of_tokens_complete hspells stop''
  · have hfirst := htspells.fault_shift (bounded_of_scan htscan) []
      (connective.joiner.toList ++ u)
    have hsecond := huspells.fault_shift (bounded_of_scan huscan)
      (t ++ connective.joiner.toList) []
    rw [byte_count_nil, Phrase.shift_zero, List.nil_append, ← List.append_assoc] at hfirst
    rw [List.append_nil] at hsecond
    rw [hfault, hsecond, hfirst]
    simp

end ReadsAs

namespace Expr

/-- The leftmost fault is the one reported, whatever is joined to the text that has it. Two texts
that the grammar reads within the limit of nesting, the first one without an open string, are joined
by a connective. If the first one is rejected, the joined text is rejected for the same fault at the
same place. If only the second one is, the joined text is rejected for its fault, as far behind as
the second text is written. -/
theorem parse_leftmost_fault (connective : Connective) {t u : String} {p q : Phrase}
    (ht : ReadsAs t.toList p) (hu : ReadsAs u.toList q)
    (hclosed : ∀ token ∈ Token.scan t.toList, token.lexeme ≠ .unclosedString) :
    (∀ fault, parse t = .error ⟨t, fault⟩ →
      parse (t ++ connective.joiner ++ u) = .error ⟨t ++ connective.joiner ++ u, fault⟩) ∧
    (∀ e fault, parse t = .ok (some e) → parse u = .error ⟨u, fault⟩ →
      parse (t ++ connective.joiner ++ u) = .error ⟨t ++ connective.joiner ++ u,
        fault.shift (byteCount (t ++ connective.joiner).toList)⟩) := by
  obtain ⟨whole, hwhole, hfault⟩ := ht.joined connective hu hclosed
  simp only [parse_error_iff, String.toList_append, hwhole.of_chars_error_iff,
    ht.of_chars_error_iff, hu.of_chars_error_iff, hfault]
  constructor
  · intro fault hfirst
    rw [hfirst]
    rfl
  · intro e fault haccepted hsecond
    rw [ht.fault_eq_none (of_parse_ok haccepted), hsecond]
    rfl

/-- An AND that takes a part of what stands in front of it changes nothing about the fault there. A
fault behind it is shifted by the bytes in front, of which `é` takes two. -/
theorem parse_leftmost_fault_regrouped :
    (parse "x OR 1 IS NULL" =
        .error ⟨"x OR 1 IS NULL", .identifierRequired .isNull "1" ⟨5, 1⟩⟩ ∧
      parse "x OR 1 IS NULL AND 'y' LIKE 'p'" =
        .error ⟨"x OR 1 IS NULL AND 'y' LIKE 'p'", .identifierRequired .isNull "1" ⟨5, 1⟩⟩) ∧
    (parse "x OR z = 'é'" = .ok (some (.or (.identifier "x")
        (.comparison .equal (.identifier "z") (.literal (.string "é"))))) ∧
      parse "'y' LIKE 'p'" =
        .error ⟨"'y' LIKE 'p'", .identifierRequired .like "'y'" ⟨0, 3⟩⟩ ∧
      parse "x OR z = 'é' AND 'y' LIKE 'p'" =
        .error ⟨"x OR z = 'é' AND 'y' LIKE 'p'", .identifierRequired .like "'y'" ⟨18, 3⟩⟩) := by
  have hfaulty : ReadsAs "x OR 1 IS NULL".toList
      (.or (.identifier ⟨0, 1⟩ "x") (.isNull (.integer ⟨5, 1⟩ "1") ⟨10, 4⟩ false)) :=
    ⟨by decide +kernel, by cbv⟩
  have hproper : ReadsAs "x OR z = 'é'".toList (.or (.identifier ⟨0, 1⟩ "x")
      (.comparison .equal (.identifier ⟨5, 1⟩ "z") (.string ⟨⟨9, 4⟩, "é"⟩))) :=
    ⟨by decide +kernel, by cbv⟩
  have hbehind : ReadsAs "'y' LIKE 'p'".toList
      (.like (.string ⟨⟨0, 3⟩, "y"⟩) ⟨⟨9, 3⟩, "p"⟩ none false) :=
    ⟨by decide +kernel, by cbv⟩
  have hfirst : parse "x OR 1 IS NULL" =
      .error ⟨"x OR 1 IS NULL", .identifierRequired .isNull "1" ⟨5, 1⟩⟩ :=
    (parse_error_iff _ _).mpr ((hfaulty.of_chars_error_iff _).mpr (by decide +kernel))
  have haccepted : parse "x OR z = 'é'" = .ok (some (.or (.identifier "x")
      (.comparison .equal (.identifier "z") (.literal (.string "é"))))) := by
    cbv
  have hsecond : parse "'y' LIKE 'p'" =
      .error ⟨"'y' LIKE 'p'", .identifierRequired .like "'y'" ⟨0, 3⟩⟩ :=
    (parse_error_iff _ _).mpr ((hbehind.of_chars_error_iff _).mpr (by decide +kernel))
  have hjoined : "x OR 1 IS NULL" ++ Connective.joiner .and ++ "'y' LIKE 'p'" =
        "x OR 1 IS NULL AND 'y' LIKE 'p'" ∧
      "x OR z = 'é'" ++ Connective.joiner .and ++ "'y' LIKE 'p'" =
        "x OR z = 'é' AND 'y' LIKE 'p'" := by
    decide +kernel
  have hleft := (parse_leftmost_fault .and hfaulty hbehind (by decide +kernel)).1 _ hfirst
  have hright :=
    (parse_leftmost_fault .and hproper hbehind (by decide +kernel)).2 _ _ haccepted hsecond
  rw [hjoined.1] at hleft
  rw [hjoined.2] at hright
  exact ⟨⟨hfirst, hleft⟩, haccepted, hsecond, hright⟩

end Expr

end MessageSelector
