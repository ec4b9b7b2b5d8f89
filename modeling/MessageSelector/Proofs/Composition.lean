import MessageSelector.Proofs.IndexKeys
import MessageSelector.Proofs.Nesting.Balance
import MessageSelector.Selector

/-!
# Selectors composed of selectors

Accepted texts in parentheses are joined by AND or OR to an accepted text, however many there are.
`Joined` is the invariant of a chain: the part that is there already is cut and spelled whatever
follows, and leaves the depth of the text as it was at the start, so that the next operand is read
as if it came first.
-/

namespace MessageSelector

open MessageSelector.Expr (Binding)

/-! ## Operands and connectives -/

/-- The connectives that join any number of conditions. -/
inductive Connective where
  | and
  | or

namespace Connective

/-- The word of the connective. -/
def keyword : Connective → Keyword
  | and => .and
  | or => .or

/-- How tightly the connective binds. -/
def binding : Connective → Binding
  | and => .and
  | or => .or

/-- The expression of two joined conditions. -/
def join : Connective → Expr → Expr → Expr
  | and => .and
  | or => .or

end Connective

variable {binding : Binding} {ls ms : List Lexeme} {e left right : Expr}

/-- What lexemes denote is denoted by them in parentheses. -/
theorem Denotes.group (h : Denotes ls binding e) :
    Denotes (.leftParen :: ls ++ [.rightParen]) .primary e := by
  intro text tokens htokens
  obtain ⟨leftParen, rest, rfl, hrest⟩ := eq_token_cons htokens
  obtain ⟨inner, closing, rfl, hinner, hclosing⟩ := List.map_eq_append_iff.mp hrest
  obtain ⟨rightParen, rfl⟩ := eq_token_singleton hclosing
  obtain ⟨phrase, hspells, hmeaning, -⟩ := h text inner hinner
  exact ⟨.group leftParen phrase rightParen, .group leftParen rightParen hspells, hmeaning,
    Nat.le_refl _⟩

/-- A condition in parentheses is joined to those before it. -/
theorem Denotes.joined (connective : Connective) (hleft : Denotes ls connective.binding left)
    (hright : Denotes ms .primary right) :
    Denotes (ls ++ .keyword connective.keyword :: ms) connective.binding
      (connective.join left right) := by
  intro text tokens htokens
  obtain ⟨lefts, rest, rfl, hlefts, hrest⟩ := List.map_eq_append_iff.mp htokens
  obtain ⟨word, rights, rfl, hrights⟩ := eq_token_cons hrest
  obtain ⟨phrase, hspells, hmeaning, hrank⟩ := hleft text lefts hlefts
  obtain ⟨phrase', hspells', hmeaning', hrank'⟩ := hright text rights hrights
  have htight (demanded : Binding) : demanded.rank ≤ phrase'.binding.rank :=
    Nat.le_trans (Binding.rank_le_primary demanded) hrank'
  cases connective with
  | and =>
      refine ⟨.and phrase phrase', .and word hspells hspells' hrank (htight _), ?_, Nat.le_refl _⟩
      rw [Phrase.meaning, hmeaning, hmeaning']
      rfl
  | or =>
      refine ⟨.or phrase phrase', .or word hspells hspells' hrank (htight _), ?_, Nat.le_refl _⟩
      rw [Phrase.meaning, hmeaning, hmeaning']
      rfl

/-- A condition in parentheses is negated. -/
theorem Denotes.negated (h : Denotes ls .primary e) :
    Denotes (.keyword .not :: ls) .not (.not e) := by
  intro text tokens htokens
  obtain ⟨word, rest, rfl, hrest⟩ := eq_token_cons htokens
  obtain ⟨phrase, hspells, hmeaning, hrank⟩ := h text rest hrest
  refine ⟨.not word phrase, .not word hspells ?_, ?_, Nat.le_refl _⟩
  · exact Nat.le_trans (Binding.rank_le_primary .not) hrank
  · rw [Phrase.meaning, hmeaning]
    rfl

/-! ## Texts side by side -/

/-- A keyword in front of a space is cut off, whatever stands behind it. -/
theorem cut_keyword (word : Keyword) (back : List Char) :
    Cut (word.text.toList ++ [' ']) [.keyword word] back := by
  have hbreaks : Breaks ([' '] ++ back) := .inl rfl
  exact .lexeme (Expr.written_keyword word) (hbreaks.ends _) (cut_layout rfl back)

/-- Behind a connective outside all parentheses the depth is that of the start again. -/
theorem Nesting.after_connective (connective : Connective) {depth : Nesting.Depth}
    (h : depth.insideParens = []) :
    depth.afterLexeme (.keyword connective.keyword) = .start := by
  obtain ⟨_, operators, afterOperand⟩ := depth
  obtain rfl := h
  cases connective <;> rfl

/-! ## Chains -/

/-- Conditions in parentheses, joined one after the other: whatever stands behind them, the text is
cut into the lexemes, and these denote the expression and leave the depth of the start of a text as
it is behind an operand. -/
structure Joined (text : List Char) (ls : List Lexeme) (binding : Binding) (e : Expr) : Prop where
  cut (back : List Char) : Cut text ls back
  denotes : Denotes ls binding e
  after_start : Nesting.Depth.start.afterLexemes ls = ⟨[], 0, true⟩
  within : Nesting.Depth.start.Within ls

variable {text other : List Char}

/-- What binds tightly is joined like what binds as loosely as the connective. -/
theorem Joined.loosen (h : Joined text ls .primary e) (binding : Binding) :
    Joined text ls binding e := by
  refine ⟨h.cut, fun other tokens htokens => ?_, h.after_start, h.within⟩
  obtain ⟨phrase, hspells, hmeaning, hrank⟩ := h.denotes other tokens htokens
  exact ⟨phrase, hspells, hmeaning, Nat.le_trans (Binding.rank_le_primary binding) hrank⟩

/-- A text that is cut into lexemes nests within the limit just if they do. -/
theorem Denotes.too_deep_eq_none_iff (h : Denotes ls binding e) (hcut : Cut text ls []) :
    Nesting.tooDeep? text = none ↔ Nesting.Depth.start.Within (ls ++ [.endOfText]) := by
  obtain ⟨phrase, tokens, stop, htokens, rfl, hspells, -⟩ := h.scanned hcut
  exact Nesting.too_deep_eq_none_iff htokens hspells

/-- What is joined so far is said by its text, within the limit. -/
theorem Joined.of_chars (h : Joined text ls binding e) : Expr.ofChars text = .ok (some e) := by
  refine (h.denotes.said (h.cut [])).of_chars ?_
  rw [h.denotes.too_deep_eq_none_iff (h.cut []), Nesting.Depth.within_append, h.after_start]
  exact ⟨h.within, Nat.zero_le _, trivial⟩

/-- A text in parentheses is the first of a chain, if it nests within the limit there. -/
theorem Says.joined (h : Says text e) (hnesting : Nesting.tooDeep? ('(' :: text ++ [')']) = none) :
    ∃ ls, Joined ('(' :: text ++ [')']) ls .primary e := by
  obtain ⟨phrase, tokens, stop, htokens, hspells, hmeaning⟩ := h
  have hproper := hspells.all_proper hmeaning
  have hcut := (cut_to_end htokens hproper).group
  have hdenotes := (hspells.denotes hmeaning).group
  rw [hdenotes.too_deep_eq_none_iff (hcut []), Nesting.Depth.within_append] at hnesting
  exact ⟨_, hcut, hdenotes, (Nesting.balanced_of_spells hspells hproper).after_group _, hnesting.1⟩

/-- A condition in parentheses goes on with a chain. -/
theorem Joined.joined (connective : Connective) (hleft : Joined text ls connective.binding left)
    (hright : Joined other ms .primary right) :
    Joined (text ++ (' ' :: connective.keyword.text.toList ++ ' ' :: other))
      (ls ++ .keyword connective.keyword :: ms)
      connective.binding (connective.join left right) := by
  have hstart : (⟨[], 0, true⟩ : Nesting.Depth).afterLexeme (.keyword connective.keyword) =
      .start :=
    Nesting.after_connective connective rfl
  refine ⟨fun back => ?_, hleft.denotes.joined connective hright.denotes, ?_, ?_⟩
  · have hright := (cut_keyword connective.keyword _).append (hright.cut back)
    rw [List.append_assoc] at hright
    exact (hleft.cut _).append (.layout rfl hright)
  · rw [Nesting.Depth.after_lexemes_append, hleft.after_start, Nesting.Depth.after_lexemes_cons,
      hstart, hright.after_start]
  · rw [Nesting.Depth.within_append, hleft.after_start, Nesting.Depth.Within, hstart]
    exact ⟨hleft.within, Nat.zero_le _, hright.within⟩

/-- Any number of conditions in parentheses go on with a chain. -/
theorem Joined.chain (connective : Connective) {rest : List (String × Expr)}
    (hfirst : Joined text ls connective.binding e)
    (hrest : ∀ part ∈ rest, ∃ ms, Joined ("(" ++ part.1 ++ ")").toList ms .primary part.2) :
    ∃ ms, Joined (text ++ rest.flatMap fun part =>
        ' ' :: connective.keyword.text.toList ++ ' ' :: ("(" ++ part.1 ++ ")").toList)
      ms connective.binding (rest.foldl (fun e part => connective.join e part.2) e) := by
  induction rest generalizing text ls e with
  | nil => exact ⟨ls, by rwa [List.flatMap_nil, List.append_nil]⟩
  | cons part rest ih =>
      obtain ⟨⟨ms, hpart⟩, hrest⟩ := List.forall_mem_cons.mp hrest
      rw [List.flatMap_cons, ← List.append_assoc]
      exact ih (hfirst.joined connective hpart) hrest

/-- A text between the members of a list stands in front of each but the first. -/
theorem to_list_intercalate_cons (separator first : String) (rest : List String) :
    (separator.intercalate (first :: rest)).toList =
      first.toList ++ rest.flatMap fun text => separator.toList ++ text.toList := by
  induction rest generalizing first with
  | nil => simp
  | cons next rest ih =>
      rw [String.intercalate_cons_cons, String.toList_append, String.toList_append, ih,
        List.flatMap_cons, List.append_assoc, List.append_assoc]

/-! ## Selectors -/

variable {first : String × Expr} {rest : List (String × Expr)}

/-- Accepted texts in parentheses are joined to an accepted text. -/
theorem parse_chain (connective : Connective)
    (haccepted : ∀ part ∈ first :: rest, Expr.parse part.1 = .ok (some part.2))
    (hnesting : ∀ part ∈ first :: rest,
      Nesting.tooDeep? ("(" ++ part.1 ++ ")").toList = none) :
    Expr.parse ((" " ++ connective.keyword.text ++ " ").intercalate
        ((first :: rest).map fun part => "(" ++ part.1 ++ ")")) =
      .ok (some (rest.foldl (fun e part => connective.join e part.2) first.2)) := by
  have hmember (part) (hmem : part ∈ first :: rest) :
      ∃ ls, Joined ("(" ++ part.1 ++ ")").toList ls .primary part.2 := by
    obtain ⟨-, hsaid⟩ := (Expr.parse_ok_iff _ _).mp (haccepted part hmem)
    have hdepth := hnesting part hmem
    simp only [String.toList_append] at hdepth ⊢
    exact hsaid.joined hdepth
  obtain ⟨hfirst, hrest⟩ := List.forall_mem_cons.mp hmember
  obtain ⟨ls, hfirst⟩ := hfirst
  obtain ⟨ms, hchain⟩ := (hfirst.loosen connective.binding).chain connective hrest
  unfold Expr.parse
  rw [List.map_cons, to_list_intercalate_cons, List.flatMap_map]
  have htext : ∀ part : String × Expr,
      (" " ++ connective.keyword.text ++ " ").toList ++ ("(" ++ part.1 ++ ")").toList =
        ' ' :: connective.keyword.text.toList ++ ' ' :: ("(" ++ part.1 ++ ")").toList := by
    simp
  simp only [htext]
  rw [hchain.of_chars]
  rfl

/-- A chain of ANDs holds where all its members do. -/
theorem truth_conjunction_iff (source : Source) (e : Expr) (rest : List (String × Expr)) :
    (rest.foldl (fun e part => Expr.and e part.2) e).truth source = .holds ↔
      e.truth source = .holds ∧ ∀ part ∈ rest, part.2.truth source = .holds := by
  induction rest generalizing e with
  | nil => simp
  | cons part rest ih =>
      rw [List.foldl_cons, ih, Expr.truth_and, Truth.and_holds_iff, List.forall_mem_cons, and_assoc]

/-- A chain of ORs holds where one of its members does. -/
theorem truth_disjunction_iff (source : Source) (e : Expr) (rest : List (String × Expr)) :
    (rest.foldl (fun e part => Expr.or e part.2) e).truth source = .holds ↔
      e.truth source = .holds ∨ ∃ part ∈ rest, part.2.truth source = .holds := by
  induction rest generalizing e with
  | nil => simp
  | cons part rest ih =>
      rw [List.foldl_cons, ih, Expr.truth_or, Truth.or_holds_iff, List.exists_mem_cons_iff,
        or_assoc]

/-- The keys of a chain of ANDs are those of its members in order. -/
theorem keys_conjunction (e : Expr) (rest : List (String × Expr)) :
    (rest.foldl (fun e part => Expr.and e part.2) e).keys =
      e.keys ++ rest.flatMap fun part => part.2.keys := by
  induction rest generalizing e with
  | nil => simp
  | cons part rest ih =>
      rw [List.foldl_cons, ih, Expr.keys_and, List.flatMap_cons, List.append_assoc]

/-- An accepted text in parentheses is negated, unless it nests too deep there. -/
theorem parse_negation {text : String} {e : Expr} (haccepted : Expr.parse text = .ok (some e))
    (hnesting : Nesting.tooDeep? ("NOT (" ++ text ++ ")").toList = none) :
    Expr.parse ("NOT (" ++ text ++ ")") = .ok (some (.not e)) := by
  obtain ⟨-, phrase, tokens, stop, htokens, hspells, hmeaning⟩ :=
    (Expr.parse_ok_iff _ _).mp haccepted
  have hcut := (cut_to_end htokens (hspells.all_proper hmeaning)).group []
  have hnegated := (hspells.denotes hmeaning).group.negated
  have htext : ("NOT (" ++ text ++ ")").toList =
      Keyword.not.text.toList ++ [' '] ++ ('(' :: text.toList ++ [')']) := by
    simp [Keyword.text]
  refine (Expr.parse_ok_iff _ _).mpr ⟨hnesting, ?_⟩
  rw [htext]
  exact hnegated.said ((cut_keyword .not _).append hcut)

namespace Selector

/-- A selector is compiled to an expression just if its text is read as that expression. -/
theorem compile_ok_iff (text : String) (e : Expr) :
    compile text = .ok ⟨some e⟩ ↔ Expr.parse text = .ok (some e) := by
  unfold compile
  cases Expr.parse text with
  | error rejection => exact ⟨nofun, nofun⟩
  | ok found => simp [Except.map]

/-- A selector with an expression selects where the expression holds. -/
theorem selects_iff (e : Expr) (source : Source) :
    selects ⟨some e⟩ source = true ↔ e.truth source = .holds :=
  Truth.is_holds_iff _

/-- Selectors are composed as texts. Any number of accepted texts in parentheses, each of which
nests within the limit there, are joined by AND and by OR to an accepted text, and `NOT` negates
one. The trees are the ones that the text seems to have, grouped to the left; a conjunction selects
what all its members select and has their keys in order, and a disjunction selects what one of its
members selects. -/
theorem compile_composed (first : String × Expr) (rest : List (String × Expr))
    (haccepted : ∀ part ∈ first :: rest, compile part.1 = .ok ⟨some part.2⟩)
    (hnesting : ∀ part ∈ first :: rest,
      Nesting.tooDeep? ("(" ++ part.1 ++ ")").toList = none) :
    (∃ conjunction : Selector,
      compile (" AND ".intercalate ((first :: rest).map fun part => "(" ++ part.1 ++ ")")) =
        .ok conjunction ∧
      conjunction.expr = some (rest.foldl (fun e part => .and e part.2) first.2) ∧
      (∀ source, conjunction.selects source = true ↔
        ∀ part ∈ first :: rest, selects ⟨some part.2⟩ source = true) ∧
      conjunction.indexing = .keys ((first :: rest).flatMap fun part => part.2.keys)) ∧
    (∃ disjunction : Selector,
      compile (" OR ".intercalate ((first :: rest).map fun part => "(" ++ part.1 ++ ")")) =
        .ok disjunction ∧
      disjunction.expr = some (rest.foldl (fun e part => .or e part.2) first.2) ∧
      ∀ source, disjunction.selects source = true ↔
        ∃ part ∈ first :: rest, selects ⟨some part.2⟩ source = true) ∧
    (Nesting.tooDeep? ("NOT (" ++ first.1 ++ ")").toList = none →
      compile ("NOT (" ++ first.1 ++ ")") = .ok ⟨some (.not first.2)⟩) := by
  have hparsed : ∀ part ∈ first :: rest, Expr.parse part.1 = .ok (some part.2) :=
    fun part hmem => (compile_ok_iff _ _).mp (haccepted part hmem)
  refine ⟨⟨_, (compile_ok_iff _ _).mpr (parse_chain .and hparsed hnesting), rfl, ?_, ?_⟩,
    ⟨_, (compile_ok_iff _ _).mpr (parse_chain .or hparsed hnesting), rfl, ?_⟩, ?_⟩
  · intro source
    simp only [selects_iff, List.forall_mem_cons]
    exact truth_conjunction_iff source first.2 rest
  · exact congrArg Indexing.keys (keys_conjunction first.2 rest)
  · intro source
    simp only [selects_iff, List.exists_mem_cons_iff]
    exact truth_disjunction_iff source first.2 rest
  · intro hdepth
    exact (compile_ok_iff _ _).mpr (parse_negation (hparsed first List.mem_cons_self) hdepth)

/-- The parentheses keep each member together. -/
theorem compile_composed_members :
    compile "a = 1 OR b" = .ok ⟨some (.or (.comparison .equal (.identifier "a")
        (.literal (.integer 1))) (.identifier "b"))⟩ ∧
      compile "c = ')'" = .ok ⟨some (.comparison .equal (.identifier "c")
        (.literal (.string ")")))⟩ ∧
      compile "(a = 1 OR b) AND (c = ')')" = .ok ⟨some (.and (.or (.comparison .equal
        (.identifier "a") (.literal (.integer 1))) (.identifier "b")) (.comparison .equal
          (.identifier "c") (.literal (.string ")"))))⟩ := by
  have hfirst : compile "a = 1 OR b" = .ok ⟨some (.or (.comparison .equal (.identifier "a")
      (.literal (.integer 1))) (.identifier "b"))⟩ := by
    cbv
  have hsecond : compile "c = ')'" = .ok ⟨some (.comparison .equal (.identifier "c")
      (.literal (.string ")")))⟩ := by
    cbv
  have hnesting : Nesting.tooDeep? ("(" ++ "a = 1 OR b" ++ ")").toList = none ∧
      Nesting.tooDeep? ("(" ++ "c = ')'" ++ ")").toList = none := by
    decide +kernel
  obtain ⟨⟨conjunction, hcompiled, hexpr, -⟩, -⟩ := compile_composed (_, _) [(_, _)]
    (List.forall_mem_cons.mpr ⟨hfirst, List.forall_mem_singleton.mpr hsecond⟩)
    (List.forall_mem_cons.mpr ⟨hnesting.1, List.forall_mem_singleton.mpr hnesting.2⟩)
  exact ⟨hfirst, hsecond, hcompiled.trans (congrArg Except.ok (congrArg Selector.mk hexpr))⟩

end Selector

end MessageSelector
