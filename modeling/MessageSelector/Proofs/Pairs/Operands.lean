import MessageSelector.Phrase
import MessageSelector.Proofs.Pairs.Agreement

/-!
# Operands in a row

Where readers have a level for every strength of operators, and each level groups the operands of
the tighter one, matchers have one row of operands with all the operators between them. `AtLevel`
says what a level takes of the row, and that the pairs it takes make a tree that precedence climbing
will find again. A chain takes a level to the next looser one, and `agrees_operands` puts two levels
and the operators in front of an operand together.
-/

namespace MessageSelector

open Reader (Finds Misses)

/-! ## Rounds -/

namespace Matcher

/-- A matcher matches time after time, and takes tokens every time. -/
inductive Takes (part : Matcher) : List Token → List Pair → List Token → Prop where
  | nil (tokens) : Takes part tokens [] tokens
  | cons {tokens pairs mid more rest} :
      part tokens = some (pairs, mid) → mid.length < tokens.length → Takes part mid more rest →
      Takes part tokens (pairs ++ more) rest

variable {part : Matcher} {tokens mid rest : List Token} {pairs more : List Pair}

/-- Rounds and then more rounds. -/
theorem Takes.append (h : Takes part tokens pairs mid) (hmore : Takes part mid more rest) :
    Takes part tokens (pairs ++ more) rest := by
  induction h with
  | nil => exact hmore
  | cons hpart hlength _ ih =>
      rw [List.append_assoc]
      exact .cons hpart hlength (ih hmore)

/-- All rounds there are make a repetition. -/
theorem Takes.many (h : Takes part tokens pairs rest) (hnone : part rest = none) :
    Matcher.many part tokens = some (pairs, rest) := by
  have hfrom (clock : List Token) (hclock : tokens.length ≤ clock.length) :
      Matcher.manyFrom part clock tokens = some (pairs, rest) := by
    induction h generalizing clock with
    | nil tokens =>
        cases clock with
        | nil => rfl
        | cons => rw [Matcher.manyFrom, hnone]
    | cons hpart hlength _ ih =>
        cases clock with
        | nil =>
            rw [List.length_nil] at hclock
            omega
        | cons _ clock =>
            rw [List.length_cons] at hclock
            simp only [Matcher.manyFrom, hpart, ih hnone clock (by omega), Option.map_some]
  exact hfrom tokens (Nat.le_refl _)

/-- A first round of a repetition leaves its pair in front of all others. -/
theorem seq_many_from_cons {front row : Matcher} {next : Token} {clock : List Token} {pair : Pair}
    (h : front tokens = some ([pair], mid)) :
    seq (manyFrom front (next :: clock)) row tokens =
      (seq (manyFrom front clock) row mid).map fun (more, rest) => (pair :: more, rest) := by
  simp only [seq, manyFrom, h]
  cases manyFrom front clock mid with
  | none => rfl
  | some found =>
      obtain ⟨pairs, mid'⟩ := found
      simp only [Option.map_some, Option.map_map]
      rfl

end Matcher

/-! ## Levels -/

/-- A tree of pairs for a phrase. -/
structure TreeOf (operators : Operators) (IsTree : Phrase → Grouped → Prop) (least : Nat)
    (phrase : Phrase) (tree : Grouped) : Prop where
  isTree : IsTree phrase tree
  fits : tree.Fits operators
  bound : tree.BoundBy operators (least ≤ ·)

/-- The pair of an operator between operands, which makes a tree of theirs. -/
structure JoinsAt (operators : Operators) (IsTree : Phrase → Grouped → Prop) (strength : Nat)
    (join : Phrase → Phrase → Phrase) (pair : Pair) : Prop where
  strength_eq : operators pair.rule = some (.middle, strength)
  isTree : ∀ {left right leftTree rightTree}, IsTree left leftTree → IsTree right rightTree →
    IsTree (join left right) (.joined leftTree pair rightTree)

/-- The pair of an operator in front of an operand, which makes a tree of its own. -/
structure FrontsWith (operators : Operators) (IsTree : Phrase → Grouped → Prop)
    (wrap : Phrase → Phrase) (pair : Pair) : Prop where
  front : ∃ strength, operators pair.rule = some (.front, strength)
  isTree : ∀ {phrase tree}, IsTree phrase tree → IsTree (wrap phrase) (.under pair tree)

section Levels

variable {operators : Operators} {IsTree : Phrase → Grouped → Prop} {least strength : Nat}

/-- Trees of operands joined by an operator no stronger than those inside them. -/
theorem TreeOf.joined {join : Phrase → Phrase → Phrase} {pair : Pair} {left right : Phrase}
    {leftTree rightTree : Grouped} (hleft : TreeOf operators IsTree strength left leftTree)
    (hpair : JoinsAt operators IsTree strength join pair)
    (hright : TreeOf operators IsTree least right rightTree) (hlt : strength < least) :
    TreeOf operators IsTree strength (join left right) (.joined leftTree pair rightTree) where
  isTree := hpair.isTree hleft.isTree hright.isTree
  fits := ⟨strength, hpair.strength_eq, hleft.bound,
    hright.bound.mono fun _ hle => Nat.lt_of_lt_of_le hlt hle, hleft.fits, hright.fits⟩
  bound := by
    rintro _ ⟨⟩ strength' hstrength
    rw [hpair.strength_eq] at hstrength
    cases hstrength
    exact Nat.le_refl _

/-- No operator stands at the front of the tokens with an operand behind it. -/
def Stuck {β : Type} (operator : Reader β) (operand : Reader Phrase) (tokens : List Token) : Prop :=
  ∀ op mid, Finds operator tokens op mid → Misses operand mid

variable {whole : List Token} {signed between : Matcher} {stuck : List Token → Prop}
  {reader : Reader Phrase}

/-- A round of a chain that is missed has no operator, or no operand behind it. -/
theorem stuck_of_misses_pair {β : Type} {operator : Reader β} {operand : Reader Phrase}
    {tokens : List Token}
    (h : Misses (Reader.bind operator fun op => Reader.bind operand fun right =>
      Reader.pure (op, right)) tokens) : Stuck operator operand tokens := by
  intro op mid hop
  obtain hmiss | ⟨_, _, hop', hmiss⟩ := (Reader.misses_bind operator _ tokens).mp h
  · cases hop.symm.trans hmiss
  · cases hop.symm.trans hop'
    obtain hmiss | ⟨_, _, -, hmiss⟩ := (Reader.misses_bind operand _ mid).mp hmiss
    · exact hmiss
    · exact absurd hmiss (Reader.misses_pure _ _)

/-- However a chain goes on, its left operand is found. -/
theorem not_misses_chain_from {β : Type} (operator : Reader β) (operand : Reader Phrase)
    (join : β → Phrase → Phrase → Phrase) (clock : List Token) (left : Phrase) (furthest : Furthest)
    (tokens : List Token) :
    ¬ Misses (Reader.chainFrom operator operand join clock left furthest) tokens := by
  induction clock generalizing left furthest tokens with
  | nil => exact nofun
  | cons _ clock ih =>
      unfold Misses Reader.chainFrom
      dsimp only
      split
      · exact nofun
      · exact ih _ _ _

/-- A reader of a level takes the first operand of a row, and as many rounds as end where it is
stuck. -/
def AtLevel (whole : List Token) (operators : Operators) (IsTree : Phrase → Grouped → Prop)
    (signed between : Matcher) (least : Nat) (stuck : List Token → Prop) (reader : Reader Phrase) :
    Prop :=
  ∀ tokens, tokens <:+ whole →
    (Misses reader tokens → signed tokens = none) ∧
      ∀ phrase rest, Finds reader tokens phrase rest →
        rest <:+ tokens ∧ stuck rest ∧ ∃ tree first mid more,
          TreeOf operators IsTree least phrase tree ∧ tree.flat = first ++ more ∧
            signed tokens = some (first, mid) ∧ mid <:+ tokens ∧
            Matcher.Takes (Matcher.seq between signed) mid more rest

/-- An operator of a row, which takes tokens and leaves a pair that joins operands. -/
def Joining {β : Type} (whole : List Token) (operators : Operators)
    (IsTree : Phrase → Grouped → Prop) (between : Matcher) (strength : Nat)
    (join : β → Phrase → Phrase → Phrase) (operator : Reader β) : Prop :=
  ∀ tokens, tokens <:+ whole → ∀ op rest, Finds operator tokens op rest →
    rest <:+ tokens ∧ rest.length < tokens.length ∧
      ∃ pair, between tokens = some ([pair], rest) ∧
        JoinsAt operators IsTree strength (join op) pair

variable {whole : List Token} {signed between : Matcher} {stuck : List Token → Prop}
  {reader : Reader Phrase} {β : Type} {operator : Reader β} {join : β → Phrase → Phrase → Phrase}

/-- A chain goes on from a left operand by rounds, until it is stuck. -/
theorem AtLevel.chain_from
    (h : AtLevel whole operators IsTree signed between least stuck reader) (hlt : strength < least)
    (hop : Joining whole operators IsTree between strength join operator)
    {clock tokens rest : List Token} {left result : Phrase} {leftTree : Grouped}
    {furthest : Furthest} (htokens : tokens <:+ whole) (hclock : tokens.length ≤ clock.length)
    (hstuck : stuck tokens) (hleft : TreeOf operators IsTree strength left leftTree)
    (hfinds : Finds (Reader.chainFrom operator reader join clock left furthest) tokens result
      rest) :
    rest <:+ tokens ∧ (stuck rest ∧ Stuck operator reader rest) ∧ ∃ tree more,
      TreeOf operators IsTree strength result tree ∧ tree.flat = leftTree.flat ++ more ∧
        Matcher.Takes (Matcher.seq between signed) tokens more rest := by
  -- The clock is long enough, so a chain ends only where it is stuck.
  induction clock generalizing tokens left leftTree furthest with
  | nil =>
      obtain rfl : tokens = [] := List.eq_nil_of_length_eq_zero (Nat.le_zero.mp hclock)
      cases hfinds
      refine ⟨List.suffix_refl _, ⟨hstuck, fun op mid hfinds => ?_⟩, leftTree, [], hleft,
        (List.append_nil _).symm, .nil _⟩
      exact absurd (hop [] htokens op mid hfinds).2.1 (Nat.not_lt_zero _)
  | cons _ clock ih =>
      unfold Finds Reader.chainFrom at hfinds
      dsimp only at hfinds
      split at hfinds
      · next hmiss =>
          cases hfinds
          exact ⟨List.suffix_refl _, ⟨hstuck, stuck_of_misses_pair hmiss⟩, leftTree, [], hleft,
            (List.append_nil _).symm, .nil _⟩
      · next op right following hround =>
          obtain ⟨mid, hoperator, hright⟩ := Reader.finds_pair.mp hround
          obtain ⟨hmid, hlength, pair, hbetween, hpair⟩ := hop tokens htokens op mid hoperator
          obtain ⟨hfollowing, hends, rightTree, first, mid', more, hrightTree, hflat, hsigned,
            hmid', hmore⟩ := (h mid (hmid.trans htokens)).2 right following hright
          have hshort := hfollowing.length_le
          have hshort' := hmid'.length_le
          rw [List.length_cons] at hclock
          obtain ⟨hrest, hstuck, tree, others, htree, hflat', hothers⟩ :=
            ih ((hfollowing.trans hmid).trans htokens) (by omega) hends
              (hleft.joined hpair hrightTree hlt) hfinds
          have hpart : Matcher.seq between signed tokens = some ([pair] ++ first, mid') := by
            rw [Matcher.seq_eq hbetween, hsigned]
            rfl
          refine ⟨(hrest.trans hfollowing).trans hmid, hstuck, tree, _, htree, ?_,
            .cons hpart (by omega) (hmore.append hothers)⟩
          rw [hflat', Grouped.flat, hflat]
          simp

/-- Where a chain is stuck behind an operator, the row has no round. -/
theorem Stuck.seq_eq_none {tokens mid : List Token} {op : β} (h : Stuck operator reader tokens)
    (hop : Joining whole operators IsTree between strength join operator)
    (hlevel : AtLevel whole operators IsTree signed between least stuck reader)
    (htokens : tokens <:+ whole) (hfinds : Finds operator tokens op mid) :
    Matcher.seq between signed tokens = none := by
  obtain ⟨hmid, -, pair, hbetween, -⟩ := hop tokens htokens op mid hfinds
  rw [Matcher.seq_eq hbetween, (hlevel mid (hmid.trans htokens)).1 (h op mid hfinds)]
  rfl

/-- A chain takes a level to that of its operator. -/
theorem AtLevel.chain (h : AtLevel whole operators IsTree signed between least stuck reader)
    (hlt : strength < least) (hop : Joining whole operators IsTree between strength join operator) :
    AtLevel whole operators IsTree signed between strength
      (fun rest => stuck rest ∧ Stuck operator reader rest)
      (Reader.chain operator reader join) := by
  intro tokens htokens
  obtain ⟨hnone, hsome⟩ := h tokens htokens
  constructor
  · intro hmiss
    obtain hmiss | ⟨first, mid, -, hmiss⟩ := (Reader.misses_bind reader _ tokens).mp hmiss
    · exact hnone hmiss
    · exact absurd hmiss (not_misses_chain_from _ _ _ _ _ _ _)
  · intro phrase rest hfinds
    obtain ⟨left, mid, hleft, hfinds⟩ := (Reader.finds_bind reader _ tokens _ _).mp hfinds
    obtain ⟨hmid, hends, leftTree, first, mid', more, htree, hflat, hsigned, hmid', hmore⟩ :=
      hsome left mid hleft
    have hloose : TreeOf operators IsTree strength left leftTree :=
      { htree with
        bound := htree.bound.mono fun _ hle => Nat.le_of_lt (Nat.lt_of_lt_of_le hlt hle) }
    obtain ⟨hrest, hstuck, tree, others, htree', hflat', hothers⟩ :=
      h.chain_from hlt hop (hmid.trans htokens) (Nat.le_refl _) hends hloose hfinds
    refine ⟨hrest.trans hmid, hstuck, tree, first, mid', more ++ others, htree', ?_, hsigned, hmid',
      hmore.append hothers⟩
    rw [hflat', hflat, List.append_assoc]

/-! ## Rows -/

variable {γ δ : Type} {sign : Reader γ} {wrap : γ → Phrase → Phrase} {operand : Reader Phrase}
  {front row : Matcher}

/-- The pairs of an operand under operators, without operators between operands. -/
def IsOperand (operators : Operators) (IsTree : Phrase → Grouped → Prop) (phrase : Phrase)
    (pairs : List Pair) : Prop :=
  ∃ tree, IsTree phrase tree ∧ tree.Fits operators ∧ tree.joint? = none ∧ pairs = tree.flat

/-- An operand under its operators leaves the pairs of the operators and then its own. -/
theorem agrees_prefixed_from
    (hsign : Agrees whole (Single fun op => FrontsWith operators IsTree (wrap op)) sign front)
    (hoperand : Agrees whole (Single fun phrase pair =>
      operators pair.rule = none ∧ IsTree phrase (.operand pair)) operand row)
    (clock : List Token) :
    Agrees whole (IsOperand operators IsTree) (Reader.prefixedFrom sign operand wrap clock)
      (Matcher.seq (Matcher.manyFrom front clock) row) := by
  have hplain : Agrees whole (IsOperand operators IsTree) operand row :=
    hoperand.imp fun phrase _ ⟨pair, hpairs, hrule, htree⟩ =>
      ⟨.operand pair, htree, hrule, rfl, hpairs⟩
  have hnothing {clock tokens : List Token}
      (hfront : Matcher.manyFrom front clock tokens = some ([], tokens)) :
      Matcher.seq (Matcher.manyFrom front clock) row tokens = row tokens := by
    rw [Matcher.seq_eq hfront]
    exact Option.map_id'
  induction clock with
  | nil =>
      intro tokens htokens
      rw [hnothing rfl]
      exact hplain tokens htokens
  | cons next clock ih =>
      intro tokens htokens
      unfold Misses Finds Reader.prefixedFrom
      dsimp only
      split
      · next hmiss =>
          rw [hnothing (by rw [Matcher.manyFrom, (hsign tokens htokens).1 hmiss])]
          exact hplain tokens htokens
      · next op mid hop =>
          obtain ⟨hmid, _, hfront, pair, rfl, hpair⟩ := (hsign tokens htokens).2 op mid hop
          obtain ⟨hnone, hsome⟩ := ih mid (hmid.trans htokens)
          rw [Matcher.seq_many_from_cons hfront]
          constructor
          · intro hmiss
            rw [hnone (Option.map_eq_none_iff.mp hmiss)]
            rfl
          · intro phrase rest hfinds
            obtain ⟨⟨inner, _⟩, hinner, ⟨⟩⟩ := Option.map_eq_some_iff.mp hfinds
            obtain ⟨hrest, _, hmatch, tree, htree, hfits, hjoint, rfl⟩ := hsome inner _ hinner
            rw [hmatch]
            exact ⟨hrest.trans hmid, _, rfl, .under pair tree, hpair.isTree htree,
              ⟨hpair.front, hjoint, hfits⟩, rfl, rfl⟩

/-- An operand under its operators is the tightest level. -/
theorem at_level_prefixed
    (hsign : Agrees whole (Single fun op => FrontsWith operators IsTree (wrap op)) sign front)
    (hoperand : Agrees whole (Single fun phrase pair =>
      operators pair.rule = none ∧ IsTree phrase (.operand pair)) operand row)
    (least : Nat) :
    AtLevel whole operators IsTree (Matcher.seq (Matcher.many front) row) between least
      (fun _ => True) (Reader.prefixed sign operand wrap) := by
  intro tokens htokens
  obtain ⟨hnone, hsome⟩ := agrees_prefixed_from hsign hoperand tokens tokens htokens
  refine ⟨hnone, fun phrase rest hfinds => ?_⟩
  obtain ⟨hrest, _, hmatch, tree, htree, hfits, hjoint, rfl⟩ := hsome phrase rest hfinds
  exact ⟨hrest, trivial, tree, tree.flat, rest, [],
    ⟨htree, hfits, Grouped.bound_by_of_joint_eq_none hjoint _⟩, (List.append_nil _).symm, hmatch,
    hrest, .nil _⟩

/-- Operators of two strengths between operands under operators are a row of operands. -/
theorem agrees_operands {tight : Reader β} {loose : Reader δ}
    {joinTight : β → Phrase → Phrase → Phrase} {joinLoose : δ → Phrase → Phrase → Phrase}
    {tightRow looseRow : Matcher} {strong weak : Nat}
    (hsign : Agrees whole (Single fun op => FrontsWith operators IsTree (wrap op)) sign front)
    (hoperand : Agrees whole (Single fun phrase pair =>
      operators pair.rule = none ∧ IsTree phrase (.operand pair)) operand row)
    (htight : Agrees whole (Single fun op => JoinsAt operators IsTree strong (joinTight op)) tight
      tightRow)
    (hloose : Agrees whole (Single fun op => JoinsAt operators IsTree weak (joinLoose op)) loose
      looseRow)
    (hlt : weak < strong)
    (htightTakes : ∀ tokens op rest, Finds tight tokens op rest →
      rest.length < tokens.length ∧ Misses loose tokens)
    (hlooseTakes : ∀ tokens op rest, Finds loose tokens op rest → rest.length < tokens.length) :
    Agrees whole
      (fun phrase pairs => ∃ tree, TreeOf operators IsTree weak phrase tree ∧ pairs = tree.flat)
      (Reader.chain loose (Reader.chain tight (Reader.prefixed sign operand wrap) joinTight)
        joinLoose)
      (Matcher.operands front (Matcher.choice looseRow tightRow) row) := by
  have hjoinTight : Joining whole operators IsTree (Matcher.choice looseRow tightRow) strong
      joinTight tight := by
    intro tokens htokens op rest hfinds
    obtain ⟨hlength, hmiss⟩ := htightTakes tokens op rest hfinds
    obtain ⟨hrest, _, hmatch, pair, rfl, hpair⟩ := (htight tokens htokens).2 op rest hfinds
    refine ⟨hrest, hlength, pair, ?_, hpair⟩
    rw [Matcher.choice_of_none ((hloose tokens htokens).1 hmiss), hmatch]
  have hjoinLoose : Joining whole operators IsTree (Matcher.choice looseRow tightRow) weak joinLoose
      loose := by
    intro tokens htokens op rest hfinds
    obtain ⟨hrest, _, hmatch, pair, rfl, hpair⟩ := (hloose tokens htokens).2 op rest hfinds
    exact ⟨hrest, hlooseTakes tokens op rest hfinds, pair, Matcher.choice_of_some hmatch _, hpair⟩
  have hsigned : AtLevel whole operators IsTree _ (Matcher.choice looseRow tightRow) _ _ _ :=
    at_level_prefixed hsign hoperand (strong + 1)
  have hproduct := hsigned.chain (Nat.lt_succ_self strong) hjoinTight
  have hsum := hproduct.chain hlt hjoinLoose
  intro tokens htokens
  obtain ⟨hnone, hsome⟩ := hsum tokens htokens
  refine ⟨fun hmiss => Matcher.seq_eq_none (hnone hmiss), fun phrase rest hfinds => ?_⟩
  obtain ⟨hrest, ⟨⟨-, hstuck⟩, hstuck'⟩, tree, first, mid, more, htree, hflat, hmatch, -, hmore⟩ :=
    hsome phrase rest hfinds
  -- Where both chains are stuck, no operator is followed by an operand.
  have hend : Matcher.seq (Matcher.choice looseRow tightRow)
      (Matcher.seq (Matcher.many front) row) rest = none := by
    have hwhole := hrest.trans htokens
    rcases loose.finds_or_misses rest with ⟨op, mid, hop⟩ | hmiss
    · exact hstuck'.seq_eq_none hjoinLoose hproduct hwhole hop
    rcases tight.finds_or_misses rest with ⟨op, mid, hop⟩ | hmiss'
    · exact hstuck.seq_eq_none hjoinTight hsigned hwhole hop
    · refine Matcher.seq_eq_none ?_
      rw [Matcher.choice_of_none ((hloose rest hwhole).1 hmiss), (htight rest hwhole).1 hmiss']
  refine ⟨hrest, tree.flat, ?_, tree, htree, rfl⟩
  rw [Matcher.operands, Matcher.seq_eq hmatch, hmore.many hend, hflat]
  rfl

end Levels

end MessageSelector
