import MessageSelector.Proofs.Doubles.Zeros
import MessageSelector.Proofs.Layers
import MessageSelector.Proofs.NumericOrder

/-!
# Sameness of expressions

Two expressions are the same where they match: they have one shape and the same parts at every
node, literals by the sameness of values. A loop over pairs of expressions decides it without a
recursion over the trees: `match_next_keeps` says that a round changes neither the answer nor that
there is one, and `match_run` that the loop ends with it. Only the undefined number is not the same
as itself, so every expression without it is.
-/

namespace MessageSelector

/-! ## Values -/

namespace Value

/-- Doubles are the same where their order is that of equal ones. -/
theorem double_beq_eq (x y : Float) : (x == y) = (doubleOrder? x y == some .eq) := by
  rw [double_order_eq]
  rfl

/-- Doubles are the same whichever comes first. -/
theorem double_beq_symm {x y : Float} (h : (x == y) = true) : (y == x) = true := by
  rw [double_beq_eq, beq_iff_eq] at h ⊢
  rw [double_order_swap x y, h]
  rfl

/-- Doubles that are the same as one are the same as each other. -/
theorem double_beq_trans {x y z : Float} (hxy : (x == y) = true) (hyz : (y == z) = true) :
    (x == z) = true := by
  rw [double_beq_eq] at hyz ⊢
  rwa [(Double.alike_of_beq hxy).order_eq Double.Alike.rfl]

/-- Every double but the undefined number is the same as itself. -/
theorem double_beq_self (x : Float) : (x == x) = !x.isNaN := by
  rw [double_beq_eq]
  cases hnan : x.isNaN with
  | true =>
      rw [double_order_of_nan hnan]
      rfl
  | false =>
      rw [Double.double_order_of_rank hnan hnan, Int.compare_eq_eq.mpr rfl]
      rfl

/-- Whether a value is the undefined number. -/
def isUndefined : Value → Bool
  | float number => number.isNaN
  | string _ | integer _ | boolean _ => false

/-- Every value but the undefined number is the same as itself. -/
theorem beq_self (a : Value) : (a == a) = !a.isUndefined := by
  cases a with
  | string text => exact beq_self_eq_true text
  | integer number => exact beq_self_eq_true number
  | float number => exact double_beq_self number
  | boolean flag => exact beq_self_eq_true flag

/-- Values that are the same are one value, or doubles that are the same. -/
theorem eq_or_doubles_of_beq {a b : Value} (h : (a == b) = true) :
    a = b ∨ ∃ x y, a = float x ∧ b = float y ∧ (x == y) = true := by
  change instBEqValue.beq a b = true at h
  cases a with
  | string s =>
      cases b with
      | string t => exact .inl (congrArg string (eq_of_beq h))
      | _ => cases h
  | integer m =>
      cases b with
      | integer n => exact .inl (congrArg integer (eq_of_beq h))
      | _ => cases h
  | float x =>
      cases b with
      | float y => exact .inr ⟨x, y, rfl, rfl, h⟩
      | _ => cases h
  | boolean s =>
      cases b with
      | boolean t => exact .inl (congrArg boolean (eq_of_beq h))
      | _ => cases h

/-- Values are the same whichever comes first, and values that are the same as one are the same as
each other. -/
instance : PartialEquivBEq Value where
  symm {a b} h := by
    obtain rfl | ⟨x, y, rfl, rfl, hxy⟩ := eq_or_doubles_of_beq h
    · exact h
    · exact double_beq_symm hxy
  trans {a b c} hab hbc := by
    obtain rfl | ⟨x, y, rfl, rfl, hxy⟩ := eq_or_doubles_of_beq hab
    · exact hbc
    · obtain rfl | ⟨_, z, ⟨⟩, rfl, hyz⟩ := eq_or_doubles_of_beq hbc
      · exact hab
      · exact double_beq_trans hxy hyz

end Value

namespace Expr

/-! ## Matching expressions -/

/-- Two expressions of one shape with the same parts at every node. -/
inductive Matches : Expr → Expr → Prop where
  | identifier (name) : Matches (identifier name) (identifier name)
  | literal {a b : Value} : (a == b) = true → Matches (literal a) (literal b)
  | not {a b} : Matches a b → Matches (not a) (not b)
  | and {a b c d} : Matches a c → Matches b d → Matches (and a b) (and c d)
  | or {a b c d} : Matches a c → Matches b d → Matches (or a b) (or c d)
  | comparison (op) {a b c d} :
      Matches a c → Matches b d → Matches (comparison op a b) (comparison op c d)
  | arithmetic (op) {a b c d} :
      Matches a c → Matches b d → Matches (arithmetic op a b) (arithmetic op c d)
  | signed (sign) {a b} : Matches a b → Matches (signed sign a) (signed sign b)
  | between (negated) {a low high b low' high'} :
      Matches a b → Matches low low' → Matches high high' →
      Matches (between a low high negated) (between b low' high' negated)
  | inList (items negated) {a b} :
      Matches a b → Matches (inList a items negated) (inList b items negated)
  | like (negated) {a b} {pattern pattern' : Like.Pattern} :
      pattern.text = pattern'.text → pattern.escape = pattern'.escape → Matches a b →
      Matches (like a pattern negated) (like b pattern' negated)
  | isNull (negated) {a b} : Matches a b → Matches (isNull a negated) (isNull b negated)

/-- Patterns with one text and one escape character are one pattern. -/
theorem pattern_eq {pattern pattern' : Like.Pattern} (htext : pattern.text = pattern'.text)
    (hescape : pattern.escape = pattern'.escape) : pattern = pattern' := by
  cases pattern
  cases htext
  cases hescape
  rfl

/-- Expressions that are the same match. -/
theorem matches_of_same {e f : Expr} (h : e.same f = true) : Matches e f := by
  fun_induction same e f with
  | case1 a b => exact eq_of_beq h ▸ .identifier a
  | case2 a b => exact .literal h
  | case3 a b ih => exact .not (ih h)
  | case4 a b c d iha ihb =>
      obtain ⟨ha, hb⟩ := Bool.and_eq_true_iff.mp h
      exact .and (iha ha) (ihb hb)
  | case5 a b c d iha ihb =>
      obtain ⟨ha, hb⟩ := Bool.and_eq_true_iff.mp h
      exact .or (iha ha) (ihb hb)
  | case6 op a b op' c d iha ihb =>
      simp only [Bool.and_eq_true, beq_iff_eq] at h
      obtain ⟨⟨rfl, ha⟩, hb⟩ := h
      exact .comparison op (iha ha) (ihb hb)
  | case7 op a b op' c d iha ihb =>
      simp only [Bool.and_eq_true, beq_iff_eq] at h
      obtain ⟨⟨rfl, ha⟩, hb⟩ := h
      exact .arithmetic op (iha ha) (ihb hb)
  | case8 sign a sign' b ih =>
      simp only [Bool.and_eq_true, beq_iff_eq] at h
      obtain ⟨rfl, ha⟩ := h
      exact .signed sign (ih ha)
  | case9 a low high negated b low' high' negated' iha ihLow ihHigh =>
      simp only [Bool.and_eq_true, beq_iff_eq] at h
      obtain ⟨⟨⟨ha, hlow⟩, hhigh⟩, rfl⟩ := h
      exact .between negated (iha ha) (ihLow hlow) (ihHigh hhigh)
  | case10 a items negated b items' negated' ih =>
      simp only [Bool.and_eq_true, beq_iff_eq] at h
      obtain ⟨⟨ha, rfl⟩, rfl⟩ := h
      exact .inList items negated (ih ha)
  | case11 a pattern negated b pattern' negated' ih =>
      simp only [Bool.and_eq_true, beq_iff_eq] at h
      obtain ⟨⟨ha, rfl⟩, rfl⟩ := h
      exact .like negated rfl rfl (ih ha)
  | case12 a negated b negated' ih =>
      simp only [Bool.and_eq_true, beq_iff_eq] at h
      obtain ⟨ha, rfl⟩ := h
      exact .isNull negated (ih ha)
  | case13 => cases h

/-- Expressions that match are the same. -/
theorem Matches.same {e f : Expr} (h : Matches e f) : e.same f = true := by
  induction h with
  | identifier name => exact beq_self_eq_true name
  | literal hvalue => exact hvalue
  | not _ ih => exact ih
  | like negated htext hescape _ ih =>
      obtain rfl := pattern_eq htext hescape
      simp [Expr.same, ih]
  | signed _ _ ih | inList _ _ _ ih | isNull _ _ ih => simp [Expr.same, ih]
  | and _ _ ih ih' | or _ _ ih ih' | comparison _ _ _ ih ih' | arithmetic _ _ _ ih ih' =>
      simp [Expr.same, ih, ih']
  | between _ _ _ _ ih ihLow ihHigh => simp [Expr.same, ih, ihLow, ihHigh]

/-- Expressions match whichever comes first. -/
theorem Matches.symm {e f : Expr} (h : Matches e f) : Matches f e := by
  induction h with
  | identifier name => exact .identifier name
  | literal hvalue => exact .literal (BEq.symm hvalue)
  | not _ ih => exact .not ih
  | and _ _ ih ih' => exact .and ih ih'
  | or _ _ ih ih' => exact .or ih ih'
  | comparison op _ _ ih ih' => exact .comparison op ih ih'
  | arithmetic op _ _ ih ih' => exact .arithmetic op ih ih'
  | signed sign _ ih => exact .signed sign ih
  | between negated _ _ _ ih ihLow ihHigh => exact .between negated ih ihLow ihHigh
  | inList items negated _ ih => exact .inList items negated ih
  | like negated htext hescape _ ih => exact .like negated htext.symm hescape.symm ih
  | isNull negated _ ih => exact .isNull negated ih

/-- Expressions that match one match each other. -/
theorem Matches.trans {e f g : Expr} (hef : Matches e f) (hfg : Matches f g) : Matches e g := by
  induction hef generalizing g with
  | identifier name => exact hfg
  | literal hvalue =>
      cases hfg with
      | literal hvalue' => exact .literal (PartialEquivBEq.trans hvalue hvalue')
  | not _ ih => cases hfg with | not h => exact .not (ih h)
  | and _ _ ih ih' => cases hfg with | and h h' => exact .and (ih h) (ih' h')
  | or _ _ ih ih' => cases hfg with | or h h' => exact .or (ih h) (ih' h')
  | comparison op _ _ ih ih' =>
      cases hfg with | comparison _ h h' => exact .comparison op (ih h) (ih' h')
  | arithmetic op _ _ ih ih' =>
      cases hfg with | arithmetic _ h h' => exact .arithmetic op (ih h) (ih' h')
  | signed sign _ ih => cases hfg with | signed _ h => exact .signed sign (ih h)
  | between negated _ _ _ ih ihLow ihHigh =>
      cases hfg with
      | between _ h hlow hhigh => exact .between negated (ih h) (ihLow hlow) (ihHigh hhigh)
  | inList items negated _ ih => cases hfg with | inList _ _ h => exact .inList items negated (ih h)
  | like negated htext hescape _ ih =>
      cases hfg with
      | like _ htext' hescape' h =>
          exact .like negated (htext.trans htext') (hescape.trans hescape') (ih h)
  | isNull negated _ ih => cases hfg with | isNull _ h => exact .isNull negated (ih h)

/-- Expressions are the same where they match. -/
theorem same_iff_matches (e f : Expr) : e.same f = true ↔ Matches e f :=
  ⟨matches_of_same, Matches.same⟩

/-! ## The loop -/

/-- Expressions are the same where their outermost layers have one shape and their operands are the
same pair by pair. -/
theorem same_eq_layers (a b : Expr) :
    a.same b =
      (a.layer.shape == b.layer.shape &&
        (a.operands.zip b.operands).all fun p => p.1.same p.2) := by
  -- Expressions with different roots differ, and so do their layers.
  cases a <;> cases b <;> try rfl
  case identifier.identifier | literal.literal | not.not => exact (Bool.and_true _).symm
  case and.and a b c d | or.or a b c d => exact congrArg (a.same c && ·) (Bool.and_true _).symm
  case comparison.comparison op a b op' c d | arithmetic.arithmetic op a b op' c d =>
    show (op == op' && a.same c && b.same d) =
      ((op == op' && true) && (a.same c && (b.same d && true)))
    rw [Bool.and_true, Bool.and_true, Bool.and_assoc]
  case signed.signed sign a sign' b =>
    show (sign == sign' && a.same b) = ((sign == sign' && true) && (a.same b && true))
    rw [Bool.and_true, Bool.and_true]
  case between.between a low high negated b low' high' negated' =>
    show (a.same b && low.same low' && high.same high' && negated == negated') =
      ((negated == negated') && (a.same b && (low.same low' && (high.same high' && true))))
    rw [Bool.and_true, Bool.and_comm, Bool.and_assoc (a.same b)]
  case inList.inList a items negated b items' negated' =>
    show (a.same b && items == items' && negated == negated') =
      ((items == items' && negated == negated') && (a.same b && true))
    rw [Bool.and_true, Bool.and_assoc, Bool.and_comm]
  case like.like a pattern negated b pattern' negated' =>
    show (a.same b && pattern == pattern' && negated == negated') =
      ((pattern == pattern' && negated == negated') && (a.same b && true))
    rw [Bool.and_true, Bool.and_assoc, Bool.and_comm]
  case isNull.isNull a negated b negated' =>
    show (a.same b && negated == negated') = ((negated == negated') && (a.same b && true))
    rw [Bool.and_true, Bool.and_comm]

/-- One round of the loop: the answer, or the pairs that are still to be compared. The topmost pair
is taken off, and if its layers have one shape, the pairs of its operands go on top of the others,
the last one topmost. -/
def matchNext : List (Expr × Expr) → Bool ⊕ List (Expr × Expr)
  | [] => .inl true
  | (a, b) :: pending =>
    let (shape, children) := a.layer.split
    let (shape', children') := b.layer.split
    if shape == shape' then .inr ((children.zip children').reverse ++ pending) else .inl false

/-- The answer of the loop, if it comes within this many rounds. -/
def matchRun : Nat → List (Expr × Expr) → Option Bool
  | 0, _ => none
  | rounds + 1, pending =>
    match matchNext pending with
    | .inl answer => some answer
    | .inr rest => matchRun rounds rest

/-- How many operators, names and literals an expression is made of. -/
def nodes (e : Expr) : Nat :=
  e.collapse fun layer => layer.children.sum + 1

/-- The nodes of an expression are those of its operands and its root. -/
theorem nodes_eq (e : Expr) : e.nodes = (e.operands.map nodes).sum + 1 := by
  rw [nodes, collapse_eq, Layer.children_map]
  rfl

/-- Whether all pairs are of expressions that are the same. -/
def allSame (pending : List (Expr × Expr)) : Bool :=
  pending.all fun p => p.1.same p.2

/-- How many nodes are pending on the left. -/
def pendingNodes (pending : List (Expr × Expr)) : Nat :=
  (pending.map fun p => p.1.nodes).sum

/-- Pairing leaves no more nodes on the left than there are. -/
theorem pending_nodes_zip_le (children children' : List Expr) :
    pendingNodes (children.zip children') ≤ (children.map nodes).sum := by
  induction children generalizing children' with
  | nil => exact Nat.le_refl 0
  | cons child children ih =>
      cases children' with
      | nil => exact Nat.zero_le _
      | cons child' children' => exact Nat.add_le_add_left (ih children') child.nodes

/-- A round that answers gives the answer for all pairs, and any other keeps it and leaves fewer
nodes pending. -/
theorem match_next_keeps (pending : List (Expr × Expr)) :
    match matchNext pending with
    | .inl answer => answer = allSame pending
    | .inr rest => allSame rest = allSame pending ∧ pendingNodes rest < pendingNodes pending := by
  cases pending with
  | nil => rfl
  | cons pair pending =>
      obtain ⟨a, b⟩ := pair
      have hpair : allSame ((a, b) :: pending) = (a.same b && allSame pending) := rfl
      rw [hpair, same_eq_layers]
      simp only [matchNext, Layer.split_eq]
      cases hshape : a.layer.shape == b.layer.shape with
      | false => rfl
      | true =>
          constructor
          · show allSame ((a.operands.zip b.operands).reverse ++ pending) =
              (allSame (a.operands.zip b.operands) && allSame pending)
            simp only [allSame, List.all_append, List.all_reverse]
          · have hnodes := pending_nodes_zip_le a.operands b.operands
            show pendingNodes ((a.operands.zip b.operands).reverse ++ pending) <
              a.nodes + pendingNodes pending
            rw [nodes_eq]
            simp only [pendingNodes, List.map_append, List.map_reverse, List.sum_append,
              List.sum_reverse] at hnodes ⊢
            omega

/-- The loop answers for all pairs in more rounds than nodes are pending. -/
theorem match_run {rounds : Nat} {pending : List (Expr × Expr)}
    (h : pendingNodes pending < rounds) : matchRun rounds pending = some (allSame pending) := by
  induction rounds generalizing pending with
  | zero => exact absurd h (Nat.not_lt_zero _)
  | succ rounds ih =>
      have hkeeps := match_next_keeps pending
      rw [matchRun]
      cases hnext : matchNext pending with
      | inl answer =>
          rw [hnext] at hkeeps
          exact congrArg some hkeeps
      | inr rest =>
          rw [hnext] at hkeeps
          obtain ⟨hsame, hnodes⟩ := hkeeps
          show matchRun rounds rest = some (allSame pending)
          rw [ih (by omega), hsame]

/-! ## Expressions and themselves -/

/-- Whether a value is the same as itself. -/
def defined (value : Value) : Bool :=
  !value.isUndefined

/-- The literals of an expression are the expression itself, if it is one, and those of its
operands. -/
theorem literals_eq (e : Expr) :
    e.literals = e.literal?.toList ++ e.operands.flatMap literals := by
  cases e <;> rfl

/-- The shape of an expression is the same as itself unless it is the undefined number. -/
theorem shape_self (e : Expr) :
    (e.layer.shape == e.layer.shape) = e.literal?.toList.all defined := by
  cases e with
  | identifier name => exact beq_self_eq_true name
  | literal value => exact (Value.beq_self value).trans (Bool.and_true _).symm
  | not | and | or => rfl
  | comparison op => cases op <;> rfl
  | arithmetic op => cases op <;> rfl
  | signed sign => cases sign <;> rfl
  | between _ _ _ negated | isNull _ negated => exact beq_self_eq_true negated
  | inList _ items negated =>
      show (items == items && negated == negated) = true
      rw [beq_self_eq_true, beq_self_eq_true, Bool.and_true]
  | like _ pattern negated =>
      show (pattern == pattern && negated == negated) = true
      rw [beq_self_eq_true, beq_self_eq_true, Bool.and_true]

/-- An expression is the same as itself unless the undefined number is among its literals. -/
theorem same_self (e : Expr) : e.same e = e.literals.all defined := by
  induction e using induction_on_operands with
  | step e ih =>
      have hoperands : ((e.operands.zip e.operands).all fun p => p.1.same p.2) =
          (e.operands.flatMap literals).all defined := by
        rw [List.zip_eq_zipWith, List.zipWith_self, List.all_map, List.all_flatMap,
          Bool.eq_iff_iff, List.all_eq_true, List.all_eq_true]
        refine forall₂_congr fun operand hmem => ?_
        show operand.same operand = true ↔ operand.literals.all defined = true
        rw [ih operand hmem]
      rw [same_eq_layers, shape_self, hoperands, literals_eq, List.all_append]

/-- An expression differs from itself just if the undefined number is among its literals. -/
theorem same_self_eq_false_iff (e : Expr) :
    e.same e = false ↔ ∃ number, .float number ∈ e.literals ∧ number.isNaN = true := by
  rw [same_self, List.all_eq_false]
  constructor
  · rintro ⟨value, hmem, hvalue⟩
    cases value with
    | float number => exact ⟨number, hmem, by simpa [defined, Value.isUndefined] using hvalue⟩
    | string | integer | boolean => exact absurd rfl hvalue
  · rintro ⟨number, hmem, hnan⟩
    exact ⟨.float number, hmem, by simpa [defined, Value.isUndefined] using hnan⟩

/-- The loop ends and decides whether two expressions match. Matching is symmetric and transitive,
and an expression made anew matches the expression, as it does itself, unless the undefined number
is among its literals. -/
theorem matches_decided (a b : Expr) :
    matchRun (a.nodes + 1) [(a, b)] = some (a == b) ∧
    ((a == b) = true ↔ Matches a b) ∧
    (a == b) = (b == a) ∧
    (∀ c, (a == b) = true → (b == c) = true → (a == c) = true) ∧
    ((∀ number, .float number ∈ a.literals → number.isNaN = false) → (a.clone == a) = true) ∧
    ((a == a) = false ↔ ∃ number, .float number ∈ a.literals ∧ number.isNaN = true) := by
  refine ⟨?_, same_iff_matches a b, ?_, ?_, ?_, same_self_eq_false_iff a⟩
  · have hrun : matchRun (a.nodes + 1) [(a, b)] = some (allSame [(a, b)]) :=
      match_run (Nat.lt_succ_self a.nodes)
    rw [hrun]
    exact congrArg some (Bool.and_true (a.same b))
  · rw [Bool.eq_iff_iff]
    show a.same b = true ↔ b.same a = true
    rw [same_iff_matches, same_iff_matches]
    exact ⟨Matches.symm, Matches.symm⟩
  · intro c hab hbc
    exact ((matches_of_same hab).trans (matches_of_same hbc)).same
  · intro hdefined
    rw [clone_eq]
    by_contra hdiffers
    obtain ⟨number, hmem, hnan⟩ :=
      (same_self_eq_false_iff a).mp (Bool.eq_false_iff.mpr hdiffers)
    rw [hdefined number hmem] at hnan
    cases hnan

/-- A comparison with a zero is the same as one with the other zero, and the same as itself made
anew. -/
theorem matches_decided_zeros :
    (comparison .equal (identifier "a") (literal (.float 0.0)) ==
      comparison .equal (identifier "a") (literal (.float (-0.0)))) = true ∧
    (∀ number, .float number ∈
      (comparison .equal (identifier "a") (literal (.float 0.0))).literals →
        number.isNaN = false) ∧
    ((comparison .equal (identifier "a") (literal (.float 0.0))).clone ==
      comparison .equal (identifier "a") (literal (.float 0.0))) = true := by
  obtain ⟨-, hmatches, -, -, hclone, -⟩ := matches_decided
    (comparison .equal (identifier "a") (literal (.float 0.0)))
    (comparison .equal (identifier "a") (literal (.float (-0.0))))
  have hzeros : (Value.float 0.0 == Value.float (-0.0)) = true := by decide +kernel
  have hdefined : ∀ number, .float number ∈
      (comparison .equal (identifier "a") (literal (.float 0.0))).literals →
        number.isNaN = false := by
    intro number hmem
    obtain rfl : number = 0.0 := by simpa [literals, collapse, Layer.children] using hmem
    decide +kernel
  exact ⟨hmatches.mpr (.comparison .equal (.identifier "a") (.literal hzeros)), hdefined,
    hclone hdefined⟩

end Expr

end MessageSelector
