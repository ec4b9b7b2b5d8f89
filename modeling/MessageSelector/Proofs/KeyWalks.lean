import MessageSelector.Proofs.IndexKeys

/-!
# Walks over a conjunction

A conjunction may nest as deep as it is long, so its keys are wanted without a recursion over the
tree. A walk keeps the expressions that it has not visited on a stack. `next_keeps` says that a
visit leaves the keys found and those to come together what they were, and `run_walk` that the walk
ends with the keys of the expression, in the order in which they are written.
-/

namespace MessageSelector

/-- A walk: the expressions that are not visited yet, the next one first, and the keys found. -/
structure KeyWalk where
  pending : List Expr
  found : List IndexKey

namespace KeyWalk

/-- The walk before its first visit. -/
def start (e : Expr) : KeyWalk :=
  ⟨[e], []⟩

/-- The walk after one more visit. A conjunction makes way for its operands, of which the left one
is visited first. Any other expression adds its key, if it has one. -/
def next : KeyWalk → Option KeyWalk
  | ⟨[], _⟩ => none
  | ⟨.and left right :: pending, found⟩ => some ⟨left :: right :: pending, found⟩
  | ⟨e :: pending, found⟩ => some ⟨pending, found ++ e.key?.toList⟩

/-- The walk after exactly this many visits. -/
def run : Nat → KeyWalk → Option KeyWalk
  | 0, walk => some walk
  | visits + 1, walk => next walk >>= run visits

/-- The keys found with those that are still to come. -/
def outcome (walk : KeyWalk) : List IndexKey :=
  walk.found ++ walk.pending.flatMap Expr.keys

/-- How many visits are to come. -/
def remaining (walk : KeyWalk) : Nat :=
  (walk.pending.map fun e => 2 * e.conjuncts.length - 1).sum

end KeyWalk

namespace Expr

/-- An expression other than a conjunction is its only conjunct. -/
theorem conjuncts_of_leaf {e : Expr} (h : ∀ left right, e ≠ and left right) :
    e.conjuncts = [e] := by
  cases e with
  | and left right => exact absurd rfl (h left right)
  | _ => rfl

/-- No conjunct is a conjunction itself. -/
theorem leaf_of_conjunct {e part : Expr} (h : part ∈ e.conjuncts) :
    ∀ left right, part ≠ and left right := by
  induction e with
  | and left right ihLeft ihRight =>
      rw [conjuncts_and, List.mem_append] at h
      exact h.elim ihLeft ihRight
  | _ =>
      rw [conjuncts_of_leaf (by simp), List.mem_singleton] at h
      subst h
      simp

/-- There is at least one conjunct. -/
theorem length_conjuncts_pos (e : Expr) : 0 < e.conjuncts.length := by
  induction e with
  | and left right ihLeft _ =>
      rw [conjuncts_and, List.length_append]
      exact Nat.add_pos_left ihLeft _
  | _ => exact Nat.one_pos

/-- An expression other than a conjunction has its own key and no other. -/
theorem keys_of_leaf {e : Expr} (h : ∀ left right, e ≠ and left right) :
    e.keys = e.key?.toList := by
  rw [keys, conjuncts_of_leaf h]
  cases hkey : e.key? <;> simp [hkey]

end Expr

namespace KeyWalk

/-- A visit of an expression other than a conjunction takes it off the stack. -/
theorem next_of_leaf {e : Expr} (h : ∀ left right, e ≠ .and left right) (pending : List Expr)
    (found : List IndexKey) :
    next ⟨e :: pending, found⟩ = some ⟨pending, found ++ e.key?.toList⟩ := by
  cases e with
  | and left right => exact absurd rfl (h left right)
  | _ => rfl

/-- A visit keeps the outcome and leaves one visit less to come. -/
theorem next_keeps {walk following : KeyWalk} (h : next walk = some following) :
    following.outcome = walk.outcome ∧ following.remaining + 1 = walk.remaining := by
  obtain ⟨pending, found⟩ := walk
  cases pending with
  | nil => cases h
  | cons e pending =>
      by_cases hand : ∃ left right, e = .and left right
      · obtain ⟨left, right, rfl⟩ := hand
        cases h
        have hleft := left.length_conjuncts_pos
        have hright := right.length_conjuncts_pos
        constructor
        · simp only [outcome, List.flatMap_cons, Expr.keys_and, List.append_assoc]
        · simp only [remaining, List.map_cons, List.sum_cons, Expr.conjuncts_and,
            List.length_append]
          omega
      · have hleaf : ∀ left right, e ≠ .and left right :=
          fun left right heq => hand ⟨left, right, heq⟩
        rw [next_of_leaf hleaf] at h
        cases h
        constructor
        · simp only [outcome, List.flatMap_cons, Expr.keys_of_leaf hleaf, List.append_assoc]
        · simp only [remaining, List.map_cons, List.sum_cons, Expr.conjuncts_of_leaf hleaf,
            List.length_singleton]
          omega

/-- As long as an expression is pending there is a next visit. -/
theorem next_of_pending (e : Expr) (pending : List Expr) (found : List IndexKey) :
    ∃ following, next ⟨e :: pending, found⟩ = some following := by
  cases e <;> exact ⟨_, rfl⟩

/-- A walk ends after the visits that are to come, with its outcome. -/
theorem run_remaining {visits : Nat} {walk : KeyWalk} (h : walk.remaining = visits) :
    run visits walk = some ⟨[], walk.outcome⟩ := by
  induction visits generalizing walk with
  | zero =>
      obtain ⟨_ | ⟨e, pending⟩, found⟩ := walk
      · simp [run, outcome]
      · -- Whatever is pending has a conjunct, and so a visit to come.
        have hpos := e.length_conjuncts_pos
        simp only [remaining, List.map_cons, List.sum_cons] at h
        omega
  | succ visits ih =>
      obtain ⟨_ | ⟨e, pending⟩, found⟩ := walk
      · cases h
      · obtain ⟨following, hnext⟩ := next_of_pending e pending found
        obtain ⟨hout, hless⟩ := next_keeps hnext
        rw [run, hnext, ← hout]
        exact ih (by omega)

/-- A walk over an expression ends with its keys. It visits every conjunct and every AND between
two of them. -/
theorem run_walk (e : Expr) :
    run (2 * e.conjuncts.length - 1) (start e) = some ⟨[], e.keys⟩ := by
  have hremaining : (start e).remaining = 2 * e.conjuncts.length - 1 := by
    simp only [start, remaining, List.map_cons, List.map_nil, List.sum_cons, List.sum_nil,
      Nat.add_zero]
  have houtcome : (start e).outcome = e.keys := by
    simp only [start, outcome, List.flatMap_cons, List.flatMap_nil, List.append_nil,
      List.nil_append]
  rw [run_remaining hremaining, houtcome]

end KeyWalk

namespace Expr

/-! ## Keys of conjuncts -/

/-- What a condition offers to an index: an equality of a name and a literal, in either order,
offers the literal, and a list test of a name the distinct members of its list. -/
inductive Offers : Expr → IndexKey → Prop where
  | literal (name value) :
      Offers (comparison .equal (identifier name) (literal value)) ⟨name, [value]⟩
  | mirrored (value name) :
      Offers (comparison .equal (literal value) (identifier name)) ⟨name, [value]⟩
  | list (name items) :
      Offers (inList (identifier name) items false) ⟨name, (distinct items).map .string⟩

/-- The key of a conjunct is what it offers. -/
theorem key_eq_some_iff (part : Expr) (key : IndexKey) :
    part.key? = some key ↔ Offers part key := by
  constructor
  · intro h
    unfold key? at h
    split at h
    · cases h
      exact .literal _ _
    · cases h
      exact .mirrored _ _
    · cases h
      exact .list _ _
    · cases h
  · intro h
    cases h <;> rfl

/-- Of conjuncts in a row each that offers something has its key in the row of keys. -/
theorem offers_of_conjuncts (parts : List Expr) :
    List.Forall₂ Offers (parts.filter (·.key?.isSome)) (parts.filterMap key?) := by
  induction parts with
  | nil => exact .nil
  | cons part parts ih =>
      cases hkey : part.key? with
      | none =>
          rw [List.filter_cons_of_neg (by simp [hkey]), List.filterMap_cons_none hkey]
          exact ih
      | some key =>
          rw [List.filter_cons_of_pos (by simp [hkey]), List.filterMap_cons_some hkey]
          exact .cons ((key_eq_some_iff part key).mp hkey) ih

/-! ## Regrouping -/

/-- The first expression is the second with some of its ANDs grouped in another way. -/
inductive Regrouped : Expr → Expr → Prop where
  | refl (e) : Regrouped e e
  | right (a b c) : Regrouped (and (and a b) c) (and a (and b c))
  | left (a b c) : Regrouped (and a (and b c)) (and (and a b) c)
  | inside {a b c d} : Regrouped a c → Regrouped b d → Regrouped (and a b) (and c d)
  | trans {e f g} : Regrouped e f → Regrouped f g → Regrouped e g

/-- Conjuncts stay in their order however the ANDs between them are grouped. -/
theorem Regrouped.keys_eq {e f : Expr} (h : Regrouped e f) : e.keys = f.keys := by
  induction h with
  | refl => rfl
  | right a b c | left a b c => simp only [keys_and, List.append_assoc]
  | inside _ _ ihLeft ihRight => rw [keys_and, keys_and, ihLeft, ihRight]
  | trans _ _ ih ih' => exact ih.trans ih'

/-- Keys are collected by a walk with a stack, which ends with one key for each conjunct that offers
one, in the order in which the conjuncts are written. So the keys of a conjunction are those of its
operands, however the ANDs are grouped, and any other expression has one key at most. -/
theorem keys_walked (e : Expr) :
    KeyWalk.run (2 * e.conjuncts.length - 1) (.start e) = some ⟨[], e.keys⟩ ∧
      List.Forall₂ Offers (e.conjuncts.filter (·.key?.isSome)) e.keys ∧
      (∀ part ∈ e.conjuncts, (∀ left right, part ≠ and left right) ∧
        (part.key? = none → ∀ key, ¬ Offers part key)) ∧
      (∀ left right, (and left right).conjuncts = left.conjuncts ++ right.conjuncts ∧
        (and left right).keys = left.keys ++ right.keys) ∧
      (∀ other, Regrouped e other → other.keys = e.keys) ∧
      ((∀ left right, e ≠ and left right) → e.conjuncts = [e] ∧ e.keys.length ≤ 1) := by
  refine ⟨KeyWalk.run_walk e, offers_of_conjuncts e.conjuncts, fun part hpart => ⟨?_, ?_⟩,
    fun left right => ⟨conjuncts_and left right, keys_and left right⟩,
    fun other h => h.keys_eq.symm, fun hleaf => ⟨conjuncts_of_leaf hleaf, ?_⟩⟩
  · exact leaf_of_conjunct hpart
  · intro hnone key hoffers
    rw [(key_eq_some_iff part key).mpr hoffers] at hnone
    cases hnone
  · rw [keys_of_leaf hleaf]
    cases e.key? <;> simp

end Expr

end MessageSelector
