import MessageSelector.Proofs.Outcomes
import MessageSelector.Proofs.Pairs.Grammar

/-!
# Precedence climbing

Pairs of operands and operators stand in a row, and precedence climbing groups them. It gives up
where it meets the wrong kind of pair, or none. `climb_flat` says when it does not: the pairs of a
tree, in a row, are grouped as they are in the tree.
-/

namespace MessageSelector

/-- Where precedence climbing gives up. -/
inductive Panic where
  /-- There is no pair where an operand is to come. -/
  | noOperand
  /-- There is an operator between operands where an operand is to come. -/
  | notAnOperand (rule : Rule)
  /-- There is something else where an operator between operands is to come. -/
  | notAnOperator (rule : Rule)
  /-- The clock has run out. -/
  | outOfTime
  deriving DecidableEq, Repr

/-- Where an operator stands: in front of its operand, or in the middle of two. -/
inductive Fixity where
  | front
  | middle
  deriving DecidableEq, Repr

/-- The rules that are operators, with the strengths at which they take their operands. -/
def Operators := Rule → Option (Fixity × Nat)

section Climbing

variable {τ : Type} (operators : Operators) (primary : Pair → Except Panic τ)
  (front : Pair → τ → τ) (middle : τ → Pair → τ → τ)

mutual

/-- The operand at the front of the pairs, with all operators behind it that are stronger than a
limit, and the pairs left. -/
def climb : (clock limit : Nat) → List Pair → Except Panic (τ × List Pair)
  | 0, _, _ => .error .outOfTime
  | _ + 1, _, [] => .error .noOperand
  | clock + 1, limit, pair :: pairs =>
    match operators pair.rule with
    | some (.front, strength) => do
      let (operand, rest) ← climb clock (strength - 1) pairs
      climbOn clock limit (front pair operand) rest
    | some (.middle, _) => .error (.notAnOperand pair.rule)
    | none => do
      let operand ← primary pair
      climbOn clock limit operand pairs

/-- The operators at the front of the pairs that are stronger than a limit, with their operands,
after the operand on their left, and the pairs left. -/
def climbOn : (clock limit : Nat) → τ → List Pair → Except Panic (τ × List Pair)
  | _, _, left, [] => .ok (left, [])
  | 0, limit, left, pair :: pairs =>
    match operators pair.rule with
    | none => .error (.notAnOperator pair.rule)
    | some (_, strength) =>
      if limit < strength then .error .outOfTime else .ok (left, pair :: pairs)
  | clock + 1, limit, left, pair :: pairs =>
    match operators pair.rule with
    | none => .error (.notAnOperator pair.rule)
    | some (fixity, strength) =>
      if limit < strength then
        match fixity with
        | .middle => do
          let (right, rest) ← climb clock strength pairs
          climbOn clock limit (middle left pair right) rest
        | .front => .error (.notAnOperator pair.rule)
      else .ok (left, pair :: pairs)

end

/-- What pairs in a row amount to. Every step takes a pair, so the pairs bound the number of steps.
-/
def climbAll (pairs : List Pair) : Except Panic τ := do
  let (result, _) ← climb operators primary front middle pairs.length 0 pairs
  return result

end Climbing

/-- Pairs grouped under operators. -/
inductive Grouped where
  | operand (pair : Pair)
  | under (pair : Pair) (inner : Grouped)
  | joined (left : Grouped) (pair : Pair) (right : Grouped)

namespace Grouped

/-- The pairs in a row. -/
def flat : Grouped → List Pair
  | operand pair => [pair]
  | under pair inner => pair :: inner.flat
  | joined left pair right => left.flat ++ pair :: right.flat

/-- The operator between the operands of the whole. -/
def joint? : Grouped → Option Pair
  | joined _ pair _ => some pair
  | _ => none

/-- The steps that climbing takes before the whole is the operand on the left. -/
def steps : Grouped → Nat
  | operand _ | under _ _ => 1
  | joined left _ _ => left.steps + 1

/-- No more steps are taken than there are pairs. -/
theorem steps_le (tree : Grouped) : tree.steps ≤ tree.flat.length := by
  induction tree with
  | operand => exact Nat.le_refl _
  | under pair inner => exact Nat.succ_le_succ (Nat.zero_le _)
  | joined left pair right ih =>
      rw [flat, steps, List.length_append, List.length_cons]
      omega

/-- An operator between operands is at least, or more than, a strength. -/
def BoundBy (operators : Operators) (bound : Nat → Prop) (tree : Grouped) : Prop :=
  ∀ pair, tree.joint? = some pair → ∀ strength,
    operators pair.rule = some (.middle, strength) → bound strength

/-- What is bound by a strength is bound by less. -/
theorem BoundBy.mono {operators : Operators} {bound weaker : Nat → Prop} {tree : Grouped}
    (h : tree.BoundBy operators bound) (hmono : ∀ strength, bound strength → weaker strength) :
    tree.BoundBy operators weaker :=
  fun pair hjoint strength hpair => hmono strength (h pair hjoint strength hpair)

/-- Without an operator between operands there is nothing to bound. -/
theorem bound_by_of_joint_eq_none {operators : Operators} {tree : Grouped}
    (h : tree.joint? = none) (bound : Nat → Prop) : tree.BoundBy operators bound := by
  intro pair hjoint
  rw [h] at hjoint
  cases hjoint

/-- Operands are no operators, and operators take their operands as they are strong. -/
def Fits (operators : Operators) : Grouped → Prop
  | operand pair => operators pair.rule = none
  | under pair inner =>
    (∃ strength, operators pair.rule = some (.front, strength)) ∧ inner.joint? = none ∧
      inner.Fits operators
  | joined left pair right =>
    ∃ strength, operators pair.rule = some (.middle, strength) ∧
      left.BoundBy operators (strength ≤ ·) ∧ right.BoundBy operators (strength < ·) ∧
      left.Fits operators ∧ right.Fits operators

end Grouped

/-- Every operator in front of an operand is stronger than every one between operands. -/
def Operators.FrontFirst (operators : Operators) : Prop :=
  ∀ first second strong weak, operators first = some (.front, strong) →
    operators second = some (.middle, weak) → weak < strong

section Climbing

variable {τ : Type} {operators : Operators} {primary : Pair → Except Panic τ}
  {front : Pair → τ → τ} {middle : τ → Pair → τ → τ}

/-- What a tree amounts to. -/
inductive Grouped.Amounts (primary : Pair → Except Panic τ) (front : Pair → τ → τ)
    (middle : τ → Pair → τ → τ) : Grouped → τ → Prop where
  | operand {pair result} :
      primary pair = .ok result → Amounts primary front middle (.operand pair) result
  | under {pair inner result} :
      Amounts primary front middle inner result →
      Amounts primary front middle (.under pair inner) (front pair result)
  | joined {left pair right l r} :
      Amounts primary front middle left l → Amounts primary front middle right r →
      Amounts primary front middle (.joined left pair right) (middle l pair r)

/-- What stands behind a tree: nothing, or an operator between operands of which a bound holds. -/
def EndsWith (operators : Operators) (bound : Nat → Prop) (rest : List Pair) : Prop :=
  ∀ pair more, rest = pair :: more →
    ∃ strength, operators pair.rule = some (.middle, strength) ∧ bound strength

/-- What holds of what stands behind still holds when less is asked. -/
theorem EndsWith.mono {bound weaker : Nat → Prop} {rest : List Pair}
    (h : EndsWith operators bound rest) (hmono : ∀ strength, bound strength → weaker strength) :
    EndsWith operators weaker rest := by
  intro pair more hmore
  obtain ⟨strength, hpair, hbound⟩ := h pair more hmore
  exact ⟨strength, hpair, hmono strength hbound⟩

/-- Where no stronger operator follows, climbing goes no further. -/
theorem climb_on_end {limit : Nat} {rest : List Pair}
    (h : EndsWith operators (· ≤ limit) rest) (clock : Nat) (left : τ) :
    climbOn operators primary front middle clock limit left rest = .ok (left, rest) := by
  cases rest with
  | nil => cases clock <;> rw [climbOn]
  | cons pair more =>
      obtain ⟨strength, hpair, hle⟩ := h pair more rfl
      cases clock <;> simp only [climbOn, hpair] <;> rw [if_neg (Nat.not_lt.mpr hle)]

/-- Climbing over the pairs of a tree makes the tree the operand on the left, and goes on. -/
theorem climb_flat (hfront : operators.FrontFirst) {tree : Grouped} {result : τ}
    (hfits : tree.Fits operators) (hamounts : tree.Amounts primary front middle result)
    {clock limit : Nat} {rest : List Pair} (hclock : tree.flat.length ≤ clock)
    (hlimit : tree.BoundBy operators (limit < ·))
    (hrest : EndsWith operators (fun next => tree.BoundBy operators (next ≤ ·)) rest) :
    climb operators primary front middle clock limit (tree.flat ++ rest) =
      climbOn operators primary front middle (clock - tree.steps) limit result rest := by
  induction hamounts generalizing clock limit rest with
  | @operand pair result hprimary =>
      obtain ⟨clock, rfl⟩ := Nat.exists_eq_add_of_le' (show 1 ≤ clock from hclock)
      rw [Grouped.Fits] at hfits
      simp only [Grouped.flat, List.cons_append, List.nil_append, climb, hfits, hprimary]
      rfl
  | @under pair inner result _ ih =>
      obtain ⟨⟨strength, hpair⟩, hjoint, hinner⟩ := hfits
      rw [Grouped.flat, List.length_cons] at hclock
      obtain ⟨clock, rfl⟩ := Nat.exists_eq_add_of_le' (Nat.le_trans (Nat.le_add_left 1 _) hclock)
      -- What stands behind is weaker than the operator in front, so the operand ends there.
      have hclimb := ih hinner (show inner.flat.length ≤ clock by omega)
        (Grouped.bound_by_of_joint_eq_none hjoint (strength - 1 < ·))
        (hrest.mono fun _ _ => Grouped.bound_by_of_joint_eq_none hjoint _)
      have hend : EndsWith operators (· ≤ strength - 1) rest := by
        intro next more hmore
        obtain ⟨weak, hnext, -⟩ := hrest next more hmore
        exact ⟨weak, hnext, Nat.le_sub_one_of_lt (hfront _ _ _ _ hpair hnext)⟩
      simp only [Grouped.flat, List.cons_append, climb, hpair, hclimb, climb_on_end hend]
      rfl
  | @joined left pair right l r _ _ ihLeft ihRight =>
      obtain ⟨strength, hpair, hleft, hright, hfitsLeft, hfitsRight⟩ := hfits
      have hlt : limit < strength := hlimit pair rfl strength hpair
      have hweaker : EndsWith operators (· ≤ strength) rest :=
        hrest.mono fun _ hle => hle pair rfl strength hpair
      have hsteps := left.steps_le
      rw [Grouped.flat, List.length_append, List.length_cons] at hclock
      obtain ⟨remaining, hremaining⟩ :=
        Nat.exists_eq_add_of_le' (show 1 ≤ clock - left.steps by omega)
      have hbehind : EndsWith operators (fun next => left.BoundBy operators (next ≤ ·))
          (pair :: (right.flat ++ rest)) := by
        rintro _ _ ⟨⟩
        exact ⟨strength, hpair, hleft⟩
      have hclimbLeft := ihLeft hfitsLeft (show left.flat.length ≤ clock by omega)
        (hleft.mono fun _ hle => Nat.lt_of_lt_of_le hlt hle) hbehind
      have hclimbRight := ihRight hfitsRight (show right.flat.length ≤ remaining by omega) hright
        (hweaker.mono fun _ hle => hright.mono fun _ hgt =>
          Nat.le_of_lt (Nat.lt_of_le_of_lt hle hgt))
      have hclock' : clock - (Grouped.joined left pair right).steps = remaining := by
        rw [Grouped.steps]
        omega
      rw [Grouped.flat, List.append_assoc, List.cons_append, hclimbLeft, hremaining, hclock']
      simp only [climbOn, hpair, if_pos hlt, hclimbRight, climb_on_end hweaker]
      rfl

/-- The pairs of a tree amount to what the tree does. -/
theorem climb_all_flat (hfront : operators.FrontFirst) {tree : Grouped} {result : τ}
    (hfits : tree.Fits operators) (hamounts : tree.Amounts primary front middle result)
    (hpos : tree.BoundBy operators (0 < ·)) :
    climbAll operators primary front middle tree.flat = .ok result := by
  have hend (bound : Nat → Prop) : EndsWith operators bound [] := fun _ _ => nofun
  have hclimb := climb_flat hfront hfits hamounts (Nat.le_refl _) hpos (hend _)
  rw [List.append_nil] at hclimb
  rw [climbAll, hclimb, climb_on_end (hend _)]
  rfl

end Climbing

end MessageSelector
