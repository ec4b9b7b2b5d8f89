/-!
# Three-valued truth

A selector over a message holds, fails, or is unknown when a header or property it needs is absent
or has the wrong type. The connectives are the strong Kleene ones of SQL: a definite operand that
decides the outcome decides it whatever the other operand is.
-/

namespace MessageSelector

/-- The outcome of a condition. -/
inductive Truth where
  | holds
  | fails
  | unknown
  deriving DecidableEq, Repr, Inhabited

namespace Truth

/-- A definite outcome. -/
def ofBool : Bool → Truth
  | true => holds
  | false => fails

/-- A definite outcome, or unknown where there is none. -/
def ofBool? : Option Bool → Truth
  | some answer => ofBool answer
  | none => unknown

/-- The definite outcome, if there is one. -/
def toBool? : Truth → Option Bool
  | holds => some true
  | fails => some false
  | unknown => none

/-- Conjunction: one failing operand is enough to fail. -/
def and : Truth → Truth → Truth
  | fails, _ => fails
  | _, fails => fails
  | holds, holds => holds
  | _, _ => unknown

/-- Disjunction: one holding operand is enough to hold. -/
def or : Truth → Truth → Truth
  | holds, _ => holds
  | _, holds => holds
  | fails, fails => fails
  | _, _ => unknown

/-- Negation: the unknown stays unknown. -/
def not : Truth → Truth
  | holds => fails
  | fails => holds
  | unknown => unknown

/-- The negation when asked for, the outcome itself otherwise. -/
def notIf (negated : Bool) (outcome : Truth) : Truth :=
  if negated then outcome.not else outcome

/-- Only a condition that definitely holds selects a message. -/
def isHolds : Truth → Bool
  | holds => true
  | _ => false

/-- The written form. -/
def text : Truth → String
  | holds => "true"
  | fails => "false"
  | unknown => "unknown"

@[simp] theorem to_bool_of_bool (answer : Bool) : (ofBool answer).toBool? = some answer := by
  cases answer <;> rfl

@[simp] theorem of_bool_to_bool (outcome : Truth) : ofBool? outcome.toBool? = outcome := by
  cases outcome <;> rfl

end Truth

end MessageSelector
