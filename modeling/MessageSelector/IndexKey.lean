import MessageSelector.Expr
import MessageSelector.Value.Comparison

/-!
# Index keys

A key says that a selector can only hold for messages whose header or property has one of a few
values, so that a broker can look subscriptions up by value. Keys come from the conditions that a
selector joins by AND: an equality of an identifier and a literal in either order, and an `IN`
condition on an identifier. Every other condition yields none.
-/

namespace MessageSelector

/-- A header or property together with the values that a selector admits for it. -/
structure IndexKey where
  name : String
  candidates : List Value
  deriving BEq, Inhabited

namespace IndexKey

/-- Whether a value is one of the candidates, as a selector compares values. -/
def admits (key : IndexKey) (value : Value) : Bool :=
  key.candidates.any (·.equals value)

/-- The written form. -/
def text (key : IndexKey) : String :=
  key.name ++ " in \x7b" ++ ", ".intercalate (key.candidates.map Value.text) ++ "\x7d"

end IndexKey

namespace Expr

/-- The expressions that a tree joins by AND, from left to right, put before those of `after`. -/
def conjunctsBefore : Expr → List Expr → List Expr
  | and left right, after => left.conjunctsBefore (right.conjunctsBefore after)
  | e, after => e :: after

/-- The expressions that a tree joins by AND, from left to right. -/
def conjuncts (e : Expr) : List Expr :=
  e.conjunctsBefore []

theorem conjuncts_before_eq (e : Expr) (after : List Expr) :
    e.conjunctsBefore after = e.conjuncts ++ after := by
  induction e generalizing after with
  | and left right ihLeft ihRight =>
    simp only [conjuncts, conjunctsBefore]
    rw [ihLeft, ihRight, ihLeft (right.conjunctsBefore []), ihRight []]
    simp
  | _ => rfl

/-- The conjuncts of a conjunction are those of its operands. -/
@[simp] theorem conjuncts_and (left right : Expr) :
    (and left right).conjuncts = left.conjuncts ++ right.conjuncts :=
  conjuncts_before_eq left right.conjuncts

/-- A list without the later occurrences of its members. -/
def distinct (items : List String) : List String :=
  (items.foldl (fun seen item => if seen.contains item then seen else item :: seen) []).reverse

/-- The key of one conjunct, if it is of an indexable shape. -/
def key? : Expr → Option IndexKey
  | comparison .equal (identifier name) (literal value)
  | comparison .equal (literal value) (identifier name) => some ⟨name, [value]⟩
  | inList (identifier name) items false => some ⟨name, (distinct items).map Value.string⟩
  | _ => none

/-- The keys of an expression, one for each indexable conjunct in order. The same name may have
several keys; they are not combined. -/
def keys (e : Expr) : List IndexKey :=
  e.conjuncts.filterMap key?

end Expr

end MessageSelector
