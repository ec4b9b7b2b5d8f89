import MessageSelector.Selector

/-!
# Records of activity

What is done with a selector can be recorded. A record carries the fields of its context, the
canonical text of the selector, and what is particular to the activity.
-/

namespace MessageSelector.Selector

/-- What is done with a selector. -/
inductive Activity where
  | compiled
  | evaluated (outcome : Truth)
  | extracted (keyCount : Nat)
  deriving DecidableEq, Repr

/-- A record of an activity: how important it is, what was done, and named details. -/
structure Record where
  level : String
  message : String
  fields : List (String × String)
  deriving DecidableEq, Repr

namespace Activity

/-- What was done. -/
def message : Activity → String
  | compiled => "compiled selector"
  | evaluated _ => "evaluated selector"
  | extracted _ => "extracted index keys"

/-- What is particular to the activity. -/
def detail (selector : Selector) : Activity → String × String
  | compiled => ("absent", if selector.expr.isNone then "true" else "false")
  | evaluated outcome => ("result", outcome.text)
  | extracted keyCount => ("count", toString keyCount)

/-- The record of an activity in a context. -/
def record (context : List (String × String)) (selector : Selector) (activity : Activity) :
    Record where
  level := "DEBUG"
  message := activity.message
  fields := context ++ [("selector", selector.render), activity.detail selector]

end Activity

/-- A selector whose activity is recorded, or not where there is no context. -/
structure Observed where
  selector : Selector
  context : Option (List (String × String))

namespace Observed

/-- The records of activities, if activity is recorded. -/
def records (observed : Observed) (activities : List Activity) : List Record :=
  match observed.context with
  | some context => activities.map (·.record context observed.selector)
  | none => []

/-- The selector of every message, whose activity is never recorded. -/
def matchAll : Observed :=
  ⟨.matchAll, none⟩

/-- The selector of a text, with the record of its compilation. -/
def compile (context : List (String × String)) (text : String) :
    Except Rejection (Observed × List Record) := do
  let observed : Observed := ⟨← Selector.compile text, some context⟩
  return (observed, observed.records [.compiled])

/-- Whether a message is selected, with the record of the evaluation. -/
def selects (observed : Observed) (source : Source) : Bool × List Record :=
  let outcome := observed.selector.truth source
  (outcome.isHolds, observed.records [.evaluated outcome])

/-- What the selector offers to an index, with the record of the extraction where there is an
expression to extract keys from. -/
def indexing (observed : Observed) : Indexing × List Record :=
  match observed.selector.indexing with
  | .matchAll => (.matchAll, [])
  | .keys keys => (.keys keys, observed.records [.extracted keys.length])

end Observed

end MessageSelector.Selector
