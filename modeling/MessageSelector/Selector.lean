import MessageSelector.Expr.Evaluation
import MessageSelector.Expr.Parsing
import MessageSelector.Expr.Rendering
import MessageSelector.IndexKey

/-!
# Selectors

A selector is a compiled selector text. A text of layout alone compiles to a selector without an
expression, which selects every message.
-/

namespace MessageSelector

/-- A compiled selector. -/
structure Selector where
  /-- The expression, unless every message is selected. -/
  expr : Option Expr
  deriving BEq, Inhabited

/-- What a selector offers to an index of subscriptions. -/
inductive Indexing where
  /-- Every message is selected, so there is nothing to index. -/
  | matchAll
  /-- The keys; without any, the selector can only be evaluated. -/
  | keys (found : List IndexKey)
  deriving BEq, Inhabited

namespace Indexing

/-- The keys on offer. -/
def toList : Indexing → List IndexKey
  | matchAll => []
  | keys found => found

/-- Whether every message is selected. -/
def isMatchAll : Indexing → Bool
  | matchAll => true
  | keys _ => false

/-- Whether there is a key to index by. -/
def isIndexable (indexing : Indexing) : Bool :=
  !indexing.toList.isEmpty

end Indexing

namespace Selector

/-- The selector that selects every message. -/
def matchAll : Selector :=
  ⟨none⟩

/-- The selector of a text. -/
def compile (text : String) : Except Rejection Selector :=
  (Expr.parse text).map Selector.mk

/-- The outcome on a source of headers and properties. -/
def truth (selector : Selector) (source : Source) : Truth :=
  match selector.expr with
  | some e => e.truth source
  | none => .holds

/-- Whether a message is selected: only where the selector definitely holds. -/
def selects (selector : Selector) (source : Source) : Bool :=
  (selector.truth source).isHolds

/-- What the selector offers to an index. -/
def indexing (selector : Selector) : Indexing :=
  match selector.expr with
  | some e => .keys e.keys
  | none => .matchAll

/-- The canonical text, empty where every message is selected. -/
def render (selector : Selector) : String :=
  match selector.expr with
  | some e => e.render
  | none => ""

/-- The selector as shown to a developer. -/
def describe (selector : Selector) : String :=
  "Selector \x7b expr: " ++ Text.escape selector.render ++ " \x7d"

end Selector

end MessageSelector
