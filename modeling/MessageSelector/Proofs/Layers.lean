import MessageSelector.Expr

/-!
# Layers of expressions

A layer is the root of an expression with something else in the places of its operands. An
algorithm that must not recurse over a deep tree takes an expression apart layer by layer: `split`
separates a layer into its shape and what stands in it, and `collapse` computes upwards from the
leaves. `of_layer_layer` says that nothing is lost when a layer is taken off.
-/

namespace MessageSelector.Expr

/-- The root of an expression, with something in the place of each operand. -/
inductive Layer (α : Type) where
  | identifier (name : String)
  | literal (value : Value)
  | not (operand : α)
  | and (left right : α)
  | or (left right : α)
  | comparison (op : Comparison) (left right : α)
  | arithmetic (op : Arithmetic) (left right : α)
  | signed (sign : Sign) (operand : α)
  | between (operand low high : α) (negated : Bool)
  | inList (operand : α) (items : List String) (negated : Bool)
  | like (operand : α) (pattern : Like.Pattern) (negated : Bool)
  | isNull (operand : α) (negated : Bool)
  deriving BEq

namespace Layer

variable {α β : Type}

/-- The layer with the outcome of a step in each place, the steps made in the order of the text. -/
def mapM {m : Type → Type} [Monad m] (f : α → m β) : Layer α → m (Layer β)
  | identifier name => return .identifier name
  | literal value => return .literal value
  | not operand => return .not (← f operand)
  | and left right => return .and (← f left) (← f right)
  | or left right => return .or (← f left) (← f right)
  | comparison op left right => return .comparison op (← f left) (← f right)
  | arithmetic op left right => return .arithmetic op (← f left) (← f right)
  | signed sign operand => return .signed sign (← f operand)
  | between operand low high negated =>
    return .between (← f operand) (← f low) (← f high) negated
  | inList operand items negated => return .inList (← f operand) items negated
  | like operand pattern negated => return .like (← f operand) pattern negated
  | isNull operand negated => return .isNull (← f operand) negated

/-- The layer with something else in each place. -/
def map (f : α → β) (layer : Layer α) : Layer β :=
  Id.run (layer.mapM fun place => pure (f place))

/-- The shape of a layer and what stands in its places, gathered place by place. -/
def split (layer : Layer α) : Layer Unit × List α :=
  let gather (place : α) : StateM (List α) Unit := modify (· ++ [place])
  Id.run ((layer.mapM gather).run [])

/-- The shape of a layer. -/
def shape (layer : Layer α) : Layer Unit :=
  layer.map fun _ => ()

/-- What stands in the places of a layer, from left to right. -/
def children : Layer α → List α
  | identifier _ | literal _ => []
  | not operand | signed _ operand | inList operand _ _ | like operand _ _ | isNull operand _ =>
    [operand]
  | and left right | or left right | comparison _ left right | arithmetic _ left right =>
    [left, right]
  | between operand low high _ => [operand, low, high]

/-- A layer is split into its shape and what stands in it from left to right. -/
theorem split_eq (layer : Layer α) : layer.split = (layer.shape, layer.children) := by
  cases layer <;> rfl

/-- What stands in the places is changed place by place. -/
theorem children_map (f : α → β) (layer : Layer α) :
    (layer.map f).children = layer.children.map f := by
  cases layer <;> rfl

/-- A change that leaves what stands in each place as it is leaves the layer as it is. -/
theorem map_eq_self {f : α → α} {layer : Layer α} (h : ∀ place ∈ layer.children, f place = place) :
    layer.map f = layer := by
  cases layer <;> simp_all [children, map, mapM]

end Layer

/-- The outermost layer of an expression. -/
def layer : Expr → Layer Expr
  | identifier name => .identifier name
  | literal value => .literal value
  | not operand => .not operand
  | and left right => .and left right
  | or left right => .or left right
  | comparison op left right => .comparison op left right
  | arithmetic op left right => .arithmetic op left right
  | signed sign operand => .signed sign operand
  | between operand low high negated => .between operand low high negated
  | inList operand items negated => .inList operand items negated
  | like operand pattern negated => .like operand pattern negated
  | isNull operand negated => .isNull operand negated

/-- The expression with the given outermost layer. -/
def ofLayer : Layer Expr → Expr
  | .identifier name => identifier name
  | .literal value => literal value
  | .not operand => not operand
  | .and left right => and left right
  | .or left right => or left right
  | .comparison op left right => comparison op left right
  | .arithmetic op left right => arithmetic op left right
  | .signed sign operand => signed sign operand
  | .between operand low high negated => between operand low high negated
  | .inList operand items negated => inList operand items negated
  | .like operand pattern negated => like operand pattern negated
  | .isNull operand negated => isNull operand negated

/-- What an expression amounts to when every layer is computed from what its operands amount to. -/
def collapse {α : Type} (compute : Layer α → α) : Expr → α
  | identifier name => compute (.identifier name)
  | literal value => compute (.literal value)
  | not operand => compute (.not (collapse compute operand))
  | and left right => compute (.and (collapse compute left) (collapse compute right))
  | or left right => compute (.or (collapse compute left) (collapse compute right))
  | comparison op left right =>
    compute (.comparison op (collapse compute left) (collapse compute right))
  | arithmetic op left right =>
    compute (.arithmetic op (collapse compute left) (collapse compute right))
  | signed sign operand => compute (.signed sign (collapse compute operand))
  | between operand low high negated =>
    compute (.between (collapse compute operand) (collapse compute low) (collapse compute high)
      negated)
  | inList operand items negated => compute (.inList (collapse compute operand) items negated)
  | like operand pattern negated => compute (.like (collapse compute operand) pattern negated)
  | isNull operand negated => compute (.isNull (collapse compute operand) negated)

/-- Taking the outermost layer off and putting it back changes nothing. -/
theorem of_layer_layer (e : Expr) : ofLayer e.layer = e := by
  cases e <;> rfl

variable {α : Type}

/-- An expression is computed from its outermost layer, over what its operands amount to. -/
theorem collapse_eq (compute : Layer α → α) (e : Expr) :
    e.collapse compute = compute (e.layer.map (collapse compute)) := by
  cases e <;> rfl

/-- The operands of an expression, from left to right. -/
def operands (e : Expr) : List Expr :=
  e.layer.children

/-- What holds of an expression if it holds of its operands holds of all expressions. -/
theorem induction_on_operands {motive : Expr → Prop}
    (step : ∀ e, (∀ operand ∈ e.operands, motive operand) → motive e) (e : Expr) : motive e := by
  induction e with
  | identifier | literal => exact step _ nofun
  | not _ ih | signed _ _ ih | inList _ _ _ ih | like _ _ _ ih | isNull _ _ ih =>
      exact step _ (List.forall_mem_singleton.mpr ih)
  | and _ _ ihLeft ihRight | or _ _ ihLeft ihRight | comparison _ _ _ ihLeft ihRight
  | arithmetic _ _ _ ihLeft ihRight =>
      exact step _ (List.forall_mem_cons.mpr ⟨ihLeft, List.forall_mem_singleton.mpr ihRight⟩)
  | between _ _ _ _ ih ihLow ihHigh =>
      exact step _ (List.forall_mem_cons.mpr
        ⟨ih, List.forall_mem_cons.mpr ⟨ihLow, List.forall_mem_singleton.mpr ihHigh⟩⟩)

/-- An expression made anew, layer by layer from the leaves upwards. -/
def clone (e : Expr) : Expr :=
  e.collapse ofLayer

/-- An expression made anew is the expression. -/
theorem clone_eq (e : Expr) : e.clone = e := by
  induction e using induction_on_operands with
  | step e ih =>
      have hoperands : e.layer.map (collapse ofLayer) = e.layer := Layer.map_eq_self ih
      rw [clone, collapse_eq, hoperands, of_layer_layer]

/-- The literals of an expression, from left to right. -/
def literals (e : Expr) : List Value :=
  e.collapse fun
    | .literal value => [value]
    | layer => layer.children.flatten

end MessageSelector.Expr
