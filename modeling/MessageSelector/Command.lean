import MessageSelector.Message
import MessageSelector.Properties.Assignment
import MessageSelector.Timestamp

/-!
# Commands

The command line has three verbs: `check` prints the canonical text of a selector, `keys` what it
can be indexed by, and `eval` its outcome on a message that options describe.
-/

namespace MessageSelector.Command

/-- What is done with the selector. -/
inductive Verb where
  | check
  | keys
  | eval
  deriving DecidableEq, Repr

/-- The verb of a name. -/
def Verb.ofName? : String → Option Verb
  | "check" => some check
  | "keys" => some keys
  | "eval" => some eval
  | _ => none

/-- An option without a value. -/
inductive Switch where
  | verbose
  | json
  deriving DecidableEq, Repr

/-- An option with a value. -/
inductive Setting where
  | property
  | json
  | messageId
  | correlationId
  | type
  | priority
  | deliveryMode
  | timestamp
  deriving DecidableEq, Repr

/-- An option. -/
inductive Flag where
  | switch (switch : Switch)
  | setting (setting : Setting)
  deriving DecidableEq, Repr

/-- The option of a long name under a verb, or before any verb. -/
def Flag.ofName? : Option Verb → String → Option Flag
  | _, "verbose" => some (switch .verbose)
  | some .keys, "json" => some (switch .json)
  | some .eval, "property" => some (setting .property)
  | some .eval, "json" => some (setting .json)
  | some .eval, "message-id" => some (setting .messageId)
  | some .eval, "correlation-id" => some (setting .correlationId)
  | some .eval, "type" => some (setting .type)
  | some .eval, "priority" => some (setting .priority)
  | some .eval, "delivery-mode" => some (setting .deliveryMode)
  | some .eval, "timestamp" => some (setting .timestamp)
  | _, _ => none

/-- The option of a letter under a verb, or before any verb. -/
def Flag.ofLetter? : Option Verb → Char → Option Flag
  | _, 'v' => some (switch .verbose)
  | some .eval, 'p' => some (setting .property)
  | _, _ => none

/-- What is wrong with the arguments. -/
inductive Misuse where
  /-- There is neither a verb nor an option. -/
  | noArguments
  /-- There are options but no verb. -/
  | noVerb
  /-- A verb that there is not. -/
  | unknownVerb
  /-- An option that there is not, or one argument too many. -/
  | unknownArgument
  /-- There is no selector. -/
  | noSelector
  /-- An option without its value. -/
  | noValue
  /-- A value for an option without one. -/
  | surplusValue
  /-- A value that is refused. -/
  | badValue
  /-- An option that may be given only once. -/
  | repeated
  deriving DecidableEq, Repr

/-- The message that `eval` is given. -/
structure MessageOptions where
  /-- Properties, in the order in which they were given. -/
  properties : List Assignment := []
  /-- The file with further properties. -/
  json : Option String := none
  messageId : Option String := none
  correlationId : Option String := none
  type : Option String := none
  priority : Option (Fin 10) := none
  deliveryMode : Option DeliveryMode := none
  timestamp : Option Int64 := none

/-- A priority in text, from zero to nine. -/
def readPriority? (text : String) : Option (Fin 10) := do
  let level ← Integer.readWord? text
  if h : 0 ≤ level.toInt ∧ level.toInt < 10 then some ⟨level.toInt.toNat, by omega⟩ else none

/-- The value of an option that may be given only once. -/
def once {α : Type} (current : Option α) (value : Option α) : Except Misuse (Option α) :=
  match current, value with
  | some _, _ => .error .repeated
  | none, some value => .ok (some value)
  | none, none => .error .badValue

/-- The options with one more option and the text of its value. -/
def MessageOptions.add (options : MessageOptions) (text : String) :
    Setting → Except Misuse MessageOptions
  | .property =>
    match Assignment.read text with
    | .ok assignment => .ok { options with properties := options.properties ++ [assignment] }
    | .error _ => .error .badValue
  | .json => do
    let json ← once options.json (some text)
    if text.isEmpty then .error .noValue else return { options with json }
  | .messageId => do
    return { options with messageId := ← once options.messageId (some text) }
  | .correlationId => do
    return { options with correlationId := ← once options.correlationId (some text) }
  | .type => do
    return { options with type := ← once options.type (some text) }
  | .priority => do
    return { options with priority := ← once options.priority (readPriority? text) }
  | .deliveryMode => do
    let mode := (DeliveryMode.ofText? text).toOption
    return { options with deliveryMode := ← once options.deliveryMode mode }
  | .timestamp => do
    return { options with timestamp := ← once options.timestamp (Timestamp.read? text) }

/-- What the command is asked to do. -/
inductive Task where
  | check (selector : String)
  | keys (selector : String) (json : Bool)
  | eval (selector : String) (options : MessageOptions)

/-- The selector text of a task. -/
def Task.selector : Task → String
  | check selector | keys selector _ | eval selector _ => selector

/-- A task, and whether the activity of the selector is reported too. -/
structure Invocation where
  task : Task
  verbose : Bool

end MessageSelector.Command
