import MessageSelector.Expr.Evaluation
import MessageSelector.Properties

/-!
# Messages

A message offers six headers to selectors by name, and any number of properties. A name that is not
one of the six always means a property, and one of the six never does.
-/

namespace MessageSelector

/-- Whether a message survives a failure of the provider. -/
inductive DeliveryMode where
  | persistent
  | nonPersistent
  deriving DecidableEq, Repr, Inhabited

namespace DeliveryMode

/-- The value that selectors see. -/
def text : DeliveryMode → String
  | persistent => "PERSISTENT"
  | nonPersistent => "NON_PERSISTENT"

/-- The mode of a name in any ASCII case, with a hyphen or a low line. -/
def ofText? (name : String) : Except String DeliveryMode :=
  match name.toUpper.map fun c => if c = '-' then '_' else c with
  | "PERSISTENT" => .ok persistent
  | "NON_PERSISTENT" => .ok nonPersistent
  | _ =>
    .error ("unknown delivery mode '" ++ name ++ "' (expected PERSISTENT or NON_PERSISTENT)")

end DeliveryMode

/-- The headers that a selector can name. -/
inductive Header where
  | deliveryMode
  | priority
  | messageId
  | timestamp
  | correlationId
  | type
  deriving DecidableEq, Repr

namespace Header

/-- Every header that a selector can name. -/
def all : List Header :=
  [deliveryMode, priority, messageId, timestamp, correlationId, type]

/-- The name by which selectors refer to the header. -/
def name : Header → String
  | deliveryMode => "JMSDeliveryMode"
  | priority => "JMSPriority"
  | messageId => "JMSMessageID"
  | timestamp => "JMSTimestamp"
  | correlationId => "JMSCorrelationID"
  | type => "JMSType"

/-- The header of a name, if it is one. -/
def ofName? (name : String) : Option Header :=
  all.find? (·.name = name)

end Header

/-- A message as selectors see it. -/
structure Message where
  messageId : Option String := none
  correlationId : Option String := none
  type : Option String := none
  /-- From zero to nine. -/
  priority : Fin 10 := 4
  deliveryMode : DeliveryMode := .persistent
  /-- Milliseconds since 1970. -/
  timestamp : Option Int64 := none
  properties : Properties := .empty

namespace Message

/-- The priority nearest to a number: beyond nine there is only nine. -/
def clampPriority (level : Nat) : Fin 10 :=
  if h : level < 10 then ⟨level, h⟩ else 9

/-- A change to a message. -/
inductive Update where
  | messageId (id : String)
  | correlationId (id : String)
  | type (name : String)
  | priority (level : Nat)
  | deliveryMode (mode : DeliveryMode)
  | timestamp (millis : Int64)
  | property (name : String) (value : Value)

/-- The message after a change. -/
def update (message : Message) : Update → Message
  | .messageId id => { message with messageId := some id }
  | .correlationId id => { message with correlationId := some id }
  | .type name => { message with type := some name }
  | .priority level => { message with priority := clampPriority level }
  | .deliveryMode mode => { message with deliveryMode := mode }
  | .timestamp millis => { message with timestamp := some millis }
  | .property name value => { message with properties := message.properties.set name value }

/-- The message that changes make out of a new one, the first change first. -/
def build (updates : List Update) : Message :=
  updates.foldl update {}

/-- The value of a header, if it is set. -/
def header? (message : Message) : Header → Option Value
  | .deliveryMode => some (.string message.deliveryMode.text)
  | .priority => some (.integer (Int64.ofNat message.priority.val))
  | .messageId => message.messageId.map Value.string
  | .timestamp => message.timestamp.map Value.integer
  | .correlationId => message.correlationId.map Value.string
  | .type => message.type.map Value.string

/-- What the message offers to selectors. -/
def source (message : Message) : Source :=
  fun name =>
    match Header.ofName? name with
    | some header => message.header? header
    | none => message.properties.get? name

end Message

end MessageSelector
