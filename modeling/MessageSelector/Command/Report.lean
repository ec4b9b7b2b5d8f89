import MessageSelector.Command.Arguments
import MessageSelector.Json.Reading
import MessageSelector.Selector.Activity

/-!
# Reports of the command line

What an invocation prints and the status it ends with: zero for success and for a message that is
selected, one for a message that is not, and two where the selector or the properties are refused.
The selector is compiled before the file of properties is read.
-/

namespace MessageSelector.Command

/-- What an invocation leads to. -/
inductive Report where
  /-- A text is printed, and the status tells whether the answer is positive. -/
  | printed (positive : Bool) (text : String)
  /-- Nothing is printed but what went wrong. -/
  | failed (message : String)
  deriving DecidableEq, Repr

/-- The status that an invocation ends with. -/
def Report.status : Report → UInt32
  | printed true _ => 0
  | printed false _ => 1
  | failed _ => 2

/-- A value of a document as the value of a property. A number that is too large for a word is
rounded to a double, and an absent value sets nothing. -/
def propertyValue (name : String) : Json → Except String (Option Value)
  | .null => .ok none
  | .boolean flag => .ok (some (.boolean flag))
  | .string text => .ok (some (.string text))
  | .float number => .ok (some (.float number))
  | .integer number =>
    match Integer.narrow number with
    | some word => .ok (some (.integer word))
    | none => .ok (some (.float (Float.ofInt number)))
  | other =>
    .error ("property '" ++ name ++ "': only scalar values are allowed, found " ++ other.compact)

/-- The properties of a document, in the order of their names. -/
def documentProperties (text : String) : Except String (List Assignment) :=
  match Json.readObject? text with
  | none => .error "properties must be a JSON object"
  | some members => do
    let assignments ← members.mapM fun (name, json) => do
      return (← propertyValue name json).map (Assignment.mk name)
    return assignments.filterMap id

/-- The message that the options describe, given the properties of the file. Properties given by
option come after those of the file and so take precedence. -/
def MessageOptions.message (options : MessageOptions) (fromFile : List Assignment) : Message :=
  let property (assignment : Assignment) : Message.Update :=
    .property assignment.name assignment.value
  .build <|
    (fromFile ++ options.properties).map property ++
    options.messageId.toList.map .messageId ++
    options.correlationId.toList.map .correlationId ++
    options.type.toList.map .type ++
    options.priority.toList.map (fun level => .priority level.val) ++
    options.deliveryMode.toList.map .deliveryMode ++
    options.timestamp.toList.map .timestamp

/-- A value as a value of JSON. -/
def jsonOfValue : Value → Json
  | .string text => .string text
  | .integer number => .integer number.toInt
  | .float number => if number.isFinite then .float number else .null
  | .boolean flag => .boolean flag

/-- A key as a value of JSON. -/
def jsonOfKey (key : IndexKey) : Json :=
  .object [("property_name", .string key.name),
    ("candidate_values", .array (key.candidates.map jsonOfValue))]

/-- What a selector offers to an index as a value of JSON. -/
def jsonOfIndexing : Indexing → Json
  | .matchAll => .string "match_all"
  | .keys found => .object [("keys", .array (found.map jsonOfKey))]

/-- What a selector offers to an index, one key a line. -/
def linesOfIndexing : Indexing → List String
  | .matchAll => ["(no selector: matches every message)"]
  | .keys [] => ["(not indexable)"]
  | .keys found => found.map IndexKey.text

/-- Lines, each with its end. -/
def printLines (lines : List String) : String :=
  String.join (lines.map (· ++ "\n"))

/-- What complaints call a file. A hyphen stands for the standard input. -/
def documentName (path : String) : String :=
  if path = "-" then "stdin" else path

/-- The properties of the file that the options name, if they name one. -/
def MessageOptions.load {m : Type → Type} [Monad m] (read : String → m (Except String String))
    (options : MessageOptions) : m (Except String (List Assignment)) :=
  match options.json with
  | none => return .ok []
  | some path => do
    match ← read path with
    | .ok text => return documentProperties text
    | .error reason =>
      return .error ("reading properties from " ++ documentName path ++ ": " ++ reason)

/-- What a task leads to for a compiled selector. `read` yields the text of a file or why it cannot
be read, and is used at most once. -/
def Task.perform {m : Type → Type} [Monad m] (read : String → m (Except String String))
    (selector : Selector.Observed) : Task → m (Report × List Selector.Record)
  | .check _ => return (.printed true (printLines [selector.selector.render]), [])
  | .keys _ json =>
    let (indexing, records) := selector.indexing
    let lines := if json then [(jsonOfIndexing indexing).pretty] else linesOfIndexing indexing
    return (.printed true (printLines lines), records)
  | .eval _ options => do
    match ← options.load read with
    | .error message => return (.failed message, [])
    | .ok fromFile =>
      let outcome := selector.selector.truth (options.message fromFile).source
      return (.printed outcome.isHolds (printLines [outcome.text]), [])

/-- What an invocation leads to, with the records of what was done with the selector. -/
def Invocation.perform {m : Type → Type} [Monad m] (read : String → m (Except String String))
    (invocation : Invocation) : m (Report × List Selector.Record) :=
  match Selector.Observed.compile [] invocation.task.selector with
  | .error rejection => return (.failed rejection.message, [])
  | .ok (selector, compiled) => do
    let (report, records) ← invocation.task.perform read selector
    return (report, compiled ++ records)

end MessageSelector.Command
