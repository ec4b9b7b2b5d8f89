import MessageSelector.Command

/-!
# Arguments

Arguments are taken from the left: options first of all, then the verb, then its options and the
selector in any order. An option takes its value from the same argument, after an equals sign or a
letter, or from the next argument; a value of its own is looked at only once the argument after it
has been found to be in order. After two hyphens no argument is an option.
-/

namespace MessageSelector.Command

/-- What the arguments so far amount to. -/
structure Draft where
  verb : Option Verb := none
  selector : Option String := none
  options : MessageOptions := {}
  verbose : Bool := false
  json : Bool := false
  /-- An option whose value, if it has come at all, has not been looked at. -/
  pending : Option (Setting × Option String) := none
  /-- Whether no more options can follow. -/
  closed : Bool := false

namespace Draft

/-- The draft with the pending value looked at. -/
def settle (draft : Draft) : Except Misuse Draft :=
  match draft.pending with
  | none => .ok draft
  | some (_, none) => .error .noValue
  | some (setting, some text) => do
    let options ← draft.options.add text setting
    return { draft with options, pending := none }

/-- The draft with a switch turned on. -/
def turnOn (draft : Draft) (switch : Switch) : Except Misuse Draft := do
  let draft ← draft.settle
  match switch with
  | .verbose => if draft.verbose then .error .repeated else return { draft with verbose := true }
  | .json => if draft.json then .error .repeated else return { draft with json := true }

/-- The draft with a setting, and its value where that is part of the same argument. -/
def addSetting (draft : Draft) (setting : Setting) (value : Option String) :
    Except Misuse Draft := do
  let draft ← draft.settle
  match value with
  | none => return { draft with pending := some (setting, none) }
  | some text => return { draft with options := ← draft.options.add text setting }

/-- The draft with a long option, given the argument after its two hyphens. -/
def addNamed (draft : Draft) (text : List Char) : Except Misuse Draft :=
  let (name, rest) := text.span (· ≠ '=')
  let value := if rest.isEmpty then none else some (String.ofList rest.tail)
  match Flag.ofName? draft.verb (String.ofList name), value with
  | none, _ => .error .unknownArgument
  | some (.setting setting), value => draft.addSetting setting value
  | some (.switch _), some _ => .error .surplusValue
  | some (.switch switch), none => draft.turnOn switch

/-- The draft with options given by letters. The text after the letter of a setting is its value,
and an equals sign in front of the value is left out. -/
def addLetters (draft : Draft) : List Char → Except Misuse Draft
  | [] => .ok draft
  | letter :: rest =>
    match Flag.ofLetter? draft.verb letter with
    | none => .error .unknownArgument
    | some (.switch switch) => do
      let draft ← draft.turnOn switch
      draft.addLetters rest
    | some (.setting setting) =>
      match rest with
      | [] => draft.addSetting setting none
      | '=' :: value => draft.addSetting setting (some (String.ofList value))
      | value => draft.addSetting setting (some (String.ofList value))

/-- The draft with an argument that is no option: a selector, for which there has to be a verb. -/
def addSelector (draft : Draft) (text : String) : Except Misuse Draft :=
  match draft.verb, draft.selector with
  | none, _ => .error .unknownVerb
  | some _, some _ => .error .unknownArgument
  | some _, none => do
    let draft ← draft.settle
    return { draft with selector := some text }

/-- The draft with one more argument. -/
def add (draft : Draft) (argument : String) : Except Misuse Draft :=
  if draft.closed then draft.addSelector argument
  else
    match argument.toList with
    | ['-', '-'] => .ok { draft with closed := true }
    | '-' :: '-' :: text => draft.addNamed text
    | '-' :: letter :: letters => draft.addLetters (letter :: letters)
    | _ =>
      match draft.pending with
      | some (setting, none) => .ok { draft with pending := some (setting, some argument) }
      | _ => draft.addSelector argument

/-- The task that a whole draft amounts to under its verb. -/
def task (draft : Draft) (verb : Verb) : Except Misuse Task := do
  let draft ← draft.settle
  match draft.selector, verb with
  | none, _ => .error .noSelector
  | some selector, .check => return .check selector
  | some selector, .keys => return .keys selector draft.json
  | some selector, .eval => return .eval selector draft.options

end Draft

/-- The invocation of arguments. What stands before the verb may be options only, and those are
counted apart from the options after it. -/
def Invocation.ofArguments (arguments : List String) : Except Misuse Invocation := do
  let isOther (argument : String) : Bool := (Verb.ofName? argument).isNone
  let front ← (arguments.takeWhile isOther).foldlM Draft.add {}
  match arguments.dropWhile isOther with
  | [] => .error (if front.verbose then .noVerb else .noArguments)
  | name :: rest =>
    match Verb.ofName? name, front.closed with
    | none, _ => .error .unknownVerb
    | some _, true => .error .unknownArgument
    | some verb, false =>
      let draft ← rest.foldlM Draft.add { verb := some verb }
      return ⟨← draft.task verb, front.verbose || draft.verbose⟩

end MessageSelector.Command
