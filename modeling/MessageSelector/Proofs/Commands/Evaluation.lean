import MessageSelector.Proofs.Commands.Arguments
import MessageSelector.Proofs.Commands.Documents
import MessageSelector.Proofs.Commands.Headers
import MessageSelector.Proofs.Evaluation
import MessageSelector.Proofs.WrittenValues

/-!
# Evaluations from the command line

The settings of an evaluation and the members of its file describe one source, and the outcome that
is printed is that of the selector on this source. `header_of_settings` and `properties_of_settings`
say what the options hold once all settings have been added, `describes_message` that the message
built from them offers what they describe, and `evaluation_agrees` what is printed.
-/

namespace MessageSelector

namespace Command

/-- The setting that gives a header. -/
def Setting.ofHeader : Header → Setting
  | .messageId => messageId
  | .correlationId => correlationId
  | .type => type
  | .priority => priority
  | .deliveryMode => deliveryMode
  | .timestamp => timestamp

/-- The texts of one setting, in order. -/
def textsOf (setting : Setting) (given : List (Setting × String)) : List String :=
  (given.filter (·.1 = setting)).map (·.2)

/-- The last value that is assigned to a name. -/
def lastValue (name : String) (assignments : List Assignment) : Option Value :=
  (assignments.filter (·.name = name)).getLast?.map (·.value)

/-- What settings and the members of a file describe. A header has the value that the text of its
setting spells, and any other name the value of the last property of that name, or else that of the
member. -/
structure Describes (given : List (Setting × String)) (members : List (String × Json))
    (source : Source) : Prop where
  header : ∀ name header, (name, header) ∈ Header.byName →
    match given.lookup (.ofHeader header) with
    | some text => ∃ value, header.Spelled text value ∧ source name = some value
    | none => source name = header.unset?
  property : ∃ assignments,
    List.Forall₂ (fun text => Assignment.Spelled text.toList) (textsOf .property given)
      assignments ∧
    ∀ name, (∀ header, (name, header) ∉ Header.byName) →
      source name =
        (lastValue name assignments).or ((members.lookup name).bind Json.scalar?)

/-! ## Settings -/

namespace MessageOptions

variable {options next final : MessageOptions} {setting : Setting} {text : String}
  {given : List (Setting × String)}

/-- The value that the options hold for a header. -/
def header? (options : MessageOptions) : Header → Option Value
  | .messageId => options.messageId.map .string
  | .correlationId => options.correlationId.map .string
  | .type => options.type.map .string
  | .priority => options.priority.map fun level => .integer (Int64.ofNat level.val)
  | .deliveryMode => options.deliveryMode.map fun mode => .string mode.text
  | .timestamp => options.timestamp.map .integer

/-- What may be given only once was not there before. -/
theorem once_ok {α : Type} {current value result : Option α} (h : once current value = .ok result) :
    current = none ∧ result = value ∧ value.isSome = true := by
  cases current <;> cases value <;> cases h
  exact ⟨rfl, rfl, rfl⟩

/-- What adding a setting does to the options. -/
theorem add_ok (h : options.add text setting = .ok next) :
    match setting with
    | .property => ∃ assignment, Assignment.read text = .ok assignment ∧
        next = { options with properties := options.properties ++ [assignment] }
    | .json => options.json = none ∧ next = { options with json := some text }
    | .messageId => options.messageId = none ∧ next = { options with messageId := some text }
    | .correlationId =>
        options.correlationId = none ∧ next = { options with correlationId := some text }
    | .type => options.type = none ∧ next = { options with type := some text }
    | .priority => options.priority = none ∧ (readPriority? text).isSome = true ∧
        next = { options with priority := readPriority? text }
    | .deliveryMode => options.deliveryMode = none ∧
        (DeliveryMode.ofText? text).toOption.isSome = true ∧
        next = { options with deliveryMode := (DeliveryMode.ofText? text).toOption }
    | .timestamp => options.timestamp = none ∧ (Timestamp.read? text).isSome = true ∧
        next = { options with timestamp := Timestamp.read? text } := by
  cases setting with
  | property =>
      rw [add] at h
      split at h <;> cases h
      next assignment hread => exact ⟨assignment, hread, rfl⟩
  | json =>
      obtain ⟨_, honce, h⟩ := (bind_ok_iff _ _ _).mp h
      obtain ⟨hnone, rfl, -⟩ := once_ok honce
      split at h <;> cases h
      exact ⟨hnone, rfl⟩
  | _ =>
      obtain ⟨_, honce, h⟩ := (bind_ok_iff _ _ _).mp h
      obtain ⟨hnone, rfl, hsome⟩ := once_ok honce
      cases h
      first
      | exact ⟨hnone, hsome, rfl⟩
      | exact ⟨hnone, rfl⟩

/-- A setting of a header sets this header, which was not set before, and no other. -/
theorem header_add (h : options.add text setting = .ok next) (header : Header) :
    if setting = .ofHeader header then
      options.header? header = none ∧ next.header? header = readHeader? header text ∧
        (readHeader? header text).isSome = true
    else next.header? header = options.header? header := by
  have hadded := add_ok h
  cases setting with
  | property =>
      obtain ⟨assignment, -, rfl⟩ := hadded
      cases header <;> rfl
  | priority | deliveryMode | timestamp =>
      obtain ⟨hnone, hsome, rfl⟩ := hadded
      cases header <;> simp [Setting.ofHeader, header?, readHeader?, hnone, hsome]
  | _ =>
      obtain ⟨hnone, rfl⟩ := hadded
      cases header <;> simp [Setting.ofHeader, header?, readHeader?, hnone]

/-- A setting of a property adds it at the end, and no other setting adds any. -/
theorem properties_add (h : options.add text setting = .ok next) :
    if setting = .property then
      ∃ assignment, Assignment.read text = .ok assignment ∧
        next.properties = options.properties ++ [assignment]
    else next.properties = options.properties := by
  have hadded := add_ok h
  cases setting with
  | property =>
      obtain ⟨assignment, hread, rfl⟩ := hadded
      exact ⟨assignment, hread, rfl⟩
  | priority | deliveryMode | timestamp =>
      obtain ⟨-, -, rfl⟩ := hadded
      rfl
  | _ =>
      obtain ⟨-, rfl⟩ := hadded
      rfl

/-- The setting of the file sets it, where there was none before. -/
theorem json_add (h : options.add text setting = .ok next) :
    if setting = .json then options.json = none ∧ next.json = some text
    else next.json = options.json := by
  have hadded := add_ok h
  cases setting with
  | property =>
      obtain ⟨assignment, -, rfl⟩ := hadded
      rfl
  | priority | deliveryMode | timestamp =>
      obtain ⟨-, -, rfl⟩ := hadded
      rfl
  | json =>
      obtain ⟨hnone, rfl⟩ := hadded
      exact ⟨hnone, rfl⟩
  | _ =>
      obtain ⟨-, rfl⟩ := hadded
      rfl

/-- Settings are added one after the other. -/
theorem add_all_cons (h : options.addAll ((setting, text) :: given) = .ok final) :
    ∃ next, options.add text setting = .ok next ∧ next.addAll given = .ok final := by
  rw [addAll, List.foldlM_cons] at h
  exact (bind_ok_iff _ _ _).mp h

/-- A header has the value of the one setting that gives it. -/
theorem header_of_settings (h : options.addAll given = .ok final) (header : Header) :
    match given.lookup (.ofHeader header) with
    | some text => options.header? header = none ∧
        ∃ value, readHeader? header text = some value ∧ final.header? header = some value
    | none => final.header? header = options.header? header := by
  induction given generalizing options with
  | nil =>
      cases h
      rfl
  | cons first rest ih =>
      obtain ⟨setting, text⟩ := first
      obtain ⟨next, hadd, hrest⟩ := add_all_cons h
      have hheader := header_add hadd header
      have hlater := ih hrest
      split at hheader
      · next hsame =>
          obtain ⟨hnone, hnext, hsome⟩ := hheader
          obtain ⟨value, hvalue⟩ := Option.isSome_iff_exists.mp hsome
          rw [hsame, List.lookup_cons_self]
          refine ⟨hnone, value, hvalue, ?_⟩
          -- The header is set now, so no later setting gives it.
          split at hlater
          · rw [hnext, hvalue] at hlater
            cases hlater.1
          · rw [hlater, hnext, hvalue]
      · next hother =>
          rw [List.lookup_cons, beq_false_of_ne (Ne.symm hother)]
          rwa [hheader] at hlater

/-- Properties are those that settings give, in order. -/
theorem properties_of_settings (h : options.addAll given = .ok final) :
    ∃ assignments,
      List.Forall₂ (fun text assignment => Assignment.read text = .ok assignment)
        (textsOf .property given) assignments ∧
      final.properties = options.properties ++ assignments := by
  induction given generalizing options with
  | nil =>
      cases h
      exact ⟨[], .nil, (List.append_nil _).symm⟩
  | cons first rest ih =>
      obtain ⟨setting, text⟩ := first
      obtain ⟨next, hadd, hrest⟩ := add_all_cons h
      obtain ⟨assignments, hassignments, hfinal⟩ := ih hrest
      have hproperties := properties_add hadd
      split at hproperties
      · next hsame =>
          obtain ⟨assignment, hread, hnext⟩ := hproperties
          subst hsame
          refine ⟨assignment :: assignments, .cons hread hassignments, ?_⟩
          rw [hfinal, hnext, List.append_assoc]
          rfl
      · next hother =>
          refine ⟨assignments, ?_, hfinal.trans (by rw [hproperties])⟩
          rwa [textsOf, List.filter_cons_of_neg (by simpa using hother)]

/-- The file is the one that a setting names. -/
theorem json_of_settings (h : options.addAll given = .ok final) :
    final.json = options.json.or (given.lookup .json) := by
  induction given generalizing options with
  | nil =>
      cases h
      exact Option.or_none.symm
  | cons first rest ih =>
      obtain ⟨setting, text⟩ := first
      obtain ⟨next, hadd, hrest⟩ := add_all_cons h
      have hjson := json_add hadd
      rw [ih hrest]
      split at hjson
      · next hsame => rw [hsame, List.lookup_cons_self, hjson.1, hjson.2]; rfl
      · next hother => rw [hjson, List.lookup_cons, beq_false_of_ne (Ne.symm hother)]

end MessageOptions

/-! ## The message -/

section Messages

open Message

/-- Assignments leave headers as they are. -/
theorem sets_of_assignments (header : Header) (assignments : List Assignment) :
    (assignments.map fun assignment => Update.property assignment.name assignment.value).filterMap
      (Update.sets? header) = [] := by
  rw [List.filterMap_map, List.filterMap_eq_nil_iff]
  intro assignment _
  cases header <;> rfl

/-- An option that is written at most once sets a header to what it holds, if it sets it at all. -/
theorem sets_of_option {α : Type} (header : Header) (held : Option α) (write : α → Update) :
    (held.toList.map write).filterMap (Update.sets? header) =
      (held.bind fun value => (write value).sets? header).toList := by
  cases held with
  | none => rfl
  | some value => cases h : (write value).sets? header <;> simp [h]

/-- The message of options has the headers that the options hold. -/
theorem header_of_message (options : MessageOptions) (fromFile : List Assignment)
    (header : Header) :
    (options.message fromFile).source header.name =
      (options.header? header).or header.unset? := by
  rw [MessageOptions.message, source_build_header _ (Header.mem_by_name_iff.mpr rfl)]
  congr 1
  unfold lastSet
  simp only [List.filterMap_append, sets_of_assignments, List.nil_append, sets_of_option]
  have hmin (level : Fin 10) : min level.val 9 = level.val := by omega
  have hmode (mode : DeliveryMode) :
      (Update.deliveryMode mode).sets? .deliveryMode = some (.string mode.text) := by
    cases mode <;> rfl
  have hlast (value : Option Value) : value.toList.getLast? = value := by cases value <;> rfl
  cases header with
  | deliveryMode =>
      simp only [hmode]
      simp [Update.sets?, MessageOptions.header?, hlast, Option.map_eq_bind]
  | _ => simp [Update.sets?, MessageOptions.header?, hlast, hmin, Option.map_eq_bind]

/-- Assignments to a name give it their values. -/
theorem assigns_of_assignments (name : String) (assignments : List Assignment) :
    (assignments.map fun assignment => Update.property assignment.name assignment.value).filterMap
      (Update.assigns? name) = (assignments.filter (·.name = name)).map (·.value) := by
  rw [List.filterMap_map]
  induction assignments with
  | nil => rfl
  | cons first rest ih =>
      by_cases hname : first.name = name <;>
        simp [Update.assigns?, hname, ih]

/-- What options that are written at most once set are headers. -/
theorem assigns_of_option {α : Type} (name : String) (held : Option α) {write : α → Update}
    (h : ∀ value, (write value).assigns? name = none) :
    (held.toList.map write).filterMap (Update.assigns? name) = [] := by
  cases held with
  | none => rfl
  | some value => simp [h]

/-- The last of the values that are assigned to a name in the end. -/
theorem last_value_append (name : String) (assignments more : List Assignment) :
    lastValue name (assignments ++ more) =
      (lastValue name more).or (lastValue name assignments) := by
  simp only [lastValue, List.filter_append, List.getLast?_append]
  cases (more.filter (·.name = name)).getLast? <;> rfl

/-- The message of options has the properties of the file, and over them those of the options. -/
theorem property_of_message (options : MessageOptions) (fromFile : List Assignment) {name : String}
    (h : Header.ofName? name = none) :
    (options.message fromFile).source name =
      (lastValue name options.properties).or (lastValue name fromFile) := by
  rw [MessageOptions.message, source_build_property _ (Header.of_name_eq_none_iff.mp h),
    lastAssigned, ← last_value_append]
  simp only [List.filterMap_append]
  rw [assigns_of_assignments, lastValue, ← List.getLast?_map]
  repeat rw [assigns_of_option name _ fun _ => rfl]
  simp only [List.append_nil]

/-- The last value that a document gives to a name is that of its one member of the name. -/
theorem last_value_of_members {members : List (String × Json)} (h : Json.Ordered members)
    (name : String) :
    lastValue name (propertiesOf members) = (members.lookup name).bind Json.scalar? := by
  rw [← Json.last_member h, lastValue, propertiesOf, ← List.getLast?_map]
  congr 1
  clear h
  induction members with
  | nil => rfl
  | cons first rest ih =>
      cases hscalar : first.2.scalar? with
      | none => simp [hscalar, ih]
      | some value => by_cases hname : first.1 = name <;> simp [hscalar, hname, ih]

/-- Texts are read as one list of assignments. -/
theorem assignments_unique {texts : List String} {assignments others : List Assignment}
    (h : List.Forall₂ (fun text => Assignment.Spelled text.toList) texts assignments)
    (hothers : List.Forall₂ (fun text => Assignment.Spelled text.toList) texts others) :
    assignments = others := by
  induction h generalizing others with
  | nil =>
      cases hothers
      rfl
  | cons hfirst _ ih =>
      cases hothers with
      | cons hother hrest =>
          have hread := (Assignment.read_iff.mpr hfirst).symm.trans (Assignment.read_iff.mpr hother)
          cases hread
          rw [ih hrest]

/-- The message of options offers what their settings and the members of the file describe. -/
theorem describes_message {given : List (Setting × String)} {options : MessageOptions}
    {members : List (String × Json)} (h : MessageOptions.addAll {} given = .ok options)
    (hmembers : Json.Ordered members) :
    Describes given members (options.message (propertiesOf members)).source := by
  constructor
  · intro name header hname
    rw [Header.mem_by_name_iff.mp hname, header_of_message]
    have hheader := MessageOptions.header_of_settings h header
    split at hheader
    · obtain ⟨-, value, hvalue, hfinal⟩ := hheader
      exact ⟨value, read_header_iff.mp hvalue, by rw [hfinal, Option.some_or]⟩
    · have hunset : MessageOptions.header? {} header = none := by cases header <;> rfl
      rw [hheader, hunset, Option.none_or]
  · obtain ⟨assignments, hread, hproperties⟩ := MessageOptions.properties_of_settings h
    refine ⟨assignments, hread.imp fun _ _ => Assignment.read_iff.mp, fun name hname => ?_⟩
    rw [property_of_message _ _ (Header.of_name_eq_none_iff.mpr hname),
      last_value_of_members hmembers, hproperties]
    rfl

/-- Settings and members describe no two sources. -/
theorem describes_unique {given : List (Setting × String)} {members : List (String × Json)}
    {source other : Source} (h : Describes given members source)
    (hother : Describes given members other) : source = other := by
  funext name
  by_cases hname : ∃ header, (name, header) ∈ Header.byName
  · obtain ⟨header, hname⟩ := hname
    have hsource := h.header name header hname
    have hsame := hother.header name header hname
    split at hsource
    · next text heq =>
        rw [heq] at hsame
        obtain ⟨value, hvalue, hsource⟩ := hsource
        obtain ⟨again, hagain, hsame⟩ := hsame
        have hread := (read_header_iff.mpr hvalue).symm.trans (read_header_iff.mpr hagain)
        rw [hsource, hsame, Option.some.inj hread]
    · next heq =>
        rw [heq] at hsame
        rw [hsource, hsame]
  · have hname := not_exists.mp hname
    obtain ⟨assignments, hspelled, hsource⟩ := h.property
    obtain ⟨others, hagain, hsame⟩ := hother.property
    rw [hsource name hname, hsame name hname, assignments_unique hspelled hagain]

end Messages

/-! ## Reports -/

/-- What a report prints as its answer. -/
def Report.output : Report → String
  | printed _ text => text
  | failed _ => ""

/-- The line that tells an outcome. -/
def outcomeLine : Truth → String
  | .holds => "true\n"
  | .fails => "false\n"
  | .unknown => "unknown\n"

/-- A report tells the outcome of a selector on the one source that settings and members describe,
unless the members are not all scalars. -/
def Report.Tells (report : Report) (selector : Selector) (given : List (Setting × String))
    (members : List (String × Json)) : Prop :=
  if members.all (·.2.isScalar) then
    ∃ source, (∀ other, Describes given members other ↔ other = source) ∧
      report.output = outcomeLine (selector.truth source) ∧
      (report.status = 0 ↔ selector.truth source = .holds) ∧
      (report.status = 1 ↔ selector.truth source ≠ .holds)
  else report.status = 2 ∧ report.output = ""

/-- The report of an evaluation, given the properties of the file. -/
def evaluationReport (selector : Selector) (options : MessageOptions) :
    Except String (List Assignment) → Report
  | .error message => .failed message
  | .ok fromFile =>
    let outcome := selector.truth (options.message fromFile).source
    .printed outcome.isHolds (printLines [outcome.text])

/-- The properties in what was read of a file. -/
def propertiesRead (path : String) : Except String String → Except String (List Assignment)
  | .ok text => documentProperties text
  | .error reason => .error ("reading properties from " ++ documentName path ++ ": " ++ reason)

/-- The report of an evaluation with scalars tells its outcome. -/
theorem report_tells {selector : Selector} {given : List (Setting × String)}
    {options : MessageOptions} {members : List (String × Json)}
    (h : MessageOptions.addAll {} given = .ok options) (hmembers : Json.Ordered members)
    (hscalars : members.all (·.2.isScalar) = true) :
    (evaluationReport selector options (.ok (propertiesOf members))).Tells selector given
      members := by
  rw [Report.Tells, if_pos hscalars]
  have hdescribes := describes_message h hmembers
  refine ⟨_, fun other => ⟨fun hother => describes_unique hother hdescribes, ?_⟩, ?_⟩
  · rintro rfl
    exact hdescribes
  · rw [evaluationReport]
    generalize selector.truth (options.message (propertiesOf members)).source = outcome
    cases outcome <;> decide

/-- The report of an evaluation with a document tells its outcome. -/
theorem report_of_document_tells {selector : Selector} {given : List (Setting × String)}
    {options : MessageOptions} {document : String} {members : List (String × Json)}
    (h : MessageOptions.addAll {} given = .ok options)
    (hread : Json.readObject? document = some members) :
    (evaluationReport selector options (documentProperties document)).Tells selector given
      members := by
  have hproperties := document_properties hread
  split at hproperties
  · next hscalars =>
      rw [hproperties]
      exact report_tells h (Json.read_object_ordered hread) hscalars
  · next hcomposite =>
      obtain ⟨message, hmessage⟩ := hproperties
      rw [hmessage, Report.Tells, if_neg hcomposite]
      exact ⟨rfl, rfl⟩

section Performing

variable {m : Type → Type} [Monad m] [LawfulMonad m] (read : String → m (Except String String))
  {text : String} {options : MessageOptions} {verbose : Bool}

/-- A selector that compiles is observed with the record of its compilation. -/
theorem observed_compile {selector : Selector} (h : Selector.compile text = .ok selector) :
    Selector.Observed.compile [] text =
      .ok (⟨selector, some []⟩, [Selector.Activity.compiled.record [] selector]) := by
  rw [Selector.Observed.compile, h]
  rfl

omit [LawfulMonad m] in
/-- A selector that does not compile is all that is looked at. -/
theorem perform_rejected {rejection : Rejection} (h : Selector.compile text = .error rejection) :
    Invocation.perform read ⟨.eval text options, verbose⟩ =
      pure (.failed rejection.message, []) := by
  have hcompile : Selector.Observed.compile [] text = .error rejection := by
    rw [Selector.Observed.compile, h]
    rfl
  rw [Invocation.perform, Task.selector, hcompile]

/-- Without a file an evaluation reports on the options alone. -/
theorem perform_without_file {selector : Selector} (h : Selector.compile text = .ok selector)
    (hfile : options.json = none) :
    ∃ records, Invocation.perform read ⟨.eval text options, verbose⟩ =
      pure (evaluationReport selector options (.ok []), records) := by
  refine ⟨[Selector.Activity.compiled.record [] selector], ?_⟩
  rw [Invocation.perform, Task.selector, observed_compile h]
  simp only [Task.perform, MessageOptions.load, hfile, pure_bind, evaluationReport,
    List.append_nil]

/-- With a file an evaluation reports on what is read of it. -/
theorem perform_with_file {selector : Selector} {path : String}
    (h : Selector.compile text = .ok selector) (hfile : options.json = some path) :
    ∃ records, Invocation.perform read ⟨.eval text options, verbose⟩ =
      (fun content =>
        (evaluationReport selector options (propertiesRead path content), records)) <$>
          read path := by
  refine ⟨[Selector.Activity.compiled.record [] selector], ?_⟩
  rw [Invocation.perform, Task.selector, observed_compile h]
  simp only [Task.perform, MessageOptions.load, hfile, bind_assoc, map_eq_pure_bind]
  congr 1
  funext content
  cases content with
  | error reason => simp [propertiesRead, evaluationReport]
  | ok document =>
      simp only [propertiesRead, pure_bind]
      cases documentProperties document <;> simp [evaluationReport]

/-- An evaluation tells the outcome of its selector on what its settings and the members of the file
describe. Every invocation of an evaluation is one of `eval` with a selector and settings after it.
Where the selector does not compile, the report has the status two and prints nothing. Otherwise
the file that the settings name is read, if they name one, and the report tells the outcome, or has
the status two where a member is no scalar. -/
theorem evaluation_agrees {arguments : List String} {invocation : Invocation}
    (hinvocation : Invocation.ofArguments arguments = .ok invocation)
    (htask : invocation.task = .eval text options) :
    ∃ front rest, arguments = front ++ "eval" :: rest ∧
      (∀ argument ∈ front, argument ∉ ["check", "keys", "eval"]) ∧
      selectorsIn (givenBy rest) = [text] ∧
      (∀ rejection, Selector.compile text = .error rejection →
        ∃ report, invocation.perform read = pure (report, []) ∧
          report.status = 2 ∧ report.output = "") ∧
      ∀ selector, Selector.compile text = .ok selector →
        ((settingsIn (givenBy rest)).lookup .json = none →
          ∃ report records, invocation.perform read = pure (report, records) ∧
            report.Tells selector (settingsIn (givenBy rest)) []) ∧
        ∀ path, (settingsIn (givenBy rest)).lookup .json = some path →
          ∃ (respond : Except String String → Report) (records : List Selector.Record),
            invocation.perform read = (fun content => (respond content, records)) <$> read path ∧
            ∀ document members, Json.readObject? document = some members →
              (respond (.ok document)).Tells selector (settingsIn (givenBy rest)) members := by
  obtain ⟨front, rest, harguments, hfront, hselector, hoptions⟩ :=
    given_of_arguments hinvocation htask
  have hjson := MessageOptions.json_of_settings hoptions
  rw [Option.none_or] at hjson
  obtain ⟨task, verbose⟩ := invocation
  obtain rfl : task = .eval text options := htask
  refine ⟨front, rest, harguments, hfront, hselector,
    fun rejection hrejection => ⟨_, perform_rejected read hrejection, rfl, rfl⟩,
    fun selector hcompile => ⟨fun hnone => ?_, fun path hpath => ?_⟩⟩
  · obtain ⟨records, hperform⟩ : ∃ records, Invocation.perform read ⟨.eval text options, verbose⟩ =
        pure (evaluationReport selector options (.ok []), records) :=
      perform_without_file read hcompile (hjson.trans hnone)
    have htells : (evaluationReport selector options (.ok (propertiesOf []))).Tells selector
        (settingsIn (givenBy rest)) [] := report_tells hoptions .nil rfl
    exact ⟨_, records, hperform, htells⟩
  · obtain ⟨records, hperform⟩ : ∃ records, Invocation.perform read ⟨.eval text options, verbose⟩ =
        (fun content =>
          (evaluationReport selector options (propertiesRead path content), records)) <$>
            read path :=
      perform_with_file read hcompile (hjson.trans hpath)
    refine ⟨fun content => evaluationReport selector options (propertiesRead path content), records,
      hperform, fun document members hread => ?_⟩
    exact report_of_document_tells hoptions hread

end Performing

/-- An option comes before a property of the file. -/
theorem evaluation_agrees_shadowed :
    let arguments := ["eval", "--json", "f", "a = 7", "-p", "a=7", "--priority=2"]
    let read (path : String) : Id (Except String String) :=
      if path = "f" then .ok "\x7b\"a\": 1, \"b\": null\x7d" else .error "missing"
    ∃ invocation, Invocation.ofArguments arguments = .ok invocation ∧
      (invocation.perform read).1.output = "true\n" ∧ (invocation.perform read).1.status = 0 := by
  intro arguments read
  let options : MessageOptions :=
    { properties := [⟨"a", .integer 7⟩], json := some "f", priority := some 2 }
  have hinvocation : Invocation.ofArguments arguments = .ok ⟨.eval "a = 7" options, false⟩ := by
    cbv
  have hcompile : Selector.compile "a = 7" =
      .ok ⟨some (.comparison .equal (.identifier "a") (.literal (.integer 7)))⟩ := by
    cbv
  obtain ⟨front, rest, harguments, hfront, -, -, hcompiled⟩ :=
    evaluation_agrees read hinvocation rfl
  obtain rfl : front = [] := by
    cases front with
    | nil => rfl
    | cons first more =>
        obtain ⟨rfl, -⟩ := List.cons.inj harguments
        exact absurd (hfront _ List.mem_cons_self) (by decide)
  obtain ⟨-, rfl⟩ := List.cons.inj harguments
  obtain ⟨respond, records, hperform, htells⟩ :=
    (hcompiled _ hcompile).2 "f" (by decide +kernel)
  have hmembers : (Json.readObject? "\x7b\"a\": 1, \"b\": null\x7d").map (fun members =>
      (members.all (·.2.isScalar),
        Selector.truth ⟨some (.comparison .equal (.identifier "a") (.literal (.integer 7)))⟩
          (options.message (propertiesOf members)).source)) =
        some (true, .holds) := by
    decide +kernel
  obtain ⟨members, hread, hfacts⟩ := Option.map_eq_some_iff.mp hmembers
  obtain ⟨hscalars, hholds⟩ := Prod.mk.inj hfacts
  have hsettings : settingsIn (givenBy ["--json", "f", "a = 7", "-p", "a=7", "--priority=2"]) =
      [(.json, "f"), (.property, "a=7"), (.priority, "2")] := by
    decide +kernel
  have hoptions : MessageOptions.addAll {} [(.json, "f"), (.property, "a=7"), (.priority, "2")] =
      .ok options := by
    cbv
  have hanswer := htells _ members hread
  rw [Report.Tells, if_pos hscalars, hsettings] at hanswer
  obtain ⟨source, hsource, houtput, hzero, -⟩ := hanswer
  have hdescribes := describes_message hoptions (Json.read_object_ordered hread)
  rw [← (hsource _).mp hdescribes, hholds] at houtput hzero
  refine ⟨_, hinvocation, ?_⟩
  rw [hperform]
  exact ⟨houtput, hzero.mpr rfl⟩

end Command

end MessageSelector
