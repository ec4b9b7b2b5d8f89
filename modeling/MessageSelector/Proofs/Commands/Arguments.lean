import Mathlib.Data.List.TakeDrop
import MessageSelector.Command.Arguments
import MessageSelector.Proofs.Outcomes

/-!
# What the arguments of an evaluation give

Every argument after the verb `eval` is a switch, a selector, or part of a setting with its text.
`givenBy` tells which, by the words that the settings begin with and nothing else. The arguments are
taken one at a time by a draft that looks at the text of a setting late, and `given_of_arguments`
says that what a draft amounts to is still what `givenBy` tells, in the same order.
-/

namespace MessageSelector.Command

/-- What arguments give to an evaluation. -/
inductive Given where
  | setting (setting : Setting) (text : String)
  | selector (text : String)
  deriving DecidableEq, Repr

namespace Setting

/-- The settings of an evaluation. -/
def all : List Setting :=
  [property, json, messageId, correlationId, type, priority, deliveryMode, timestamp]

/-- The long name of a setting. -/
def name : Setting → String
  | property => "property"
  | json => "json"
  | messageId => "message-id"
  | correlationId => "correlation-id"
  | type => "type"
  | priority => "priority"
  | deliveryMode => "delivery-mode"
  | timestamp => "timestamp"

/-- The arguments after which the text of a setting is an argument of its own. -/
def announcements : Setting → List String
  | property => ["--property", "-p", "-vp"]
  | setting => ["--" ++ setting.name]

/-- What stands in front of the text of a setting in one argument. The first that fits counts. -/
def openings : Setting → List String
  | property => ["--property=", "-p=", "-vp=", "-p", "-vp"]
  | setting => ["--" ++ setting.name ++ "="]

/-- The setting that an argument announces. -/
def announced? (argument : String) : Option Setting :=
  all.find? fun setting => setting.announcements.contains argument

/-- What an argument has after the words it opens with. -/
def after? (argument opening : String) : Option String :=
  if opening.toList.isPrefixOf argument.toList then
    some (String.ofList (argument.toList.drop opening.toList.length))
  else none

/-- The setting that an argument gives together with its text. -/
def attached? (argument : String) : Option (Setting × String) :=
  all.findSome? fun setting =>
    (setting.openings.findSome? (after? argument)).map fun text => (setting, text)

end Setting

/-- What the arguments after the verb give, in order. After two hyphens there are only selectors. -/
def givenBy : List String → List Given
  | [] => []
  | argument :: rest =>
    if argument = "--" then rest.map .selector
    else
      match Setting.announced? argument, rest with
      | some setting, text :: rest => .setting setting text :: givenBy rest
      | some _, [] => []
      | none, rest =>
        match Setting.attached? argument with
        | some (setting, text) => .setting setting text :: givenBy rest
        | none =>
          if ["-v", "--verbose"].contains argument then givenBy rest
          else .selector argument :: givenBy rest

/-- The settings among what is given, each with its text. -/
def settingsIn (given : List Given) : List (Setting × String) :=
  given.filterMap fun
    | .setting setting text => some (setting, text)
    | .selector _ => none

/-- The selectors among what is given. -/
def selectorsIn (given : List Given) : List String :=
  given.filterMap fun
    | .setting _ _ => none
    | .selector text => some text

@[simp] theorem settings_in_setting (setting : Setting) (text : String) (given : List Given) :
    settingsIn (.setting setting text :: given) = (setting, text) :: settingsIn given :=
  rfl

@[simp] theorem settings_in_selector (text : String) (given : List Given) :
    settingsIn (.selector text :: given) = settingsIn given :=
  rfl

@[simp] theorem selectors_in_setting (setting : Setting) (text : String) (given : List Given) :
    selectorsIn (.setting setting text :: given) = selectorsIn given :=
  rfl

@[simp] theorem selectors_in_selector (text : String) (given : List Given) :
    selectorsIn (.selector text :: given) = text :: selectorsIn given :=
  rfl

/-! ## Words -/

section Words

open Setting

variable {setting : Setting} {argument : String}

/-- After two hyphens there are only selectors. -/
theorem given_by_hyphens (rest : List String) : givenBy ("--" :: rest) = rest.map .selector := by
  conv => lhs; unfold givenBy
  exact if_pos rfl

/-- The long name of a setting announces it. -/
theorem given_by_name (h : argument.toList = '-' :: '-' :: setting.name.toList) :
    givenBy [argument] = [] ∧ ∀ text rest,
      givenBy (argument :: text :: rest) = .setting setting text :: givenBy rest := by
  obtain rfl : argument = String.ofList ('-' :: '-' :: setting.name.toList) := by
    rw [← h, String.ofList_toList]
  have hwords : String.ofList ('-' :: '-' :: setting.name.toList) ≠ "--" ∧
      announced? (String.ofList ('-' :: '-' :: setting.name.toList)) = some setting := by
    cases setting <;> decide
  constructor
  · unfold givenBy
    rw [if_neg hwords.1, hwords.2]
  · intro text rest
    conv => lhs; unfold givenBy
    rw [if_neg hwords.1, hwords.2]

/-- The long name of a setting and an equals sign have its text behind them. -/
theorem given_by_attached_name {text : List Char}
    (h : argument.toList = '-' :: '-' :: setting.name.toList ++ '=' :: text) (rest : List String) :
    givenBy (argument :: rest) = .setting setting (String.ofList text) :: givenBy rest := by
  have hclosing : argument ≠ "--" := by
    rintro rfl
    cases setting <;> simp [name] at h
  have hannounced : announced? argument = none := by
    rw [announced?, List.find?_eq_none]
    cases setting <;> simp [all, announcements, name, ← String.toList_inj, h]
  have hattached : attached? argument = some (setting, String.ofList text) := by
    cases setting <;> simp [attached?, all, openings, name, after?, h]
  conv => lhs; unfold givenBy
  rw [if_neg hclosing, hannounced]
  simp only [hattached]

/-- The letter of a property, after that of a switch or not. -/
def IsLetter (letters : List Char) : Prop :=
  letters = ['-', 'p'] ∨ letters = ['-', 'v', 'p']

/-- The letter of a property announces it. -/
theorem given_by_letter (hletter : IsLetter argument.toList) :
    givenBy [argument] = [] ∧ ∀ text rest,
      givenBy (argument :: text :: rest) = .setting .property text :: givenBy rest := by
  have hwords : argument ≠ "--" ∧ announced? argument = some .property := by
    rcases hletter with h | h
    · obtain rfl : argument = "-p" := String.toList_inj.mp h
      decide
    · obtain rfl : argument = "-vp" := String.toList_inj.mp h
      decide
  constructor
  · unfold givenBy
    rw [if_neg hwords.1, hwords.2]
  · intro text rest
    conv => lhs; unfold givenBy
    rw [if_neg hwords.1, hwords.2]

/-- The letter of a property has its text behind it, without an equals sign in front. -/
theorem given_by_attached_letter {letters text : List Char} (hletter : IsLetter letters)
    (hne : text ≠ []) (h : argument.toList = letters ++ text) (rest : List String) :
    givenBy (argument :: rest) =
      .setting .property (String.ofList (if text.head? = some '=' then text.tail else text)) ::
        givenBy rest := by
  obtain ⟨c, text, rfl⟩ := List.exists_cons_of_ne_nil hne
  have hclosing : argument ≠ "--" := by
    rintro rfl
    rcases hletter with rfl | rfl <;> simp at h
  have hannounced : announced? argument = none := by
    rw [announced?, List.find?_eq_none]
    rcases hletter with rfl | rfl <;> simp [all, announcements, name, ← String.toList_inj, h]
  have hattached : attached? argument =
      some (.property, String.ofList (if c = '=' then text else c :: text)) := by
    by_cases hequals : c = '='
    · subst hequals
      rcases hletter with rfl | rfl <;> simp [attached?, all, openings, name, after?, h]
    · rcases hletter with rfl | rfl <;>
        simp [attached?, all, openings, name, after?, h, hequals, Ne.symm hequals, List.findSome?]
  conv => lhs; unfold givenBy
  rw [if_neg hclosing, hannounced]
  simp only [hattached]
  simp

/-- A switch gives nothing. -/
theorem given_by_switch (h : argument = "-v" ∨ argument = "--verbose") (rest : List String) :
    givenBy (argument :: rest) = givenBy rest := by
  have hwords : argument ≠ "--" ∧ announced? argument = none ∧ attached? argument = none ∧
      ["-v", "--verbose"].contains argument = true := by
    rcases h with rfl | rfl <;> decide
  conv => lhs; unfold givenBy
  rw [if_neg hwords.1, hwords.2.1]
  simp only [hwords.2.2.1]
  exact if_pos hwords.2.2.2

/-- What does not begin with a hyphen, or is one, is a selector. -/
theorem given_by_plain (h : ∀ c rest, argument.toList ≠ '-' :: c :: rest) (rest : List String) :
    givenBy (argument :: rest) = .selector argument :: givenBy rest := by
  have hwords : argument ≠ "--" ∧ announced? argument = none ∧ attached? argument = none ∧
      ["-v", "--verbose"].contains argument = false := by
    rcases hargument : argument.toList with _ | ⟨c, _ | ⟨d, more⟩⟩
    · simp [announced?, attached?, all, openings, announcements, name, after?,
        ← String.toList_inj, hargument]
    · simp [announced?, attached?, all, openings, announcements, name, after?,
        ← String.toList_inj, hargument]
    · have hc : c ≠ '-' := by
        rintro rfl
        exact h d more hargument
      simp [announced?, attached?, all, openings, announcements, name, after?,
        ← String.toList_inj, hargument, hc, hc.symm]
  conv => lhs; unfold givenBy
  rw [if_neg hwords.1, hwords.2.1]
  simp only [hwords.2.2.1]
  exact if_neg (by rw [hwords.2.2.2]; decide)

end Words

/-- The options of an evaluation are the settings, under their long names, and the switch. -/
theorem flag_of_name {name : String} {flag : Flag}
    (h : Flag.ofName? (some .eval) name = some flag) :
    flag = .switch .verbose ∧ name = "verbose" ∨
      ∃ setting : Setting, flag = .setting setting ∧ name = setting.name := by
  unfold Flag.ofName? at h
  split at h <;> cases h
  · exact .inl ⟨rfl, rfl⟩
  · contradiction
  all_goals exact .inr ⟨_, rfl, rfl⟩

/-- The letters of an evaluation are those of the switch and of a property. -/
theorem flag_of_letter {letter : Char} {flag : Flag}
    (h : Flag.ofLetter? (some .eval) letter = some flag) :
    flag = .switch .verbose ∧ letter = 'v' ∨ flag = .setting .property ∧ letter = 'p' := by
  unfold Flag.ofLetter? at h
  split at h <;> cases h
  · exact .inl ⟨rfl, rfl⟩
  · exact .inr ⟨rfl, rfl⟩

/-! ## Drafts -/

/-- The options with settings added one after another. -/
def MessageOptions.addAll (options : MessageOptions) (given : List (Setting × String)) :
    Except Misuse MessageOptions :=
  given.foldlM (fun options (setting, text) => options.add text setting) options

namespace Draft

variable {draft next settled final : Draft} {argument : String}

/-- What a draft is given by arguments, the pending setting first. -/
def given (draft : Draft) (arguments : List String) : List Given :=
  let others (arguments : List String) :=
    if draft.closed then arguments.map .selector else givenBy arguments
  match draft.pending, arguments with
  | none, arguments => others arguments
  | some (setting, some text), arguments => .setting setting text :: others arguments
  | some (setting, none), text :: rest => .setting setting text :: others rest
  | some (_, none), [] => []

/-- What is given makes the settled draft out of a draft. -/
def Makes (draft : Draft) (given : List Given) (settled : Draft) : Prop :=
  draft.options.addAll (settingsIn given) = .ok settled.options ∧
    draft.selector.toList ++ selectorsIn given = settled.selector.toList

/-- A setting comes before what the options with it make. -/
theorem Makes.of_setting {setting : Setting} {text : String} {given : List Given}
    (h : Makes next given settled) (hadd : draft.options.add text setting = .ok next.options)
    (hselector : next.selector = draft.selector) :
    Makes draft (.setting setting text :: given) settled := by
  obtain ⟨hoptions, htexts⟩ := h
  refine ⟨?_, hselector ▸ htexts⟩
  rw [settings_in_setting, MessageOptions.addAll, List.foldlM_cons]
  change (draft.options.add text setting >>= _) = _
  rw [hadd]
  exact hoptions

/-- A draft takes arguments and becomes another one: what this makes of whatever follows, the draft
makes of them all. -/
structure Takes (draft : Draft) (front : List String) (next : Draft) : Prop where
  verb : next.verb = draft.verb
  makes : ∀ rest settled, Makes next (next.given rest) settled →
    Makes draft (draft.given (front ++ rest)) settled

/-- Arguments are taken one after another. -/
theorem Takes.trans {front more : List String} (first : Takes draft front next)
    (second : Takes next more final) : Takes draft (front ++ more) final where
  verb := second.verb.trans first.verb
  makes rest settled h := by
    rw [List.append_assoc]
    exact first.makes _ _ (second.makes _ _ h)

/-- Without anything pending, an open draft is given what the arguments tell. -/
theorem given_open (hclosed : draft.closed = false) (hpending : draft.pending = none)
    (arguments : List String) : draft.given arguments = givenBy arguments := by
  simp [given, hpending, hclosed]

/-- A draft settles when nothing is pending or the pending text is in order. -/
theorem settle_ok (h : draft.settle = .ok next) :
    next = draft ∧ draft.pending = none ∨
      ∃ setting text options, draft.pending = some (setting, some text) ∧
        draft.options.add text setting = .ok options ∧
        next = { draft with options, pending := none } := by
  unfold settle at h
  split at h
  · next hpending =>
      cases h
      exact .inl ⟨rfl, hpending⟩
  · cases h
  · next setting text hpending =>
      obtain ⟨options, hoptions, heq⟩ := (bind_ok_iff _ _ _).mp h
      cases heq
      exact .inr ⟨setting, text, options, hpending, hoptions, rfl⟩

/-- Settling changes nothing but the options, and leaves nothing pending. -/
theorem settle_keeps (h : draft.settle = .ok next) :
    next.pending = none ∧ next.verb = draft.verb ∧ next.closed = draft.closed ∧
      next.selector = draft.selector := by
  rcases settle_ok h with ⟨rfl, hpending⟩ | ⟨setting, text, options, -, -, rfl⟩
  · exact ⟨hpending, rfl, rfl, rfl⟩
  · exact ⟨rfl, rfl, rfl, rfl⟩

/-- Settling takes no argument: the pending setting is the first that a draft is given. -/
theorem takes_settle (h : draft.settle = .ok next) : Takes draft [] next := by
  refine ⟨(settle_keeps h).2.1, fun rest settled hmakes => ?_⟩
  rcases settle_ok h with ⟨rfl, hpending⟩ | ⟨setting, text, options, hpending, hadd, rfl⟩
  · exact hmakes
  · have hgiven : draft.given ([] ++ rest) = .setting setting text ::
        Draft.given { draft with options, pending := none } rest := by
      simp [given, hpending]
    rw [hgiven]
    exact hmakes.of_setting hadd rfl

/-- Turning the switch on takes no argument. -/
theorem takes_switch (h : draft.turnOn .verbose = .ok next) :
    Takes draft [] next ∧ next.closed = draft.closed ∧ next.pending = none ∧
      next.verbose = true := by
  obtain ⟨settled, hsettle, h⟩ := (bind_ok_iff _ _ _).mp h
  obtain ⟨hpending, -, hclosed, -⟩ := settle_keeps hsettle
  dsimp only at h
  split at h <;> cases h
  refine ⟨?_, hclosed, hpending, rfl⟩
  exact (takes_settle hsettle).trans ⟨rfl, fun rest final hmakes => hmakes⟩

/-- A setting is announced by an argument, and its text is the next one. -/
theorem takes_announced {setting : Setting} (hclosed : draft.closed = false)
    (hwords : givenBy [argument] = [] ∧ ∀ text rest,
      givenBy (argument :: text :: rest) = .setting setting text :: givenBy rest)
    (h : draft.addSetting setting none = .ok next) : Takes draft [argument] next := by
  obtain ⟨settled, hsettle, h⟩ := (bind_ok_iff _ _ _).mp h
  cases h
  obtain ⟨hpending, -, hkept, -⟩ := settle_keeps hsettle
  rw [hclosed] at hkept
  refine (takes_settle hsettle).trans ⟨rfl, fun rest final hmakes => ?_⟩
  suffices settled.given ([argument] ++ rest) =
      Draft.given { settled with pending := some (setting, none) } rest by
    rw [this]
    exact hmakes
  rw [given_open hkept hpending]
  cases rest with
  | nil => exact hwords.1
  | cons text rest => simp [given, hwords.2, hkept]

/-- A setting and its text are one argument. -/
theorem takes_attached {setting : Setting} {text : String} (hclosed : draft.closed = false)
    (hwords : ∀ rest, givenBy (argument :: rest) = .setting setting text :: givenBy rest)
    (h : draft.addSetting setting (some text) = .ok next) : Takes draft [argument] next := by
  obtain ⟨settled, hsettle, h⟩ := (bind_ok_iff _ _ _).mp h
  obtain ⟨options, hadd, h⟩ := (bind_ok_iff _ _ _).mp h
  cases h
  obtain ⟨hpending, -, hkept, -⟩ := settle_keeps hsettle
  rw [hclosed] at hkept
  refine (takes_settle hsettle).trans ⟨rfl, fun rest final hmakes => ?_⟩
  have hgiven : settled.given ([argument] ++ rest) = .setting setting text ::
      Draft.given { settled with options } rest := by
    simp [given, hpending, hkept, hwords]
  rw [hgiven]
  exact hmakes.of_setting hadd rfl

/-- An argument is the selector. -/
theorem takes_selector (hverb : draft.verb = some .eval)
    (hwords : draft.closed = false → ∀ rest,
      givenBy (argument :: rest) = .selector argument :: givenBy rest)
    (h : draft.addSelector argument = .ok next) : Takes draft [argument] next := by
  unfold addSelector at h
  rw [hverb] at h
  rcases hselector : draft.selector with _ | selector <;> rw [hselector] at h
  · obtain ⟨settled, hsettle, h⟩ := (bind_ok_iff _ _ _).mp h
    cases h
    obtain ⟨hpending, -, hclosed, hkept⟩ := settle_keeps hsettle
    rw [hselector] at hkept
    refine (takes_settle hsettle).trans ⟨rfl, fun rest final ⟨hoptions, htexts⟩ => ?_⟩
    have hgiven : settled.given ([argument] ++ rest) = .selector argument ::
        Draft.given { settled with selector := some argument } rest := by
      rw [← hclosed] at hwords
      cases hc : settled.closed <;> simp [given, hpending, hc, hwords]
    rw [hgiven]
    exact ⟨hoptions, by rw [hkept]; exact htexts⟩
  · cases h

/-- An argument of its own is the text of the setting announced before it. -/
theorem takes_value {setting : Setting} (hpending : draft.pending = some (setting, none)) :
    Takes draft [argument] { draft with pending := some (setting, some argument) } := by
  refine ⟨rfl, fun rest final hmakes => ?_⟩
  suffices draft.given ([argument] ++ rest) =
      Draft.given { draft with pending := some (setting, some argument) } rest by
    rw [this]
    exact hmakes
  simp [given, hpending]

/-- A long option is the switch, or a setting that is announced or has its text with it. -/
theorem takes_named {text : List Char} (hverb : draft.verb = some .eval)
    (hclosed : draft.closed = false) (hargument : argument.toList = '-' :: '-' :: text)
    (h : draft.addNamed text = .ok next) : Takes draft [argument] next := by
  have hparts := List.takeWhile_append_dropWhile (p := (· ≠ '=')) (l := text)
  have hsign := List.head?_dropWhile_not (· ≠ '=') text
  unfold addNamed at h
  rw [List.span_eq_takeWhile_dropWhile, hverb] at h
  generalize text.takeWhile (· ≠ '=') = front at hparts h
  dsimp only at h
  rcases hflag : Flag.ofName? (some .eval) (String.ofList front) with _ | flag <;>
    rw [hflag] at h
  · cases h
  have htext : front ++ text.dropWhile (· ≠ '=') = text := hparts
  rcases flag_of_name hflag with ⟨rfl, hname⟩ | ⟨setting, rfl, hname⟩ <;>
    replace hname := congrArg String.toList hname <;>
    rw [String.toList_ofList] at hname <;> subst hname <;>
    rcases hrest : text.dropWhile (· ≠ '=') with _ | ⟨sign, value⟩ <;>
    rw [hrest] at htext hsign h
  -- The switch, which has no text.
  · obtain ⟨htaken, hopen, hpending, -⟩ := takes_switch h
    have hswitch : argument = "-v" ∨ argument = "--verbose" :=
      .inr (String.toList_inj.mp (by rw [hargument, ← htext]; rfl))
    rw [hclosed] at hopen
    refine htaken.trans ⟨rfl, fun rest settled hmakes => ?_⟩
    rw [given_open hopen hpending] at hmakes ⊢
    rwa [List.singleton_append, given_by_switch hswitch]
  · cases h
  · rw [List.append_nil] at htext
    exact takes_announced hclosed (given_by_name (by rw [hargument, htext])) h
  · obtain rfl : sign = '=' := by simpa using hsign
    refine takes_attached hclosed (given_by_attached_name ?_) h
    rw [hargument, ← htext]
    rfl

/-- After the letter of a property come its text or nothing. -/
theorem takes_letter {letters more : List Char} (hverb : draft.verb = some .eval)
    (hclosed : draft.closed = false) (hletter : IsLetter letters)
    (hargument : argument.toList = letters ++ more)
    (h : draft.addLetters ('p' :: more) = .ok next) : Takes draft [argument] next := by
  rw [addLetters, hverb] at h
  split at h
  · cases h
  · next hflag => cases hflag
  · next setting hflag =>
      obtain rfl : Setting.property = setting := by cases hflag; rfl
      split at h
      · exact takes_announced hclosed (given_by_letter (by rwa [hargument, List.append_nil])) h
      · next text =>
          exact takes_attached hclosed (given_by_attached_letter hletter (by simp) hargument) h
      · next hne hequals =>
          refine takes_attached hclosed (fun rest => ?_) h
          rw [given_by_attached_letter hletter hne hargument, if_neg]
          intro hhead
          obtain ⟨text, rfl⟩ := List.head?_eq_some_iff.mp hhead
          exact hequals text rfl

/-- The switch is turned on once. -/
theorem switch_once (hpending : draft.pending = none) (hverbose : draft.verbose = true) :
    draft.turnOn .verbose = .error .repeated := by
  unfold turnOn settle
  rw [hpending]
  exact if_pos hverbose

/-- Letters are those of the switch, which is turned on once, and of a property. -/
theorem takes_letters {letter : Char} {letters : List Char} (hverb : draft.verb = some .eval)
    (hclosed : draft.closed = false) (hargument : argument.toList = '-' :: letter :: letters)
    (h : draft.addLetters (letter :: letters) = .ok next) : Takes draft [argument] next := by
  have hflags (draft : Draft) (hverb : draft.verb = some .eval) {letter : Char}
      {letters : List Char} (h : draft.addLetters (letter :: letters) = .ok next) :
      letter = 'v' ∧ (∃ mid, draft.turnOn .verbose = .ok mid ∧ mid.addLetters letters = .ok next) ∨
        letter = 'p' := by
    rw [addLetters, hverb] at h
    split at h
    · cases h
    · next hflag =>
        rcases flag_of_letter hflag with ⟨heq, rfl⟩ | ⟨heq, -⟩ <;> cases heq
        exact .inl ⟨rfl, (bind_ok_iff _ _ _).mp h⟩
    · next hflag =>
        rcases flag_of_letter hflag with ⟨heq, -⟩ | ⟨-, rfl⟩
        · cases heq
        · exact .inr rfl
  rcases hflags draft hverb h with ⟨rfl, mid, hswitch, hmid⟩ | rfl
  · obtain ⟨htaken, hopen, hpending, hverbose⟩ := takes_switch hswitch
    rw [hclosed] at hopen
    have hmidverb := htaken.verb.trans hverb
    cases letters with
    | nil =>
        cases hmid
        have hword : argument = "-v" ∨ argument = "--verbose" :=
          .inl (String.toList_inj.mp hargument)
        refine htaken.trans ⟨rfl, fun rest settled hmakes => ?_⟩
        rw [given_open hopen hpending] at hmakes ⊢
        rwa [List.singleton_append, given_by_switch hword]
    | cons second letters =>
        rcases hflags mid hmidverb hmid with ⟨-, again, hagain, -⟩ | rfl
        · rw [switch_once hpending hverbose] at hagain
          cases hagain
        · exact htaken.trans (takes_letter hmidverb hopen (.inr rfl) hargument hmid)
  · exact takes_letter hverb hclosed (.inl rfl) hargument h

/-- A draft that no further arguments complete: it waits for the text of a setting, which no
argument after two hyphens can be. -/
def Stuck (draft : Draft) : Prop :=
  draft.closed = true ∧ ∃ setting, draft.pending = some (setting, none)

/-- A stuck draft neither takes an argument nor settles. -/
theorem Stuck.hopeless (h : draft.Stuck) :
    (∀ argument next, draft.add argument ≠ .ok next) ∧ ∀ settled, draft.settle ≠ .ok settled := by
  obtain ⟨hclosed, setting, hpending⟩ := h
  have hsettle (settled : Draft) : draft.settle ≠ .ok settled := by
    unfold settle
    rw [hpending]
    nofun
  refine ⟨fun argument next hadd => ?_, hsettle⟩
  unfold add addSelector at hadd
  rw [if_pos hclosed] at hadd
  split at hadd
  · cases hadd
  · cases hadd
  · obtain ⟨settled, h, -⟩ := (bind_ok_iff _ _ _).mp hadd
    exact hsettle settled h

/-- What one argument gives to a draft is what the argument tells. -/
theorem takes_argument (hverb : draft.verb = some .eval) (h : draft.add argument = .ok next)
    (hhopeful : ¬ next.Stuck) : Takes draft [argument] next := by
  unfold add at h
  split at h
  · next hclosed =>
      exact takes_selector hverb (fun hopen => by rw [hclosed] at hopen; cases hopen) h
  next hclosed =>
  rw [Bool.not_eq_true] at hclosed
  split at h
  -- Two hyphens.
  · next hargument =>
      cases h
      obtain rfl : argument = "--" := String.toList_inj.mp hargument
      refine ⟨rfl, fun rest settled hmakes => ?_⟩
      suffices draft.given (["--"] ++ rest) =
          Draft.given { draft with closed := true } rest by
        rw [this]
        exact hmakes
      rcases hpending : draft.pending with _ | ⟨setting, _ | text⟩
      · simp [given, hpending, hclosed, given_by_hyphens]
      · exact absurd ⟨rfl, setting, hpending⟩ hhopeful
      · simp [given, hpending, hclosed, given_by_hyphens]
  · next hargument => exact takes_named hverb hclosed hargument h
  · next hargument => exact takes_letters hverb hclosed hargument h
  · next hlong hletter =>
      split at h
      · next hpending =>
          cases h
          exact takes_value hpending
      · refine takes_selector hverb (fun _ => given_by_plain fun c rest hargument => ?_) h
        exact hletter c rest hargument

/-- A draft amounts to an evaluation under that verb only, and when it settles with a selector. -/
theorem task_eval {verb : Verb} {text : String} {options : MessageOptions}
    (h : draft.task verb = .ok (.eval text options)) :
    verb = .eval ∧ ∃ settled, draft.settle = .ok settled ∧ settled.selector = some text ∧
      settled.options = options := by
  obtain ⟨settled, hsettle, h⟩ := (bind_ok_iff _ _ _).mp h
  rcases hselector : settled.selector with _ | selector <;> cases verb <;> rw [hselector] at h <;>
    cases h
  exact ⟨rfl, settled, hsettle, hselector, rfl⟩

/-- Drafts that take arguments and settle make what the arguments tell. -/
theorem makes_of_run {arguments : List String} (hverb : draft.verb = some .eval)
    (hrun : arguments.foldlM Draft.add draft = .ok final) (hsettle : final.settle = .ok settled) :
    Makes draft (draft.given arguments) settled := by
  induction arguments generalizing draft with
  | nil =>
      cases hrun
      refine (takes_settle hsettle).makes [] settled ?_
      have hpending := (settle_keeps hsettle).1
      have hnothing : settled.given [] = [] := by
        simp [given, hpending, givenBy]
      rw [hnothing]
      exact ⟨rfl, List.append_nil _⟩
  | cons argument rest ih =>
      rw [List.foldlM_cons] at hrun
      obtain ⟨next, hadd, hrun⟩ := (bind_ok_iff _ _ _).mp hrun
      have hhopeful : ¬ next.Stuck := by
        intro hstuck
        cases rest with
        | nil =>
            cases hrun
            exact hstuck.hopeless.2 settled hsettle
        | cons another rest =>
            rw [List.foldlM_cons] at hrun
            obtain ⟨later, hlater, -⟩ := (bind_ok_iff _ _ _).mp hrun
            exact hstuck.hopeless.1 another later hlater
      have htaken := takes_argument hverb hadd hhopeful
      exact htaken.makes rest settled (ih (htaken.verb.trans hverb) hrun)

end Draft

/-- The arguments of an evaluation after its verb tell its one selector and its options, each
setting in its turn. -/
theorem given_of_arguments {arguments : List String} {invocation : Invocation} {text : String}
    {options : MessageOptions} (h : Invocation.ofArguments arguments = .ok invocation)
    (htask : invocation.task = .eval text options) :
    ∃ front rest, arguments = front ++ "eval" :: rest ∧
      (∀ argument ∈ front, argument ∉ ["check", "keys", "eval"]) ∧
      selectorsIn (givenBy rest) = [text] ∧
      MessageOptions.addAll {} (settingsIn (givenBy rest)) = .ok options := by
  unfold Invocation.ofArguments at h
  have hparts := List.takeWhile_append_dropWhile
    (p := fun argument => (Verb.ofName? argument).isNone) (l := arguments)
  have hfront := List.all_takeWhile
    (p := fun argument => (Verb.ofName? argument).isNone) (l := arguments)
  obtain ⟨front, -, h⟩ := (bind_ok_iff _ _ _).mp h
  split at h
  · cases h
  next name rest hrest =>
  rw [hrest] at hparts
  split at h
  · cases h
  · cases h
  next verb hverb _ =>
  obtain ⟨final, hrun, h⟩ := (bind_ok_iff _ _ _).mp h
  obtain ⟨task, hdone, h⟩ := (bind_ok_iff _ _ _).mp h
  cases h
  subst htask
  obtain ⟨rfl, settled, hsettle, hselector, rfl⟩ := Draft.task_eval hdone
  obtain rfl : name = "eval" := by
    unfold Verb.ofName? at hverb
    split at hverb <;> cases hverb
    rfl
  obtain ⟨hoptions, htexts⟩ := Draft.makes_of_run rfl hrun hsettle
  rw [hselector, Draft.given_open rfl rfl] at htexts
  rw [Draft.given_open rfl rfl] at hoptions
  refine ⟨_, rest, hparts.symm, fun argument hmem hverb => ?_, htexts, hoptions⟩
  have hnone := List.all_eq_true.mp hfront argument hmem
  simp only [List.mem_cons, List.not_mem_nil, or_false] at hverb
  rcases hverb with rfl | rfl | rfl <;> cases hnone

end MessageSelector.Command
