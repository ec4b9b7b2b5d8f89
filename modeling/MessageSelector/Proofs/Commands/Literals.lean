import MessageSelector.Proofs.Commands.Evaluation
import MessageSelector.Proofs.Composition
import MessageSelector.Proofs.Doubles.Reading
import MessageSelector.Proofs.Excerpts
import MessageSelector.Proofs.LiteralTexts
import MessageSelector.Proofs.NumericOrder

/-!
# Properties given as literals

A property that is given as a literal is compared with the same literal in a selector. They are
equal if the literal is plain. With the mark of a base or a suffix the property is a string and the
literal of the selector a number, and the outcome is unknown.
-/

namespace MessageSelector

open MessageSelector.Expr (Binding)
open Lexeme (Ends Written)

/-! ## The selector -/

section Selector

variable {sign : Option Sign} {literal : Lexeme} {source : List Char} {value : Value}
  {name : String}

/-- The lexemes of a literal behind a sign or none. -/
def signedLexemes (sign : Option Sign) (literal : Lexeme) : List Lexeme :=
  sign.toList.map Sign.lexeme ++ [literal]

/-- A literal behind a sign or none is cut into its lexemes. -/
theorem cut_signed (hwritten : Written literal source) (sign : Option Sign) :
    Cut (signedText sign source) (signedLexemes sign literal) [] := by
  have hliteral : Cut source [literal] [] := cut_written hwritten rfl
  cases sign with
  | none => exact hliteral
  | some sign =>
      cases sign with
      | plus => exact (cut_paren .plus rfl _).append_last hliteral
      | minus => exact (cut_paren .minus rfl _).append_last hliteral

/-- Where a literal behind a sign or none is accepted as a literal, that is its value, and its
lexemes denote the value wherever they stand. -/
theorem denotes_signed (hwritten : Written literal source) (hliteral : literal.isLiteral = true)
    (hparse : Expr.parse (String.ofList (signedText sign source)) =
      .ok (some (.literal value))) :
    literal.value? sign = some value ∧
      Denotes (signedLexemes sign literal) .sign (.literal value) := by
  obtain ⟨-, phrase, tokens, stop, hscan, hspells, hmeaning⟩ := (Expr.parse_ok_iff _ _).mp hparse
  rw [String.toList_ofList] at hscan hmeaning
  obtain ⟨others, end', hothers, hlexemes⟩ := (cut_signed hwritten sign).scanned
  obtain rfl : tokens = others := by
    rw [hscan] at hothers
    exact (List.append_inj' hothers rfl).1
  have hdenotes := hspells.denotes hmeaning
  rw [hlexemes] at hdenotes
  have hvalue : literal.value? sign = some value ∧ Binding.sign.rank ≤ phrase.binding.rank := by
    cases sign with
    | none =>
        obtain ⟨span, rfl⟩ := eq_token_singleton hlexemes
        obtain ⟨hvalue, hbinding⟩ := value_of_unsigned hliteral hspells hmeaning
        exact ⟨hvalue, hbinding ▸ Binding.rank_le_primary .sign⟩
    | some sign =>
        obtain ⟨mark, rest, rfl, hrest⟩ := eq_token_cons hlexemes
        obtain ⟨span, rfl⟩ := eq_token_singleton hrest
        obtain ⟨hvalue, hbinding⟩ := value_of_signed hliteral hspells hmeaning
        exact ⟨hvalue, hbinding ▸ Nat.le_refl _⟩
  refine ⟨hvalue.1, fun other tokens htokens => ?_⟩
  obtain ⟨phrase', hspells', hmeaning', hrank⟩ := hdenotes other tokens htokens
  exact ⟨phrase', hspells', hmeaning', Nat.le_trans hvalue.2 hrank⟩

/-- A name compared with what lexemes denote. -/
theorem Denotes.compared {ls : List Lexeme} {e : Expr} (h : Denotes ls .sign e) (name : String)
    (op : Comparison) :
    Denotes (.identifier name :: .comparison op :: ls) .condition
      (.comparison op (.identifier name) e) := by
  intro text tokens htokens
  obtain ⟨span, rest, rfl, hrest⟩ := eq_token_cons htokens
  obtain ⟨mark, rights, rfl, hrights⟩ := eq_token_cons hrest
  obtain ⟨phrase, hspells, hmeaning, hrank⟩ := h text rights hrights
  refine ⟨.comparison op (.identifier span name) phrase,
    .comparison op mark (.identifier span name) hspells (Nat.le_of_ble_eq_true rfl)
      (Nat.le_trans (Nat.le_of_ble_eq_true rfl) hrank), ?_, Nat.le_refl _⟩
  rw [Phrase.meaning, Phrase.meaning, hmeaning]
  rfl

/-- A name that is compared with a literal nests within the limit. -/
theorem within_compared (name : String) (sign : Option Sign)
    (hliteral : literal.isLiteral = true) :
    Nesting.Depth.start.Within
      (.identifier name :: .comparison .equal :: signedLexemes sign literal ++ [.endOfText]) := by
  have hsteps (n : Nat) (h : Nat.ble n Nesting.limit = true) : n ≤ Nesting.limit :=
    Nat.le_of_ble_eq_true h
  cases sign with
  | none =>
      cases literal with
      | boolean | string | float | integer =>
          exact ⟨hsteps _ rfl, hsteps _ rfl, hsteps _ rfl, hsteps _ rfl, trivial⟩
      | _ => cases hliteral
  | some sign =>
      cases sign <;> cases literal with
      | boolean | string | float | integer =>
          exact ⟨hsteps _ rfl, hsteps _ rfl, hsteps _ rfl, hsteps _ rfl, hsteps _ rfl, trivial⟩
      | _ => cases hliteral

/-- A name is compared with a literal behind a sign or none. -/
theorem parse_compared (hname : IsIdentifier name) (hwritten : Written literal source)
    (hliteral : literal.isLiteral = true)
    (hdenotes : Denotes (signedLexemes sign literal) .sign (.literal value)) :
    Expr.parse (name ++ " = " ++ String.ofList (signedText sign source)) =
      .ok (some (.comparison .equal (.identifier name) (.literal value))) := by
  have hidentifier : Written (.identifier name) name.toList := by
    obtain ⟨⟨first, rest, hword, hfirst, hrest⟩, hreserved⟩ := hname
    rw [← (Lexeme.of_word_eq_identifier name name).mpr ⟨rfl, hreserved⟩]
    exact Lexeme.written_word hword hfirst hrest
  have hcut : Cut (name ++ " = " ++ String.ofList (signedText sign source)).toList
      (.identifier name :: .comparison .equal :: signedLexemes sign literal) [] := by
    have hright := Cut.layout (c := ' ') rfl (cut_signed hwritten sign)
    have hequals : Ends (.comparison .equal) (' ' :: signedText sign source ++ []) := rfl
    have hcomparison := Cut.layout (c := ' ') rfl (.lexeme (.comparison .equal) hequals hright)
    have hbreaks : Breaks (' ' :: "=".toList ++ (' ' :: signedText sign source) ++ []) := .inl rfl
    have hcut := Cut.lexeme hidentifier (hbreaks.ends _) hcomparison
    simpa using hcut
  have hcompared := hdenotes.compared name .equal
  refine (Expr.parse_ok_iff _ _).mpr ⟨?_, hcompared.said hcut⟩
  rw [hcompared.too_deep_eq_none_iff hcut]
  exact within_compared name sign hliteral

end Selector

/-! ## The property -/

/-- The characters of a name are those that words go on with. -/
theorem IsIdentifier.word_chars {name : String} (h : IsIdentifier name) :
    name.toList ≠ [] ∧ ∀ c ∈ name.toList, isWordChar c = true := by
  obtain ⟨⟨first, rest, hword, hfirst, hrest⟩, -⟩ := h
  rw [hword, List.forall_mem_cons]
  refine ⟨List.cons_ne_nil _ _, ?_, List.all_eq_true.mp hrest⟩
  rw [isWordChar, hfirst]
  rfl

/-- What begins with a name does not begin with a hyphen. -/
theorem IsIdentifier.ne_hyphen {name : String} (h : IsIdentifier name) (middle back : String)
    (rest : List Char) : (name ++ middle ++ back).toList ≠ '-' :: rest := by
  obtain ⟨hne, hchars⟩ := h.word_chars
  obtain ⟨c, more, hname⟩ := List.exists_cons_of_ne_nil hne
  have hword : isWordChar c = true := hchars c (hname ▸ List.mem_cons_self)
  rw [String.toList_append, String.toList_append, hname]
  rintro ⟨⟩
  cases hword

/-- What is assigned to a name is the value of the text behind the equals sign. -/
theorem read_assignment {name : String} (h : IsIdentifier name) (text : String) :
    Assignment.read (name ++ "=" ++ text) = .ok ⟨name, .ofText text⟩ := by
  obtain ⟨hne, hchars⟩ := h.word_chars
  have hbare (c : Char) (hc : c ∈ name.toList) : ¬ Text.IsWhiteSpace c := by
    rw [← Text.is_blank_iff, Bool.not_eq_true]
    exact not_blank_of_word_mark (Nesting.is_word_mark_of_word_char (hchars c hc))
  have hequals : '=' ∉ name.toList := by
    intro hmem
    cases hchars _ hmem
  have hsurrounds : Text.Surrounds [] name.toList [] :=
    ⟨nofun, nofun, fun c hc => hbare c (List.mem_of_mem_head? hc),
      fun c hc => hbare c (List.mem_of_mem_getLast? hc)⟩
  have hspelled := Assignment.Spelled.mk hsurrounds hne hequals
    (Value.of_text_iff.mp (Eq.refl (Value.ofText text)))
  rw [Assignment.read_iff, String.toList_append, String.toList_append]
  simpa using hspelled

namespace Command

/-- An argument that does not begin with a hyphen is what is pending, or else a selector. -/
theorem Draft.add_plain {draft : Draft} {argument : String} (hclosed : draft.closed = false)
    (hplain : ∀ rest, argument.toList ≠ '-' :: rest) :
    draft.add argument =
      match draft.pending with
      | some (setting, none) => .ok { draft with pending := some (setting, some argument) }
      | _ => draft.addSelector argument := by
  unfold add
  rw [hclosed]
  split
  · contradiction
  · split
    · next heq => exact absurd heq (hplain _)
    · next heq => exact absurd heq (hplain _)
    · next heq => exact absurd heq (hplain _)
    · rfl

/-- An evaluation of a selector with a property. -/
theorem of_arguments_property {selector property : String} {assignment : Assignment}
    (hselector : ∀ rest, selector.toList ≠ '-' :: rest)
    (hproperty : ∀ rest, property.toList ≠ '-' :: rest)
    (hread : Assignment.read property = .ok assignment) :
    Invocation.ofArguments ["eval", selector, "-p", property] =
      .ok ⟨.eval selector { properties := [assignment] }, false⟩ := by
  have hfirst : Draft.add { verb := some .eval } selector =
      .ok { verb := some .eval, selector := some selector } :=
    Draft.add_plain rfl hselector
  have hsecond : Draft.add { verb := some .eval, selector := some selector } "-p" =
      .ok { verb := some .eval, selector := some selector, pending := some (.property, none) } :=
    rfl
  have hthird : Draft.add
      { verb := some .eval, selector := some selector, pending := some (.property, none) }
        property =
      .ok { verb := some .eval, selector := some selector,
            pending := some (.property, some property) } :=
    Draft.add_plain rfl hproperty
  have hadd : MessageOptions.add {} property .property =
      .ok { properties := [assignment] } := by
    rw [MessageOptions.add, hread]
    rfl
  have hrest : [selector, "-p", property].foldlM Draft.add { verb := some .eval } =
      .ok { verb := some .eval, selector := some selector,
            pending := some (.property, some property) } :=
    (bind_ok_iff _ _ _).mpr ⟨_, hfirst, (bind_ok_iff _ _ _).mpr ⟨_, hsecond,
      (bind_ok_iff _ _ _).mpr ⟨_, hthird, rfl⟩⟩⟩
  have htask : Draft.task
      { verb := some .eval, selector := some selector,
        pending := some (.property, some property) } .eval =
      .ok (.eval selector { properties := [assignment] }) := by
    unfold Draft.task Draft.settle
    dsimp only
    rw [hadd]
    rfl
  refine (bind_ok_iff _ _ _).mpr ⟨{}, rfl, ?_⟩
  refine (bind_ok_iff _ _ _).mpr ⟨_, hrest, ?_⟩
  exact (bind_ok_iff _ _ _).mpr ⟨_, htask, rfl⟩

/-- The properties of options are what their message offers, apart from the headers. -/
theorem source_of_property {name : String} (h : Header.ofName? name = none) (value : Value) :
    (MessageOptions.message { properties := [⟨name, value⟩] } []).source name = some value := by
  rw [property_of_message _ _ h]
  simp [lastValue]

end Command

/-! ## The comparison -/

section Comparison

variable {sign : Option Sign} {literal : Lexeme} {value : Value}

/-- The value of a literal that is not plain is a number, which no string is compared with. -/
theorem compare_marked (hvalue : literal.value? sign = some value)
    (hplain : literal.isPlain = false) (text : String) :
    (Value.string text).compare .equal value = .unknown := by
  cases literal with
  | integer literal =>
      obtain ⟨n, -, rfl⟩ := Option.map_eq_some_iff.mp hvalue
      rfl
  | float literal =>
      obtain ⟨x, -, rfl⟩ := Option.map_eq_some_iff.mp hvalue
      rfl
  | _ => cases hplain

/-- The value of a literal is equal to itself. -/
theorem compare_literal_self (hvalue : literal.value? sign = some value) :
    value.compare .equal value = .holds := by
  cases literal with
  | integer literal =>
      obtain ⟨n, -, rfl⟩ := Option.map_eq_some_iff.mp hvalue
      exact Value.compare_equal_self (Value.is_number_integer n)
  | float literal =>
      obtain ⟨x, hx, rfl⟩ := Option.map_eq_some_iff.mp hvalue
      have hfinite : (if sign = some .minus then -x else x).isFinite = true := by
        have hx := Phrase.float_value_finite hx
        split
        · rwa [Double.is_finite_neg]
        · exact hx
      exact Value.compare_equal_self (Double.ordinary_of_finite hfinite).1
  | string contents =>
      obtain ⟨-, hvalue⟩ := Option.ite_none_right_eq_some.mp hvalue
      cases hvalue
      simp [Value.compare, Value.compareSame, Truth.ofBool]
  | boolean flag =>
      obtain ⟨-, hvalue⟩ := Option.ite_none_right_eq_some.mp hvalue
      cases hvalue
      cases flag <;> rfl
  | _ => cases hvalue

end Comparison

namespace Command

/-- An evaluation prints how the one property that it is given compares with a value. -/
theorem perform_property {m : Type → Type} [Monad m] [LawfulMonad m]
    (read : String → m (Except String String)) {selector name : String} {other : Value}
    (hcompile : Selector.compile selector =
      .ok ⟨some (.comparison .equal (.identifier name) (.literal other))⟩)
    (hheader : Header.ofName? name = none) (value : Value) :
    ∃ records, Invocation.perform read
        ⟨.eval selector { properties := [⟨name, value⟩] }, false⟩ =
      pure (.printed (value.compare .equal other).isHolds
        (printLines [(value.compare .equal other).text]), records) := by
  have htruth : Selector.truth ⟨some (.comparison .equal (.identifier name) (.literal other))⟩
      (MessageOptions.message { properties := [⟨name, value⟩] } []).source =
      value.compare .equal other := by
    show Expr.truth _ _ = _
    rw [Expr.truth_comparison, Expr.evaluate, Expr.evaluate, source_of_property hheader]
    rfl
  obtain ⟨records, hperform⟩ : ∃ records, Invocation.perform read
        ⟨.eval selector { properties := [⟨name, value⟩] }, false⟩ =
      pure (evaluationReport _ { properties := [⟨name, value⟩] } (.ok []), records) :=
    perform_without_file read hcompile rfl
  refine ⟨records, ?_⟩
  rw [hperform, evaluationReport, htruth]

/-- A property that is given as a literal has the value that a selector reads it as if the literal
is plain, and is equal to the literal there. A literal with the mark of a base or with a suffix
makes the property a string, and the comparison with the literal is unknown. -/
theorem property_of_literal {m : Type → Type} [Monad m] [LawfulMonad m]
    (read : String → m (Except String String)) {sign : Option Sign} {literal : Lexeme}
    {source : List Char} {text : String} {value : Value}
    (htext : text.toList = signedText sign source) (hwritten : literal.Written source)
    (hliteral : literal.isLiteral = true)
    (hparse : Expr.parse text = .ok (some (.literal value))) :
    Value.ofText text = (if literal.isPlain then value else .string text) ∧
    ∀ name, IsIdentifier name → Header.ofName? name = none →
      ∃ invocation records,
        Invocation.ofArguments ["eval", name ++ " = " ++ text, "-p", name ++ "=" ++ text] =
          .ok invocation ∧
        invocation.perform read =
          pure (.printed literal.isPlain (if literal.isPlain then "true\n" else "unknown\n"),
            records) := by
  obtain rfl : text = String.ofList (signedText sign source) := by
    rw [← htext, String.ofList_toList]
  obtain ⟨hvalue, hdenotes⟩ := denotes_signed hwritten hliteral hparse
  have hread := of_text_literal hwritten hliteral hvalue
  refine ⟨hread, fun name hname hheader => ?_⟩
  generalize hsigned : String.ofList (signedText sign source) = text at *
  have hinvocation := of_arguments_property (hname.ne_hyphen " = " text)
    (hname.ne_hyphen "=" text) (read_assignment hname text)
  have hcompile : Selector.compile (name ++ " = " ++ text) =
      .ok ⟨some (.comparison .equal (.identifier name) (.literal value))⟩ :=
    (Selector.compile_ok_iff _ _).mpr
      (hsigned ▸ parse_compared hname hwritten hliteral hdenotes)
  have houtcome : (Value.ofText text).compare .equal value =
      if literal.isPlain then .holds else .unknown := by
    rw [hread]
    cases hplain : literal.isPlain with
    | true => exact compare_literal_self hvalue
    | false => exact compare_marked hvalue hplain text
  obtain ⟨records, hperform⟩ := perform_property read hcompile hheader (.ofText text)
  refine ⟨_, records, hinvocation, ?_⟩
  rw [hperform, houtcome]
  cases literal.isPlain <;> rfl

/-- The least integer is read in a property as it is in a selector. -/
theorem property_of_literal_least :
    Expr.parse "-9223372036854775808" = .ok (some (.literal (.integer Int64.minValue))) ∧
      Value.ofText "-9223372036854775808" = .integer Int64.minValue ∧
      ∃ invocation records,
        Invocation.ofArguments
          ["eval", "n = -9223372036854775808", "-p", "n=-9223372036854775808"] = .ok invocation ∧
        invocation.perform (m := Id) (fun _ => .error "no file") =
          (.printed true "true\n", records) := by
  have hparse : Expr.parse "-9223372036854775808" =
      .ok (some (.literal (.integer Int64.minValue))) := by
    cbv
  have hinteger : Token.IsInteger "9223372036854775808".toList :=
    ⟨_, [], (List.append_nil _).symm, .decimal (by decide) (by decide), .inl rfl⟩
  have hname : IsIdentifier "n" := by
    have hlower : "n".toLower = "n" := by cbv
    refine ⟨⟨'n', [], by decide, by decide, rfl⟩, ?_⟩
    rw [hlower]
    decide
  have htext : "-9223372036854775808".toList =
      signedText (some .minus) "9223372036854775808".toList := by
    decide
  obtain ⟨hread, hprinted⟩ := property_of_literal (m := Id) (fun _ => .error "no file") htext
    (.integer hinteger) rfl hparse
  exact ⟨hparse, hread, hprinted "n" hname (by decide)⟩

/-- A hexadecimal literal is a number in a selector and a string in a property, so that the two are
not compared. -/
theorem hexadecimal_property_unknown :
    Token.IsInteger "0x10".toList ∧
      Expr.parse "0x10" = .ok (some (.literal (.integer 16))) ∧
      Value.ofText "0x10" = .string "0x10" ∧
      ∃ invocation records,
        Invocation.ofArguments ["eval", "n = 0x10", "-p", "n=0x10"] = .ok invocation ∧
        invocation.perform (m := Id) (fun _ => .error "no file") =
          (.printed false "unknown\n", records) := by
  have hinteger : Token.IsInteger "0x10".toList :=
    ⟨['0', 'x', '1', '0'], [], rfl, .hexadecimal (.inl rfl) rfl rfl, .inl rfl⟩
  have hcompile : Selector.compile "n = 0x10" =
      .ok ⟨some (.comparison .equal (.identifier "n") (.literal (.integer 16)))⟩ := by
    cbv
  have hinvocation : Invocation.ofArguments ["eval", "n = 0x10", "-p", "n=0x10"] =
      .ok ⟨.eval "n = 0x10" { properties := [⟨"n", .string "0x10"⟩] }, false⟩ := by
    cbv
  obtain ⟨records, hperform⟩ :=
    perform_property (m := Id) (fun _ => .error "no file") hcompile (by decide) (.string "0x10")
  exact ⟨hinteger, by cbv, by cbv, _, records, hinvocation, hperform⟩

end Command

end MessageSelector
