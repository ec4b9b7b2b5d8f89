import MessageSelector.Proofs.Lexical.Numbers
import MessageSelector.Proofs.Scanning
import MessageSelector.Text.Quoted

/-!
# The grammar of lexemes as a relation

`Written lexeme text` says that the lexeme is written as the text, and `Ends lexeme rest` that
nothing at the front of the rest would go on with it. `Written.at_front` and `written_of_at_front`
tie the two to scanning: a lexeme is found at the front of a text just if it is written there and
ends there.
-/

namespace MessageSelector.Lexeme

open Token (IsFloat IsInteger)

/-- How lexemes are written. -/
inductive Written : Lexeme → List Char → Prop where
  | word {first rest} :
      isWordStart first = true → rest.all isWordChar = true →
      Written (ofWord (String.ofList (first :: rest))) (first :: rest)
  | string (contents) : Written (.string contents) (Text.quote contents).toList
  | float {literal} : IsFloat literal → Written (.float (String.ofList literal)) literal
  | integer {literal} : IsInteger literal → Written (.integer (String.ofList literal)) literal
  | comparison (op) : Written (.comparison op) op.symbol.toList
  | plus : Written .plus ['+']
  | minus : Written .minus ['-']
  | star : Written .star ['*']
  | slash : Written .slash ['/']
  | leftParen : Written .leftParen ['(']
  | rightParen : Written .rightParen [')']
  | comma : Written .comma [',']

/-- A word is written as the lexeme it is. -/
theorem written_word {word : String} {first : Char} {following : List Char}
    (hword : word.toList = first :: following) (hfirst : isWordStart first = true)
    (hfollowing : following.all isWordChar = true) : Written (ofWord word) word.toList := by
  have hwritten := Written.word hfirst hfollowing
  rwa [← hword, String.ofList_toList] at hwritten

/-- Whether a character right behind a lexeme would go on with it. -/
def goesOn : Lexeme → Char → Bool
  | keyword _, c | boolean _, c | identifier _, c | float _, c => isWordChar c
  | integer literal, c => isWordChar c || c = '.' && literal.toList.all Char.isDigit
  | string _, c => c = '\''
  | comparison .less, c => c = '=' || c = '>'
  | comparison .greater, c => c = '='
  | _, _ => false

/-- Nothing at the front of a text would go on with a lexeme. -/
def Ends (lexeme : Lexeme) (rest : List Char) : Prop :=
  rest.head?.any lexeme.goesOn = false

/-- Whatever a word is, a further character of a word would go on with it. -/
theorem goes_on_of_word (word : String) : (ofWord word).goesOn = isWordChar := by
  unfold ofWord
  funext c
  split <;> rfl

/-! ## Strings -/

/-- The contents of a string are read up to its closing quote. -/
theorem string_contents_quote (text contents : List Char) (taken : Nat) {rest : List Char}
    (hrest : rest.head? ≠ some '\'') :
    stringContents? contents taken (Text.doubleQuotes text ++ '\'' :: rest) =
      some (String.ofList (contents.reverse ++ text),
        taken + (Text.doubleQuotes text).length + 1) := by
  induction text generalizing contents taken with
  | nil =>
      -- The closing quote is not half of a doubled one.
      cases rest with
      | nil => simp [Text.doubleQuotes, stringContents?]
      | cons c rest =>
          have hc : c ≠ '\'' := by simpa using hrest
          simp [Text.doubleQuotes, stringContents?, hc]
  | cons c text ih =>
      unfold Text.doubleQuotes at ih ⊢
      by_cases hquote : c = '\''
      · simp [hquote, stringContents?, ih]
        omega
      · simp [hquote, stringContents?, ih]
        omega

/-- Where every quote is half of a doubled one, none closes a string. -/
theorem string_contents_open (text contents : List Char) (taken : Nat) :
    stringContents? contents taken (Text.doubleQuotes text) = none := by
  induction text generalizing contents taken with
  | nil => rfl
  | cons c text ih =>
      unfold Text.doubleQuotes at ih ⊢
      by_cases hquote : c = '\'' <;> simp [hquote, stringContents?, ih]

/-- What is read as the contents of a string stands in front of its closing quote. -/
theorem string_contents_sound {contents rest : List Char} {taken count : Nat} {whole : String}
    (h : stringContents? contents taken rest = some (whole, count)) :
    ∃ text following, rest = Text.doubleQuotes text ++ '\'' :: following ∧
      whole = String.ofList (contents.reverse ++ text) ∧
      count = taken + (Text.doubleQuotes text).length + 1 ∧ following.head? ≠ some '\'' := by
  fun_induction stringContents? contents taken rest with
  | case1 => cases h
  | case2 contents taken rest ih =>
      obtain ⟨text, following, rfl, rfl, rfl, hend⟩ := ih h
      refine ⟨'\'' :: text, following, rfl, ?_, ?_, hend⟩
      · simp
      · simp [Text.doubleQuotes]
        omega
  | case3 contents taken following hsingle =>
      cases h
      refine ⟨[], following, rfl, by simp, rfl, fun hquote => ?_⟩
      obtain ⟨_, rfl⟩ := List.head?_eq_some_iff.mp hquote
      exact hsingle _ rfl
  | case4 contents taken c rest hpair hquote ih =>
      obtain ⟨text, following, rfl, rfl, rfl, hend⟩ := ih h
      have hc : c ≠ '\'' := fun heq => hquote heq
      refine ⟨c :: text, following, ?_, ?_, ?_, hend⟩
      · simp [Text.doubleQuotes, hc]
      · simp
      · simp [Text.doubleQuotes, hc]
        omega

/-! ## Scanning -/

variable {lexeme : Lexeme} {c : Char} {source rest back : List Char}

/-- A literal of either kind begins with a digit or a point. -/
theorem number_head (h : IsFloat (c :: source) ∨ IsInteger (c :: source)) :
    c.isDigit = true ∨ c = '.' := by
  rcases h with ⟨part, suffix, hsplit, hpart, -⟩ | ⟨part, suffix, hsplit, hpart, -⟩
  · cases hpart with
    | @pointed whole _ _ hwhole =>
        cases whole with
        | nil =>
            cases hsplit
            exact .inr rfl
        | cons =>
            cases hsplit
            exact .inl (List.all_eq_true.mp hwhole _ List.mem_cons_self)
    | @scientific whole _ hwhole hne =>
        obtain ⟨d, ds, rfl⟩ := List.exists_cons_of_ne_nil hne
        cases hsplit
        exact .inl (List.all_eq_true.mp hwhole _ List.mem_cons_self)
  · cases hpart with
    | decimal hne hds =>
        obtain ⟨d, ds, rfl⟩ := List.exists_cons_of_ne_nil hne
        cases hsplit
        exact .inl (List.all_eq_true.mp hds _ List.mem_cons_self)
    | hexadecimal =>
        cases hsplit
        exact .inl rfl

/-- What begins with a digit or a point is a number. -/
theorem at_front_number (h : c.isDigit = true ∨ c = '.') (rest : List Char) :
    isLayout c = false ∧ atFront c rest = numberAt c rest := by
  rcases h with hdigit | rfl
  · exact at_front_digit hdigit rest
  · exact ⟨rfl, rfl⟩

/-- A word is found where it is written and ends. -/
theorem at_front_word (hfirst : isWordStart c = true) (hsource : source.all isWordChar = true)
    (hends : back.head?.any isWordChar = false) :
    isLayout c = false ∧
      atFront c (source ++ back) = (ofWord (String.ofList (c :: source)), source.length) := by
  have htake : (source ++ back).takeWhile isWordChar = source := by
    rw [List.takeWhile_append_of_pos (List.all_eq_true.mp hsource)]
    cases back with
    | nil => simp
    | cons d back => simp_all
  refine ⟨not_layout_of_kind (by decide) hfirst, ?_⟩
  unfold atFront wordAt
  rw [if_pos hfirst, htake]

/-- A lexeme is found where it is written and ends. -/
theorem Written.at_front (h : Written lexeme (c :: source)) (hends : Ends lexeme back) :
    isLayout c = false ∧ atFront c (source ++ back) = (lexeme, source.length) := by
  unfold Ends at hends
  generalize htext : c :: source = text at h
  cases h with
  | word hfirst hrest =>
      cases htext
      rw [goes_on_of_word] at hends
      exact at_front_word hfirst hrest hends
  | string contents =>
      rw [Text.quote, String.toList_ofList, List.cons_append] at htext
      obtain ⟨rfl, rfl⟩ := List.cons.inj htext
      refine ⟨rfl, ?_⟩
      have hback : back.head? ≠ some '\'' := by
        intro hquote
        rw [hquote] at hends
        cases hends
      have hcontents := string_contents_quote contents.toList [] 0 hback
      change stringAt _ = _
      unfold stringAt
      rw [List.append_assoc, List.singleton_append, hcontents]
      simp
  | @float literal hliteral =>
      cases htext
      obtain ⟨hlayout, hfront⟩ := at_front_number (number_head (.inl hliteral)) (source ++ back)
      refine ⟨hlayout, ?_⟩
      rw [hfront, numberAt, ← List.cons_append, hliteral.read hends]
      rfl
  | @integer literal hliteral =>
      cases htext
      obtain ⟨hlayout, hfront⟩ := at_front_number (number_head (.inr hliteral)) (source ++ back)
      refine ⟨hlayout, ?_⟩
      have hword : back.head?.any isWordChar = false ∧
          ((c :: source).all Char.isDigit = true → back.head? ≠ some '.') := by
        cases back with
        | nil => exact ⟨rfl, nofun⟩
        | cons d back =>
            simp only [List.head?_cons, Option.any_some, goesOn, String.toList_ofList,
              Bool.or_eq_false_iff, Bool.and_eq_false_iff, decide_eq_false_iff_not] at hends
            refine ⟨hends.1, fun hdigits hpoint => ?_⟩
            cases hpoint
            rcases hends.2 with hne | hother
            · exact hne rfl
            · rw [hdigits] at hother
              cases hother
      obtain ⟨hfloat, hinteger⟩ := hliteral.read hword.1 hword.2
      rw [hfront, numberAt, ← List.cons_append, hfloat, hinteger]
      rfl
  | comparison op =>
      cases op with
      | less =>
          cases htext
          refine ⟨rfl, ?_⟩
          change symbolAt '<' back = _
          unfold symbolAt
          split <;> simp_all [goesOn]
      | greater =>
          cases htext
          refine ⟨rfl, ?_⟩
          change symbolAt '>' back = _
          unfold symbolAt
          split <;> simp_all [goesOn]
      | equal | notEqual | lessOrEqual | greaterOrEqual =>
          cases htext
          exact ⟨rfl, rfl⟩
  | plus | minus | star | slash | leftParen | rightParen | comma =>
      cases htext
      exact ⟨rfl, rfl⟩

/-- A word at the front of a text is written there and ends. -/
theorem written_of_word_at (hfirst : isWordStart c = true) (rest : List Char) :
    ∃ source back, rest = source ++ back ∧ (wordAt c rest).2 = source.length ∧
      Written (wordAt c rest).1 (c :: source) ∧ Ends (wordAt c rest).1 back := by
  refine ⟨rest.takeWhile isWordChar, rest.dropWhile isWordChar,
    List.takeWhile_append_dropWhile.symm, rfl, .word hfirst List.all_takeWhile, ?_⟩
  unfold Ends wordAt
  rw [goes_on_of_word]
  have hhead := List.head?_dropWhile_not isWordChar rest
  cases hmore : (rest.dropWhile isWordChar).head? with
  | none => rfl
  | some d => simpa [hmore] using hhead

/-- A closed string at the front of a text is written there and ends. -/
theorem written_of_string_at (hclosed : (stringAt rest).1 ≠ .unclosedString) :
    ∃ source back, rest = source ++ back ∧ (stringAt rest).2 = source.length ∧
      Written (stringAt rest).1 ('\'' :: source) ∧ Ends (stringAt rest).1 back := by
  unfold stringAt at hclosed ⊢
  split
  · next contents taken hcontents =>
      obtain ⟨text, back, rfl, rfl, rfl, hback⟩ := string_contents_sound hcontents
      refine ⟨Text.doubleQuotes text ++ ['\''], back, by simp, by simp, ?_, ?_⟩
      · have hwritten := Written.string (String.ofList text)
        rw [Text.quote, String.toList_ofList, String.toList_ofList] at hwritten
        exact hwritten
      · cases back with
        | nil => rfl
        | cons d back => simpa [Ends, goesOn] using hback
  · next hnone =>
      rw [hnone] at hclosed
      exact absurd rfl hclosed

/-- No digits stand in front of a point that begins a lexeme, unless they are read with it. -/
theorem float_of_point {digits following : List Char} (hdigits : digits.all Char.isDigit = true)
    (hnext : ∀ d, (atFront '.' following).1 ≠ .stray d) :
    Token.float? (digits ++ '.' :: following) ≠ none := by
  have hinteger : Token.integer? ('.' :: following) = none := rfl
  have hfront : atFront '.' following = numberAt '.' following := rfl
  rw [hfront, numberAt, hinteger] at hnext
  split at hnext
  · next literal back hfloat =>
      obtain ⟨hsplit, hliteral, hword⟩ := Token.float_sound hfloat
      obtain ⟨first, literal, rfl⟩ := List.exists_cons_of_ne_nil hliteral.ne_nil
      rw [List.cons_append] at hsplit
      obtain ⟨rfl, rfl⟩ := List.cons.inj hsplit
      have hread := (hliteral.digits_in_front hdigits).read hword
      rw [List.append_assoc, List.cons_append] at hread
      rw [hread]
      simp
  · exact absurd rfl (hnext '.')

/-- A number at the front of a text is written there and ends, if no stray character follows it. -/
theorem written_of_number_at (hstray : ∀ d, (numberAt c rest).1 ≠ .stray d)
    (hnext : ∀ d, .stray d ∉ Token.lexemes (rest.drop (numberAt c rest).2)) :
    ∃ source back, rest = source ++ back ∧ (numberAt c rest).2 = source.length ∧
      Written (numberAt c rest).1 (c :: source) ∧ Ends (numberAt c rest).1 back := by
  unfold numberAt at hstray hnext ⊢
  split
  · next literal back hfloat =>
      obtain ⟨hsplit, hliteral, hword⟩ := Token.float_sound hfloat
      obtain ⟨first, source, rfl⟩ := List.exists_cons_of_ne_nil hliteral.ne_nil
      cases hsplit
      exact ⟨source, back, rfl, rfl, .float hliteral, hword⟩
  · next hfloat =>
      simp only [hfloat] at hstray hnext
      split
      · next literal back hinteger =>
          simp only [hinteger] at hnext
          obtain ⟨hsplit, hliteral, hword⟩ := Token.integer_sound hinteger
          obtain ⟨first, source, rfl⟩ := List.exists_cons_of_ne_nil hliteral.ne_nil
          cases hsplit
          refine ⟨source, back, rfl, rfl, .integer hliteral, ?_⟩
          cases back with
          | nil => rfl
          | cons d back =>
              simp only [Ends, List.head?_cons, Option.any_some, goesOn, String.toList_ofList,
                Bool.or_eq_false_iff, Bool.and_eq_false_iff, decide_eq_false_iff_not]
              refine ⟨by simpa using hword, ?_⟩
              -- A point behind digits alone would begin a stray character, or go on with them.
              by_contra hpoint
              simp only [not_or, not_not, Bool.not_eq_false] at hpoint
              obtain ⟨rfl, hdigits⟩ := hpoint
              refine float_of_point hdigits (fun d hstray => ?_) hfloat
              refine hnext d ?_
              change _ ∈ Token.lexemes ((source ++ '.' :: back).drop source.length)
              rw [List.drop_left, Token.lexemes_cons rfl, hstray]
              exact List.mem_cons_self
      · next hinteger =>
          simp only [hinteger] at hstray
          exact absurd rfl (hstray c)

/-- A symbol at the front of a text is written there and ends. -/
theorem written_of_symbol_at (hstray : ∀ d, (symbolAt c rest).1 ≠ .stray d) :
    ∃ source back, rest = source ++ back ∧ (symbolAt c rest).2 = source.length ∧
      Written (symbolAt c rest).1 (c :: source) ∧ Ends (symbolAt c rest).1 back := by
  unfold symbolAt at hstray ⊢
  have hends {lexeme : Lexeme} (h : lexeme.goesOn = fun _ => false) (back : List Char) :
      Ends lexeme back := by
    unfold Ends
    rw [h]
    cases back <;> rfl
  split at hstray
  case h_1 back => exact ⟨['>'], back, rfl, rfl, .comparison .notEqual, hends rfl _⟩
  case h_2 back => exact ⟨['='], back, rfl, rfl, .comparison .lessOrEqual, hends rfl _⟩
  case h_3 back => exact ⟨['='], back, rfl, rfl, .comparison .greaterOrEqual, hends rfl _⟩
  case h_4 => exact ⟨[], _, rfl, rfl, .comparison .equal, hends rfl _⟩
  case h_5 hnot hnot' =>
    refine ⟨[], _, rfl, rfl, .comparison .less, ?_⟩
    rcases rest with _ | ⟨d, back⟩
    · rfl
    · simp only [Ends, List.head?_cons, Option.any_some, goesOn, Bool.or_eq_false_iff,
        decide_eq_false_iff_not]
      exact ⟨fun heq => hnot' back (by rw [heq]), fun heq => hnot back (by rw [heq])⟩
  case h_6 hnot =>
    refine ⟨[], _, rfl, rfl, .comparison .greater, ?_⟩
    rcases rest with _ | ⟨d, back⟩
    · rfl
    · simp only [Ends, List.head?_cons, Option.any_some, goesOn, decide_eq_false_iff_not]
      exact fun heq => hnot back (by rw [heq])
  case h_7 => exact ⟨[], _, rfl, rfl, .plus, hends rfl _⟩
  case h_8 => exact ⟨[], _, rfl, rfl, .minus, hends rfl _⟩
  case h_9 => exact ⟨[], _, rfl, rfl, .star, hends rfl _⟩
  case h_10 => exact ⟨[], _, rfl, rfl, .slash, hends rfl _⟩
  case h_11 => exact ⟨[], _, rfl, rfl, .leftParen, hends rfl _⟩
  case h_12 => exact ⟨[], _, rfl, rfl, .rightParen, hends rfl _⟩
  case h_13 => exact ⟨[], _, rfl, rfl, .comma, hends rfl _⟩
  case h_14 => exact absurd rfl (hstray _)

/-- A lexeme is found at the front of a text only where it is written and ends, if it is neither a
stray character nor an open string and no stray character follows it. -/
theorem written_of_at_front (hstray : ∀ d, (atFront c rest).1 ≠ .stray d)
    (hclosed : (atFront c rest).1 ≠ .unclosedString)
    (hnext : ∀ d, .stray d ∉ Token.lexemes (rest.drop (atFront c rest).2)) :
    ∃ source back, rest = source ++ back ∧ (atFront c rest).2 = source.length ∧
      Written (atFront c rest).1 (c :: source) ∧ Ends (atFront c rest).1 back := by
  unfold atFront at hstray hclosed hnext ⊢
  split
  · next hfirst => exact written_of_word_at hfirst rest
  · next hfirst =>
      simp only [if_neg hfirst] at hstray hclosed hnext
      split
      · next hquote =>
          subst hquote
          exact written_of_string_at hclosed
      · next hquote =>
          simp only [if_neg hquote] at hstray hnext
          split
          · next hdigit =>
              simp only [if_pos hdigit] at hstray hnext
              exact written_of_number_at hstray hnext
          · next hdigit =>
              simp only [if_neg hdigit] at hstray
              exact written_of_symbol_at hstray

end MessageSelector.Lexeme
