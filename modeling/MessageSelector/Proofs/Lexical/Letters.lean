import MessageSelector.Proofs.Lexical.Cuts

/-!
# Lexemes in another ASCII case

Keywords, boolean literals and numbers may be written in any ASCII case. `Written.recased` says that
such a lexeme stays what it is, a number with its value, and `Ends.recased` that what stands in
front of it still ends there.
-/

namespace MessageSelector

/-! ## Characters -/

/-- Two texts differ in the ASCII case of their letters at most. -/
def SameLetters (text other : List Char) : Prop :=
  text.map Char.toLower = other.map Char.toLower

instance (text other : List Char) : Decidable (SameLetters text other) :=
  inferInstanceAs (Decidable (_ = _))

/-- A character that is no upper-case letter is its own lower case. -/
theorem to_lower_of_not_upper {c : Char} (h : c.isUpper = false) : c.toLower = c := by
  have hrange : ¬(c.val ≥ 'A'.val ∧ c.val ≤ 'Z'.val) := of_decide_eq_false h
  exact dif_neg hrange

/-- The characters beyond ASCII are no upper-case letters. -/
theorem not_upper_of_le {c : Char} (h : 128 ≤ c.toNat) : c.isUpper = false := by
  have hrange : ¬(c.val ≥ 'A'.val ∧ c.val ≤ 'Z'.val) := by
    rintro ⟨-, hle⟩
    have hletter : c.toNat ≤ 90 := UInt32.le_iff_toNat_le.mp hle
    omega
  exact decide_eq_false hrange

/-- A kind of characters that takes the two cases of an ASCII letter alike does not tell any
character from its lower case. -/
theorem kind_to_lower {α : Type} {p : Char → α}
    (h : ∀ n < 128, p (Char.ofNat n).toLower = p (Char.ofNat n)) (c : Char) :
    p c.toLower = p c := by
  by_cases hascii : c.toNat < 128
  · have hc := h c.toNat hascii
    rwa [Char.ofNat_toNat] at hc
  · rw [to_lower_of_not_upper (not_upper_of_le (Nat.le_of_not_lt hascii))]

/-- Characters that differ in case at most are of the same kind. -/
theorem kind_eq {α : Type} {p : Char → α}
    (h : ∀ n < 128, p (Char.ofNat n).toLower = p (Char.ofNat n)) {c d : Char}
    (hsame : c.toLower = d.toLower) : p c = p d := by
  rw [← kind_to_lower h c, hsame, kind_to_lower h d]

/-- The kinds that lexemes are told apart by take the two cases of an ASCII letter alike. -/
theorem kinds_to_lower : ∀ n < 128,
    (Char.ofNat n).toLower.isAlpha = (Char.ofNat n).isAlpha ∧
      (Char.ofNat n).toLower.isDigit = (Char.ofNat n).isDigit ∧
      Integer.isHexDigit (Char.ofNat n).toLower = Integer.isHexDigit (Char.ofNat n) ∧
      Integer.digitValue (Char.ofNat n).toLower = Integer.digitValue (Char.ofNat n) ∧
      isWordStart (Char.ofNat n).toLower = isWordStart (Char.ofNat n) ∧
      isWordChar (Char.ofNat n).toLower = isWordChar (Char.ofNat n) := by
  decide +kernel

/-- A character that is no letter has one case. -/
theorem eq_of_same_letter {c d : Char} (hsame : c.toLower = d.toLower) (h : c.isAlpha = false) :
    c = d := by
  have halpha : d.isAlpha = false := by
    rw [← h]
    exact (kind_eq (fun n hn => (kinds_to_lower n hn).1) hsame).symm
  rwa [to_lower_of_not_upper (Bool.or_eq_false_iff.mp h).1,
    to_lower_of_not_upper (Bool.or_eq_false_iff.mp halpha).1] at hsame

/-- Digits are told apart from other characters in either case. -/
theorem digit_to_lower : ∀ n < 128, (Char.ofNat n).toLower.isDigit = (Char.ofNat n).isDigit :=
  fun n hn => (kinds_to_lower n hn).2.1

/-- Hexadecimal digits are told apart from other characters in either case. -/
theorem hex_digit_to_lower :
    ∀ n < 128, Integer.isHexDigit (Char.ofNat n).toLower = Integer.isHexDigit (Char.ofNat n) :=
  fun n hn => (kinds_to_lower n hn).2.2.1

namespace SameLetters

variable {text other rest : List Char} {c d : Char}

/-- Texts without characters differ in nothing. -/
theorem nil_iff : SameLetters [] other ↔ other = [] := by
  simp [SameLetters, eq_comm]

/-- A text with a first character has the same letters as another with one. -/
theorem cons_iff : SameLetters (c :: text) other ↔
    ∃ d rest, other = d :: rest ∧ c.toLower = d.toLower ∧ SameLetters text rest := by
  cases other with
  | nil => simp [SameLetters]
  | cons d rest => simp [SameLetters]

/-- Texts of two parts have the same letters where the parts have. -/
theorem append_iff {front back : List Char} : SameLetters (front ++ back) other ↔
    ∃ front' back', other = front' ++ back' ∧ SameLetters front front' ∧
      SameLetters back back' := by
  constructor
  · intro h
    rw [SameLetters, List.map_append] at h
    obtain ⟨front', back', rfl, hfront, hback⟩ := List.map_eq_append_iff.mp h.symm
    exact ⟨front', back', rfl, hfront.symm, hback.symm⟩
  · rintro ⟨front', back', rfl, hfront, hback⟩
    rw [SameLetters, List.map_append, List.map_append, hfront, hback]

/-- A kind that takes the two cases of an ASCII letter alike is filtered out of both texts. -/
theorem filter {p : Char → Bool}
    (hkind : ∀ n < 128, p (Char.ofNat n).toLower = p (Char.ofNat n))
    (h : SameLetters text other) : SameLetters (text.filter p) (other.filter p) := by
  have hfilter (text : List Char) :
      (text.filter p).map Char.toLower = (text.map Char.toLower).filter p := by
    rw [List.filter_map, Function.comp_def]
    simp only [kind_to_lower hkind]
  rw [SameLetters, hfilter, hfilter, h]

/-- Texts with the same letters are of one kind, character for character. -/
theorem all_eq {p : Char → Bool}
    (hkind : ∀ n < 128, p (Char.ofNat n).toLower = p (Char.ofNat n))
    (h : SameLetters text other) : text.all p = other.all p := by
  have hall (text : List Char) : (text.map Char.toLower).all p = text.all p := by
    rw [List.all_map, Function.comp_def]
    simp only [kind_to_lower hkind]
  rw [← hall text, h, hall]

/-- Digits have no case. -/
theorem eq_of_digits (h : SameLetters text other) (hdigits : text.all Char.isDigit = true) :
    text = other := by
  induction text generalizing other with
  | nil => exact (nil_iff.mp h).symm
  | cons c text ih =>
      obtain ⟨d, rest, rfl, hc, hrest⟩ := cons_iff.mp h
      rw [List.all_cons, Bool.and_eq_true] at hdigits
      rw [eq_of_same_letter hc (not_alpha_of_digit hdigits.1), ih hrest hdigits.2]

end SameLetters

/-! ## Numbers -/

namespace Token

open Decimal (splitDigits)

variable {text other : List Char}

/-- An exponent stays one. -/
theorem IsExponent.recased (h : IsExponent text) (hsame : SameLetters text other) :
    IsExponent other := by
  obtain ⟨hmark, hsign, hne, hds⟩ := h
  obtain ⟨mark', rest, rfl, hmark', hrest⟩ := SameLetters.cons_iff.mp hsame
  obtain ⟨sign', ds', rfl, hsign', hds'⟩ := SameLetters.append_iff.mp hrest
  obtain rfl := hds'.eq_of_digits hds
  have hkind : (mark' = 'e' || mark' = 'E') = true := by
    rw [← kind_eq (p := fun c => c = 'e' || c = 'E') (by decide) hmark']
    simpa using hmark
  refine .mk (by simpa using hkind) ?_ hne hds
  have hsingle {mark : Char} (hletter : mark.isAlpha = false) (h : SameLetters [mark] sign') :
      sign' = [mark] := by
    obtain ⟨mark', rest, rfl, hmark', hrest⟩ := SameLetters.cons_iff.mp h
    rw [SameLetters.nil_iff.mp hrest, eq_of_same_letter hmark' hletter]
  rcases hsign with rfl | rfl | rfl
  · exact .inl (SameLetters.nil_iff.mp hsign')
  · exact .inr (.inl (hsingle rfl hsign'))
  · exact .inr (.inr (hsingle rfl hsign'))

/-- Digits with a point or an exponent stay so. -/
theorem IsMantissa.recased (h : IsMantissa text) (hsame : SameLetters text other) :
    IsMantissa other := by
  cases h with
  | @pointed whole fraction exponent hwhole hfraction hne hexponent =>
      obtain ⟨whole', rest, rfl, hwhole', hrest⟩ := SameLetters.append_iff.mp hsame
      obtain ⟨point, rest, rfl, hpoint, hrest⟩ := SameLetters.cons_iff.mp hrest
      obtain ⟨fraction', exponent', rfl, hfraction', hexponent'⟩ := SameLetters.append_iff.mp hrest
      obtain rfl := hwhole'.eq_of_digits hwhole
      obtain rfl := hfraction'.eq_of_digits hfraction
      obtain rfl := eq_of_same_letter hpoint rfl
      refine .pointed hwhole hfraction hne ?_
      rcases hexponent with rfl | hexponent
      · exact .inl (SameLetters.nil_iff.mp hexponent')
      · exact .inr (hexponent.recased hexponent')
  | scientific hwhole hne hexponent =>
      obtain ⟨whole', exponent', rfl, hwhole', hexponent'⟩ := SameLetters.append_iff.mp hsame
      obtain rfl := hwhole'.eq_of_digits hwhole
      exact .scientific hwhole hne (hexponent.recased hexponent')

/-- The mark of the hexadecimal base stays one. -/
theorem hexadecimal_recased {x : Char} (hx : x = 'x' ∨ x = 'X')
    (hsame : SameLetters ('0' :: x :: text) other) :
    ∃ x' rest, other = '0' :: x' :: rest ∧ (x' = 'x' ∨ x' = 'X') ∧ SameLetters text rest := by
  obtain ⟨zero, rest, rfl, hzero, hrest⟩ := SameLetters.cons_iff.mp hsame
  obtain ⟨x', rest, rfl, hx', hrest⟩ := SameLetters.cons_iff.mp hrest
  obtain rfl := eq_of_same_letter hzero rfl
  have hkind : (x' = 'x' || x' = 'X') = true := by
    rw [← kind_eq (p := fun c => c = 'x' || c = 'X') (by decide) hx']
    simpa using hx
  exact ⟨x', rest, rfl, by simpa using hkind, hrest⟩

/-- A run of digits in either base stays one. -/
theorem IsWhole.recased (h : IsWhole text) (hsame : SameLetters text other) : IsWhole other := by
  cases h with
  | decimal hne hds =>
      obtain rfl := hsame.eq_of_digits hds
      exact .decimal hne hds
  | hexadecimal hx hdigit hds =>
      obtain ⟨x', rest, rfl, hx', hrest⟩ := hexadecimal_recased hx hsame
      obtain ⟨digit', ds', rfl, hdigit', hds'⟩ := SameLetters.cons_iff.mp hrest
      refine .hexadecimal hx' ?_ ?_
      · rw [← kind_eq hex_digit_to_lower hdigit', hdigit]
      · rw [← hds'.all_eq hex_digit_to_lower, hds]

/-- A suffix stays one. -/
theorem IsSuffix.recased {isSuffix : Char → Bool} (h : IsSuffix isSuffix text)
    (hsuffix : ∀ n < 128, isSuffix (Char.ofNat n).toLower = isSuffix (Char.ofNat n))
    (hsame : SameLetters text other) : IsSuffix isSuffix other := by
  rcases h with rfl | ⟨c, rfl, hc⟩
  · exact .inl (SameLetters.nil_iff.mp hsame)
  · obtain ⟨d, rest, rfl, hd, hrest⟩ := SameLetters.cons_iff.mp hsame
    obtain rfl := SameLetters.nil_iff.mp hrest
    exact .inr ⟨d, rfl, by rw [← kind_eq hsuffix hd, hc]⟩

/-- A floating-point literal stays one. -/
theorem IsFloat.recased (h : IsFloat text) (hsame : SameLetters text other) : IsFloat other := by
  obtain ⟨part, suffix, rfl, hpart, hsuffix⟩ := h
  obtain ⟨part', suffix', rfl, hpart', hsuffix'⟩ := SameLetters.append_iff.mp hsame
  exact ⟨part', suffix', rfl, hpart.recased hpart', hsuffix.recased (by decide) hsuffix'⟩

/-- An integer literal stays one. -/
theorem IsInteger.recased (h : IsInteger text) (hsame : SameLetters text other) :
    IsInteger other := by
  obtain ⟨part, suffix, rfl, hpart, hsuffix⟩ := h
  obtain ⟨part', suffix', rfl, hpart', hsuffix'⟩ := SameLetters.append_iff.mp hsame
  exact ⟨part', suffix', rfl, hpart.recased hpart', hsuffix.recased (by decide) hsuffix'⟩

/-- Digits of either base denote one number in either case. -/
theorem of_digits_recased (base : Nat) (hsame : SameLetters text other) :
    Integer.ofDigits base text = Integer.ofDigits base other := by
  have hvalue : ∀ n < 128, Integer.digitValue (Char.ofNat n).toLower =
      Integer.digitValue (Char.ofNat n) := fun n hn => (kinds_to_lower n hn).2.2.2.1
  have hlower (text : List Char) :
      Integer.ofDigits base (text.map Char.toLower) = Integer.ofDigits base text := by
    unfold Integer.ofDigits
    rw [List.foldl_map]
    simp only [kind_to_lower hvalue]
  rw [← hlower text, hsame, hlower]

/-- An integer literal denotes one number in either case. -/
theorem integer_value_recased (hsame : SameLetters text other) :
    integerValue (String.ofList text) = integerValue (String.ofList other) := by
  have hfilter := hsame.filter (p := (!isIntegerSuffix ·)) (by decide)
  unfold integerValue
  rw [String.toList_ofList, String.toList_ofList]
  generalize text.filter (!isIntegerSuffix ·) = a, other.filter (!isIntegerSuffix ·) = b
    at hfilter ⊢
  -- The mark of the base decides, and it is there in both texts or in none.
  split
  case h_1 ds | h_2 ds =>
    obtain ⟨x', ds', rfl, hx', hds⟩ := hexadecimal_recased (by decide) hfilter
    rcases hx' with rfl | rfl <;> exact of_digits_recased 16 hds
  case h_3 hlower hupper =>
    have hnone {x : Char} {ds : List Char} (hx : x = 'x' ∨ x = 'X') :
        ¬SameLetters a ('0' :: x :: ds) := by
      intro h
      obtain ⟨x', ds', rfl, hx', -⟩ := hexadecimal_recased hx h.symm
      rcases hx' with rfl | rfl
      · exact hlower ds' rfl
      · exact hupper ds' rfl
    split
    · exact absurd hfilter (hnone (.inl rfl))
    · exact absurd hfilter (hnone (.inr rfl))
    · exact of_digits_recased 10 hfilter

/-- Digits are split off in either case. -/
theorem split_digits_recased (hsame : SameLetters text other) :
    (splitDigits text).1 = (splitDigits other).1 ∧
      SameLetters (splitDigits text).2 (splitDigits other).2 := by
  obtain ⟨⟨ds, rest⟩, hsplit⟩ : ∃ parts, splitDigits text = parts := ⟨_, rfl⟩
  have hhead := split_digits_head hsplit
  rw [hsplit]
  obtain ⟨rfl, hds⟩ := split_digits_sound hsplit
  obtain ⟨ds', rest', rfl, hds', hrest'⟩ := SameLetters.append_iff.mp hsame
  obtain rfl := hds'.eq_of_digits hds
  rw [split_digits_append hds]
  · exact ⟨rfl, hrest'⟩
  · intro d hd
    obtain ⟨following, rfl⟩ := List.head?_eq_some_iff.mp hd
    obtain ⟨c, rest, rfl, hc, -⟩ := SameLetters.cons_iff.mp hrest'.symm
    rw [kind_eq digit_to_lower hc]
    exact hhead c rfl

/-- A sign is split off in either case. -/
theorem split_sign_recased (hsame : SameLetters text other) :
    (Integer.splitSign text).1 = (Integer.splitSign other).1 ∧
      SameLetters (Integer.splitSign text).2 (Integer.splitSign other).2 := by
  unfold Integer.splitSign
  split
  · obtain ⟨sign, rest, rfl, hsign, hrest⟩ := SameLetters.cons_iff.mp hsame
    obtain rfl := eq_of_same_letter hsign rfl
    exact ⟨rfl, hrest⟩
  · obtain ⟨sign, rest, rfl, hsign, hrest⟩ := SameLetters.cons_iff.mp hsame
    obtain rfl := eq_of_same_letter hsign rfl
    exact ⟨rfl, hrest⟩
  · next hminus hplus =>
      split
      · obtain ⟨sign, rest, rfl, hsign, hrest⟩ := SameLetters.cons_iff.mp hsame.symm
        obtain rfl := eq_of_same_letter hsign rfl
        exact absurd rfl (hminus rest)
      · obtain ⟨sign, rest, rfl, hsign, hrest⟩ := SameLetters.cons_iff.mp hsame.symm
        obtain rfl := eq_of_same_letter hsign rfl
        exact absurd rfl (hplus rest)
      · exact ⟨rfl, hsame⟩

/-- An exponent that ends a text is read in either case. -/
theorem read_exponent_recased (hsame : SameLetters text other) :
    Decimal.readExponent? text = Decimal.readExponent? other := by
  cases text with
  | nil => rw [SameLetters.nil_iff.mp hsame]
  | cons mark text =>
      obtain ⟨mark', rest, rfl, hmark, hrest⟩ := SameLetters.cons_iff.mp hsame
      obtain ⟨hsign, hds⟩ := split_sign_recased hrest
      have hkind : (mark = 'e' || mark = 'E') = (mark' = 'e' || mark' = 'E') :=
        kind_eq (p := fun c => c = 'e' || c = 'E') (by decide) hmark
      have hall := hds.all_eq digit_to_lower
      unfold Decimal.readExponent?
      dsimp only
      rw [hsign, hkind]
      cases hdigits : (Integer.splitSign text).2.all Char.isDigit with
      | true => rw [← hds.eq_of_digits hdigits, hdigits]
      | false =>
          rw [← hall, hdigits, Bool.and_false, Bool.and_false]
          rfl

/-- A decimal number is read in either case. -/
theorem read_recased (hsame : SameLetters text other) :
    Decimal.read? text = Decimal.read? other := by
  obtain ⟨hwhole, hrest⟩ := split_digits_recased hsame
  unfold Decimal.read?
  dsimp only
  rw [hwhole]
  generalize (splitDigits text).2 = a, (splitDigits other).2 = b at hrest ⊢
  -- Either both go on with a point or none does.
  cases a with
  | nil => rw [SameLetters.nil_iff.mp hrest]
  | cons c a =>
      obtain ⟨d, b, rfl, hc, hafter⟩ := SameLetters.cons_iff.mp hrest
      by_cases hpoint : c = '.'
      · subst hpoint
        obtain rfl := eq_of_same_letter hc rfl
        obtain ⟨hfraction, hexponent⟩ := split_digits_recased hafter
        simp only [hfraction, read_exponent_recased hexponent]
      · have hother : d ≠ '.' := by
          rintro rfl
          exact hpoint (eq_of_same_letter hc.symm rfl).symm
        simp [hpoint, hother, read_exponent_recased hrest]

/-- A floating-point literal denotes one number in either case. -/
theorem float_value_recased (hsame : SameLetters text other) :
    floatValue? (String.ofList text) = floatValue? (String.ofList other) := by
  unfold floatValue?
  dsimp only
  rw [String.toList_ofList, String.toList_ofList,
    read_recased (hsame.filter (p := (!isFloatSuffix ·)) (by decide))]

end Token

/-! ## Lexemes -/

namespace Lexeme

/-- Two lexemes are the same, or numbers of one type and value. -/
inductive Alike : Lexeme → Lexeme → Prop where
  | same (lexeme) : Alike lexeme lexeme
  | integer {a b} : Token.integerValue a = Token.integerValue b → Alike (integer a) (integer b)
  | float {a b} : Token.floatValue? a = Token.floatValue? b → Alike (float a) (float b)

/-- Whether the lexeme may be written in any ASCII case. -/
def anyCase : Lexeme → Bool
  | keyword _ | boolean _ | integer _ | float _ => true
  | _ => false

/-- Whatever would go on with a lexeme would so in either case. -/
theorem goes_on_to_lower (lexeme : Lexeme) (c : Char) :
    lexeme.goesOn c.toLower = lexeme.goesOn c := by
  have hword : isWordChar c.toLower = isWordChar c :=
    kind_to_lower (fun n hn => (kinds_to_lower n hn).2.2.2.2.2) c
  have hne (mark : Char) (hmark : ∀ n < 128,
      decide ((Char.ofNat n).toLower = mark) = decide (Char.ofNat n = mark)) :
      decide (c.toLower = mark) = decide (c = mark) :=
    kind_to_lower (p := fun c => decide (c = mark)) hmark c
  cases lexeme with
  | keyword | boolean | identifier | float => exact hword
  | integer literal =>
      simp only [goesOn]
      rw [hword, hne _ (by decide)]
  | string => exact hne _ (by decide)
  | comparison op =>
      cases op with
      | less =>
          simp only [goesOn]
          rw [hne '=' (by decide), hne '>' (by decide)]
      | greater => exact hne _ (by decide)
      | _ => rfl
  | _ => rfl

/-- A lexeme that ends in front of a text ends in front of it in either case. -/
theorem Ends.recased {lexeme : Lexeme} {text other : List Char} (h : Ends lexeme text)
    (hsame : SameLetters text other) : Ends lexeme other := by
  cases text with
  | nil =>
      rw [SameLetters.nil_iff.mp hsame]
      exact h
  | cons c text =>
      obtain ⟨d, rest, rfl, hd, -⟩ := SameLetters.cons_iff.mp hsame
      simp only [Ends, List.head?_cons, Option.any_some] at h ⊢
      rw [← goes_on_to_lower, ← hd, goes_on_to_lower, h]

/-- A word that is no identifier is the same in either case. -/
theorem of_word_recased {word other : String} (hsame : word.toLower = other.toLower)
    (h : (ofWord word).anyCase = true) : ofWord other = ofWord word := by
  unfold ofWord at h ⊢
  rw [← hsame]
  split at h <;> simp_all [anyCase]

/-- A lexeme that may be written in any case stays what it is, a number with its value. -/
theorem Written.recased {lexeme : Lexeme} {text other : List Char} (h : Written lexeme text)
    (hcase : lexeme.anyCase = true) (hsame : SameLetters text other) :
    ∃ lexeme', Written lexeme' other ∧ lexeme.Alike lexeme' ∧ lexeme'.goesOn = lexeme.goesOn := by
  cases h with
  | @word first rest hfirst hrest =>
      obtain ⟨first', rest', rfl, hfirst', hrest'⟩ := SameLetters.cons_iff.mp hsame
      have hlower : (String.ofList (first :: rest)).toLower =
          (String.ofList (first' :: rest')).toLower := by
        rw [← String.toList_inj]
        change ((String.ofList _).map Char.toLower).toList =
          ((String.ofList _).map Char.toLower).toList
        rw [String.toList_map, String.toList_map, String.toList_ofList, String.toList_ofList]
        exact hsame
      have hword := of_word_recased hlower hcase
      refine ⟨_, .word ?_ ?_, ?_, ?_⟩
      · rw [← kind_eq (fun n hn => (kinds_to_lower n hn).2.2.2.2.1) hfirst', hfirst]
      · rw [← hrest'.all_eq fun n hn => (kinds_to_lower n hn).2.2.2.2.2, hrest]
      · rw [hword]
        exact .same _
      · rw [hword]
  | float hliteral =>
      exact ⟨_, .float (hliteral.recased hsame), .float (Token.float_value_recased hsame), rfl⟩
  | integer hliteral =>
      refine ⟨_, .integer (hliteral.recased hsame),
        .integer (Token.integer_value_recased hsame), ?_⟩
      funext c
      simp only [goesOn, String.toList_ofList]
      rw [hsame.all_eq digit_to_lower]
  | _ => cases hcase

end Lexeme

end MessageSelector
