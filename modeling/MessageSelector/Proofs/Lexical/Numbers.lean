import Mathlib.Data.List.TakeDrop
import MessageSelector.Token.Scanning

/-!
# The grammar of numbers as a relation

`IsFloat` and `IsInteger` say how the literals of the two kinds are written, without an order of
reading. A literal that is read is written so, and one that is written so is read whole wherever no
word goes on behind it; an integer of decimal digits alone also wants no point there.
-/

namespace MessageSelector.Token

open Decimal (splitDigits)

/-! ## How numbers are written -/

/-- An exponent: its mark, at most one sign, and digits. -/
inductive IsExponent : List Char → Prop where
  | mk {mark sign ds} :
      mark = 'e' ∨ mark = 'E' → sign = [] ∨ sign = ['+'] ∨ sign = ['-'] → ds ≠ [] →
      ds.all Char.isDigit = true → IsExponent (mark :: (sign ++ ds))

/-- Digits with a point or an exponent, or both. -/
inductive IsMantissa : List Char → Prop where
  | pointed {whole fraction exponent} :
      whole.all Char.isDigit = true → fraction.all Char.isDigit = true →
      whole ≠ [] ∨ fraction ≠ [] → exponent = [] ∨ IsExponent exponent →
      IsMantissa (whole ++ '.' :: (fraction ++ exponent))
  | scientific {whole exponent} :
      whole.all Char.isDigit = true → whole ≠ [] → IsExponent exponent →
      IsMantissa (whole ++ exponent)

/-- A run of decimal digits, or `0x` and a run of hexadecimal ones. -/
inductive IsWhole : List Char → Prop where
  | decimal {ds} : ds ≠ [] → ds.all Char.isDigit = true → IsWhole ds
  | hexadecimal {x digit ds} :
      x = 'x' ∨ x = 'X' → Integer.isHexDigit digit = true → ds.all Integer.isHexDigit = true →
      IsWhole ('0' :: x :: digit :: ds)

/-- At most one suffix letter. -/
def IsSuffix (isSuffix : Char → Bool) (suffix : List Char) : Prop :=
  suffix = [] ∨ ∃ c, suffix = [c] ∧ isSuffix c = true

/-- A floating-point literal as written. -/
def IsFloat (literal : List Char) : Prop :=
  ∃ part suffix, literal = part ++ suffix ∧ IsMantissa part ∧ IsSuffix isFloatSuffix suffix

/-- An integer literal as written. -/
def IsInteger (literal : List Char) : Prop :=
  ∃ part suffix, literal = part ++ suffix ∧ IsWhole part ∧ IsSuffix isIntegerSuffix suffix

/-- A floating-point literal has characters. -/
theorem IsFloat.ne_nil {literal : List Char} (h : IsFloat literal) : literal ≠ [] := by
  obtain ⟨part, suffix, rfl, hpart, -⟩ := h
  cases hpart with
  | pointed => simp
  | scientific _ hne => simp [hne]

/-- An integer literal has characters. -/
theorem IsInteger.ne_nil {literal : List Char} (h : IsInteger literal) : literal ≠ [] := by
  obtain ⟨part, suffix, rfl, hpart, -⟩ := h
  cases hpart with
  | decimal hne => simp [hne]
  | hexadecimal => simp

/-! ## What is read is written so -/

variable {text part rest literal : List Char}

/-- Digits that are split off stood in front of the rest. -/
theorem split_digits_sound {ds : List Char} (h : splitDigits text = (ds, rest)) :
    text = ds ++ rest ∧ ds.all Char.isDigit = true := by
  unfold splitDigits at h
  rw [List.span_eq_takeWhile_dropWhile] at h
  cases h
  exact ⟨List.takeWhile_append_dropWhile.symm, List.all_takeWhile⟩

/-- No digit is left at the front of the rest. -/
theorem split_digits_head {ds : List Char} (h : splitDigits text = (ds, rest)) :
    ∀ c ∈ rest.head?, c.isDigit = false := by
  intro c hc
  unfold splitDigits at h
  rw [List.span_eq_takeWhile_dropWhile] at h
  cases h
  have hhead := List.head?_dropWhile_not Char.isDigit text
  rw [Option.mem_def.mp hc] at hhead
  simpa using hhead

/-- A run of digits that is read stood in front of the rest. -/
theorem digits_sound {ds : List Char} (h : digits? text = some (ds, rest)) :
    text = ds ++ rest ∧ ds ≠ [] ∧ ds.all Char.isDigit = true := by
  unfold digits? at h
  split at h
  · cases h
  · next hne =>
      have hsplit := Option.some.inj h
      obtain ⟨rfl, hds⟩ := split_digits_sound hsplit
      exact ⟨rfl, fun hnil => hne rest (by rw [hsplit, hnil]), hds⟩

/-- An exponent that is read is one. -/
theorem exponent_sound (h : exponent? text = some (part, rest)) :
    text = part ++ rest ∧ IsExponent part := by
  unfold exponent? at h
  split at h
  · next mark following =>
      split at h
      · next hmark =>
          rw [Bool.or_eq_true, decide_eq_true_eq, decide_eq_true_eq] at hmark
          split at h <;>
            obtain ⟨⟨ds, left⟩, hds, hpart⟩ := Option.map_eq_some_iff.mp h <;> cases hpart <;>
            obtain ⟨rfl, hne, hdigits⟩ := digits_sound hds
          · exact ⟨rfl, @IsExponent.mk mark ['+'] ds hmark (.inr (.inl rfl)) hne hdigits⟩
          · exact ⟨rfl, @IsExponent.mk mark ['-'] ds hmark (.inr (.inr rfl)) hne hdigits⟩
          · exact ⟨rfl, @IsExponent.mk mark [] ds hmark (.inl rfl) hne hdigits⟩
      · cases h
  · cases h

/-- A part is followed by an exponent or by none. -/
theorem with_exponent_sound {following whole : List Char}
    (h : withExponent part following = (whole, rest)) :
    ∃ exponent, whole = part ++ exponent ∧ following = exponent ++ rest ∧
      (exponent = [] ∨ IsExponent exponent) := by
  unfold withExponent at h
  split at h
  · next exponent left hexponent =>
      cases h
      obtain ⟨rfl, hform⟩ := exponent_sound hexponent
      exact ⟨exponent, rfl, rfl, .inr hform⟩
  · cases h
    exact ⟨[], (List.append_nil _).symm, rfl, .inl rfl⟩

/-- Digits that are read with a point or an exponent are written so. -/
theorem mantissa_sound (h : mantissa? text = some (part, rest)) :
    text = part ++ rest ∧ IsMantissa part := by
  unfold mantissa? at h
  split at h
  · next following hdigits =>
      obtain ⟨rfl, -⟩ := split_digits_sound hdigits
      obtain ⟨⟨fraction, left⟩, hfraction, hpart⟩ := Option.map_eq_some_iff.mp h
      obtain ⟨rfl, hne, hfractionDigits⟩ := digits_sound hfraction
      obtain ⟨exponent, rfl, rfl, hexponent⟩ := with_exponent_sound hpart
      exact ⟨by simp, @IsMantissa.pointed [] _ _ rfl hfractionDigits (.inr hne) hexponent⟩
  · cases h
  · next whole following hne hdigits =>
      obtain ⟨rfl, hwholeDigits⟩ := split_digits_sound hdigits
      obtain ⟨⟨fraction, left⟩, hsplit⟩ : ∃ parts, splitDigits following = parts := ⟨_, rfl⟩
      obtain ⟨rfl, hfractionDigits⟩ := split_digits_sound hsplit
      rw [hsplit] at h
      obtain ⟨exponent, rfl, rfl, hexponent⟩ := with_exponent_sound (Option.some.inj h)
      refine ⟨by simp, ?_⟩
      rw [List.append_assoc, List.cons_append]
      exact .pointed hwholeDigits hfractionDigits (.inl hne) hexponent
  · next whole following hne hother hdigits =>
      obtain ⟨rfl, hwholeDigits⟩ := split_digits_sound hdigits
      obtain ⟨⟨exponent, left⟩, hexponent, hpart⟩ := Option.map_eq_some_iff.mp h
      cases hpart
      obtain ⟨rfl, hform⟩ := exponent_sound hexponent
      exact ⟨(List.append_assoc ..).symm, .scientific hwholeDigits hne hform⟩

/-- An integer that is read in either base is written so. -/
theorem whole_sound (h : whole? text = some (part, rest)) : text = part ++ rest ∧ IsWhole part := by
  unfold whole? at h
  split at h
  · next x digit following =>
      split at h
      · next hx =>
          rw [Bool.and_eq_true, Bool.or_eq_true, decide_eq_true_eq, decide_eq_true_eq] at hx
          rw [List.span_eq_takeWhile_dropWhile] at h
          cases h
          exact ⟨by simp [List.takeWhile_append_dropWhile],
            .hexadecimal hx.1 hx.2 List.all_takeWhile⟩
      · obtain ⟨hsplit, hne, hds⟩ := digits_sound h
        exact ⟨hsplit, .decimal hne hds⟩
  · obtain ⟨hsplit, hne, hds⟩ := digits_sound h
    exact ⟨hsplit, .decimal hne hds⟩

/-- At most one suffix letter is read, and no word goes on behind it. -/
theorem with_suffix_sound {isSuffix : Char → Bool} {following : List Char}
    (h : withSuffix isSuffix part following = some (literal, rest)) :
    ∃ suffix, literal = part ++ suffix ∧ following = suffix ++ rest ∧ IsSuffix isSuffix suffix ∧
      rest.head?.any isWordChar = false := by
  have hends {part left : List Char}
      (h : (if left.head?.any isWordChar then none else some (part, left)) = some (literal, rest)) :
      part = literal ∧ left = rest ∧ rest.head?.any isWordChar = false := by
    split at h
    · cases h
    · next hword =>
        cases h
        exact ⟨rfl, rfl, by simpa using hword⟩
  unfold withSuffix at h
  cases following with
  | nil =>
      obtain ⟨rfl, rfl, hword⟩ := hends h
      exact ⟨[], (List.append_nil _).symm, rfl, .inl rfl, hword⟩
  | cons c left =>
      cases hc : isSuffix c with
      | false =>
          simp only [hc] at h
          obtain ⟨rfl, rfl, hword⟩ := hends h
          exact ⟨[], (List.append_nil _).symm, rfl, .inl rfl, hword⟩
      | true =>
          simp only [hc, if_true] at h
          obtain ⟨rfl, rfl, hword⟩ := hends h
          exact ⟨[c], rfl, rfl, .inr ⟨c, rfl, hc⟩, hword⟩

/-- A floating-point literal that is read is one, and no word goes on behind it. -/
theorem float_sound (h : float? text = some (literal, rest)) :
    text = literal ++ rest ∧ IsFloat literal ∧ rest.head?.any isWordChar = false := by
  obtain ⟨⟨part, following⟩, hmantissa, hsuffix⟩ := Option.bind_eq_some_iff.mp h
  obtain ⟨rfl, hpart⟩ := mantissa_sound hmantissa
  obtain ⟨suffix, rfl, rfl, hform, hword⟩ := with_suffix_sound hsuffix
  exact ⟨by rw [List.append_assoc], ⟨part, suffix, rfl, hpart, hform⟩, hword⟩

/-- An integer literal that is read is one, and no word goes on behind it. -/
theorem integer_sound (h : integer? text = some (literal, rest)) :
    text = literal ++ rest ∧ IsInteger literal ∧ rest.head?.any isWordChar = false := by
  obtain ⟨⟨part, following⟩, hwhole, hsuffix⟩ := Option.bind_eq_some_iff.mp h
  obtain ⟨rfl, hpart⟩ := whole_sound hwhole
  obtain ⟨suffix, rfl, rfl, hform, hword⟩ := with_suffix_sound hsuffix
  exact ⟨by rw [List.append_assoc], ⟨part, suffix, rfl, hpart, hform⟩, hword⟩

/-! ## What is written so is read -/

/-- Digits are split off where no digit follows them. -/
theorem split_digits_append {ds rest : List Char} (hds : ds.all Char.isDigit = true)
    (hrest : ∀ c ∈ rest.head?, c.isDigit = false) : splitDigits (ds ++ rest) = (ds, rest) := by
  have hdigits : ∀ c ∈ ds, c.isDigit = true := List.all_eq_true.mp hds
  unfold splitDigits
  rw [List.span_eq_takeWhile_dropWhile, List.takeWhile_append_of_pos hdigits,
    List.dropWhile_append_of_pos hdigits]
  cases rest with
  | nil => simp
  | cons c rest =>
      have hc : c.isDigit = false := hrest c rfl
      simp [hc]

/-- Digits begin with no sign. -/
theorem unsigned_of_digits {ds rest following : List Char} {sign : Char} (hne : ds ≠ [])
    (hds : ds.all Char.isDigit = true) (hsign : sign.isDigit = false) :
    ds ++ rest ≠ sign :: following := by
  cases ds with
  | nil => exact absurd rfl hne
  | cons d ds =>
      rw [List.all_cons, Bool.and_eq_true] at hds
      rintro ⟨⟩
      rw [hsign] at hds
      cases hds.1

/-- A non-empty run of digits is read where no digit follows it. -/
theorem digits_append {ds rest : List Char} (hne : ds ≠ []) (hds : ds.all Char.isDigit = true)
    (hrest : ∀ c ∈ rest.head?, c.isDigit = false) : digits? (ds ++ rest) = some (ds, rest) := by
  unfold digits?
  rw [split_digits_append hds hrest]
  cases ds with
  | nil => exact absurd rfl hne
  | cons c ds => rfl

/-- What is so of the digits of either base among the ASCII characters is so of all of them. -/
theorem forall_hex_digit {p : Char → Prop}
    (hall : ∀ n < 128, Integer.isHexDigit (Char.ofNat n) = true → p (Char.ofNat n)) {c : Char}
    (h : Integer.isHexDigit c = true) : p c := by
  have hascii : c.toNat < 128 := by
    simp only [Integer.isHexDigit, Bool.or_eq_true, Bool.and_eq_true, decide_eq_true_eq] at h
    rcases h with (h | h) | h
    · exact Nat.lt_of_le_of_lt (Char.isDigit_iff_toNat.mp h).2 (by decide)
    · exact Nat.lt_of_le_of_lt (UInt32.le_iff_toNat_le.mp h.2) (by decide)
    · exact Nat.lt_of_le_of_lt (UInt32.le_iff_toNat_le.mp h.2) (by decide)
  rw [← Char.ofNat_toNat c] at h ⊢
  exact hall c.toNat hascii h

/-- A decimal digit is one of either base. -/
theorem hex_digit_of_digit {c : Char} (h : c.isDigit = true) : Integer.isHexDigit c = true := by
  rw [Integer.isHexDigit, h]
  rfl

/-- Digits of either base are part of a word. -/
theorem word_char_of_hex_digit {c : Char} (h : Integer.isHexDigit c = true) :
    isWordChar c = true :=
  forall_hex_digit (p := fun c => isWordChar c = true) (by decide +kernel) h

/-- What is part of no word is no letter. -/
theorem ne_of_not_word_char {c letter : Char} (h : isWordChar c = false)
    (hletter : isWordChar letter = true) : c ≠ letter := by
  rintro rfl
  rw [hletter] at h
  cases h

/-- What is part of no word is no digit of either base. -/
theorem not_digit_of_not_word_char {c : Char} (h : isWordChar c = false) :
    Integer.isHexDigit c = false ∧ c.isDigit = false := by
  constructor
  · cases hhex : Integer.isHexDigit c with
    | false => rfl
    | true =>
        rw [word_char_of_hex_digit hhex] at h
        cases h
  · rw [isWordChar, Bool.or_eq_false_iff] at h
    exact h.2

/-- No exponent begins without its mark. -/
theorem exponent_eq_none (h : ∀ c ∈ rest.head?, c ≠ 'e' ∧ c ≠ 'E') : exponent? rest = none := by
  cases rest with
  | nil => rfl
  | cons c rest => simp [exponent?, h c rfl]

/-- The text after a number begins with its suffix, or with what follows the word. -/
theorem IsSuffix.head {isSuffix : Char → Bool} {suffix : List Char} (h : IsSuffix isSuffix suffix)
    (hrest : rest.head?.any isWordChar = false) {p : Char → Prop}
    (hsuffix : ∀ c, isSuffix c = true → p c) (hword : ∀ c, isWordChar c = false → p c) :
    ∀ c ∈ (suffix ++ rest).head?, p c := by
  rcases h with rfl | ⟨c, rfl, hc⟩
  · intro c hc
    refine hword c ?_
    rw [List.nil_append, Option.mem_def] at hc
    simpa [hc] using hrest
  · rintro _ ⟨⟩
    exact hsuffix c hc

/-- An exponent is read whole where no digit follows. -/
theorem IsExponent.read (h : IsExponent part) (hrest : ∀ c ∈ rest.head?, c.isDigit = false) :
    exponent? (part ++ rest) = some (part, rest) := by
  obtain ⟨hmark, hsign, hne, hds⟩ := h
  rename_i mark sign ds
  have hdigits := digits_append hne hds hrest
  have hmark : (mark = 'e' || mark = 'E') = true := by simpa using hmark
  rcases hsign with rfl | rfl | rfl
  · simp only [List.nil_append, List.cons_append, exponent?, hmark, if_true]
    split
    · next heq => exact absurd heq (unsigned_of_digits hne hds (by decide))
    · next heq => exact absurd heq (unsigned_of_digits hne hds (by decide))
    · rw [hdigits]
      rfl
  · simp [exponent?, hmark, hdigits]
  · simp [exponent?, hmark, hdigits]

/-- Digits with a point or an exponent are read whole where no digit and no exponent follows. -/
theorem IsMantissa.read (h : IsMantissa part) (hrest : ∀ c ∈ rest.head?, c.isDigit = false)
    (hnone : exponent? rest = none) : mantissa? (part ++ rest) = some (part, rest) := by
  cases h with
  | @pointed whole fraction exponent hwhole hfraction hne hexponent =>
      have hwith (part : List Char) :
          withExponent part (exponent ++ rest) = (part ++ exponent, rest) := by
        unfold withExponent
        rcases hexponent with rfl | hexponent
        · rw [List.nil_append, hnone, List.append_nil]
        · rw [hexponent.read hrest]
      have hhead : ∀ c ∈ (exponent ++ rest).head?, c.isDigit = false := by
        rcases hexponent with rfl | ⟨hmark, -, -, -⟩
        · exact hrest
        · rintro _ ⟨⟩
          rcases hmark with rfl | rfl <;> rfl
      have hsplit := split_digits_append hfraction hhead
      unfold mantissa?
      rw [List.append_assoc, List.cons_append, List.append_assoc,
        split_digits_append hwhole (by simp)]
      cases whole with
      | nil =>
          have hdigits := digits_append (hne.resolve_left fun h => h rfl) hfraction hhead
          simp only [hdigits, Option.map_some, hwith, List.nil_append, List.cons_append]
      | cons d ds => simp only [hsplit, hwith, List.append_assoc, List.cons_append]
  | @scientific whole exponent hwhole hne hexponent =>
      have hread := hexponent.read hrest
      obtain ⟨hmark, -, -, -⟩ := hexponent
      unfold mantissa?
      rw [List.append_assoc, split_digits_append hwhole]
      · obtain ⟨d, ds, rfl⟩ := List.exists_cons_of_ne_nil hne
        rcases hmark with rfl | rfl <;>
          simp only [List.cons_append, List.append_assoc] at hread ⊢ <;>
          simp [hread]
      · rintro _ ⟨⟩
        rcases hmark with rfl | rfl <;> rfl

/-- A suffix is read where no word goes on behind it. -/
theorem IsSuffix.read {isSuffix : Char → Bool} {suffix : List Char} (h : IsSuffix isSuffix suffix)
    (hword : ∀ c, isSuffix c = true → isWordChar c = true)
    (hrest : rest.head?.any isWordChar = false) (part : List Char) :
    withSuffix isSuffix part (suffix ++ rest) = some (part ++ suffix, rest) := by
  unfold withSuffix
  rcases h with rfl | ⟨c, rfl, hc⟩
  · rw [List.nil_append, List.append_nil]
    cases rest with
    | nil => rfl
    | cons c rest =>
        have hc : isSuffix c = false := by
          cases hc : isSuffix c with
          | false => rfl
          | true => simp [hword c hc] at hrest
        simp only [hc, Bool.false_eq_true, if_false]
        rw [if_neg (by simpa using hrest)]
  · simp only [List.cons_append, List.nil_append, hc, if_true]
    rw [if_neg (by simpa using hrest)]

/-- A suffix of floating-point literals is part of a word, and neither a digit nor the mark of an
exponent. -/
theorem float_suffix_word {c : Char} (h : isFloatSuffix c = true) :
    isWordChar c = true ∧ c.isDigit = false ∧ c ≠ 'e' ∧ c ≠ 'E' := by
  simp only [isFloatSuffix, Bool.or_eq_true, decide_eq_true_eq] at h
  rcases h with ((rfl | rfl) | rfl) | rfl <;> decide

/-- A suffix of integer literals is part of a word, and neither a digit of either base nor the mark
of a base or an exponent. -/
theorem integer_suffix_word {c : Char} (h : isIntegerSuffix c = true) :
    isWordChar c = true ∧ Integer.isHexDigit c = false ∧ c ≠ 'x' ∧ c ≠ 'X' ∧ c ≠ 'e' ∧ c ≠ 'E' := by
  simp only [isIntegerSuffix, Bool.or_eq_true, decide_eq_true_eq] at h
  rcases h with rfl | rfl <;> decide

/-- A digit of either base is no suffix. -/
theorem suffix_of_hex_digit {c : Char} (h : Integer.isHexDigit c = true) :
    isIntegerSuffix c = false := by
  cases hsuffix : isIntegerSuffix c with
  | false => rfl
  | true =>
      rw [(integer_suffix_word hsuffix).2.1] at h
      cases h

/-- A floating-point literal is read whole where no word goes on behind it. -/
theorem IsFloat.read (h : IsFloat literal) (hrest : rest.head?.any isWordChar = false) :
    float? (literal ++ rest) = some (literal, rest) := by
  obtain ⟨part, suffix, rfl, hpart, hsuffix⟩ := h
  have hdigit := hsuffix.head hrest (fun c hc => (float_suffix_word hc).2.1)
    fun c hc => (not_digit_of_not_word_char hc).2
  have hmark := hsuffix.head hrest (fun c hc => (float_suffix_word hc).2.2)
    fun c hc => ⟨ne_of_not_word_char hc (by decide), ne_of_not_word_char hc (by decide)⟩
  unfold float?
  rw [List.append_assoc, hpart.read hdigit (exponent_eq_none hmark)]
  exact hsuffix.read (fun c hc => (float_suffix_word hc).1) hrest part

/-- Digits in front of a literal that begins with its point are part of it. -/
theorem IsFloat.digits_in_front {ds : List Char} (hds : ds.all Char.isDigit = true)
    (h : IsFloat ('.' :: literal)) : IsFloat (ds ++ '.' :: literal) := by
  obtain ⟨part, suffix, hsplit, hpart, hsuffix⟩ := h
  have hdigit {whole more : List Char} (hwhole : whole.all Char.isDigit = true)
      (hsplit : '.' :: literal = whole ++ more) : whole = [] := by
    cases whole with
    | nil => rfl
    | cons d whole =>
        cases hsplit
        cases hwhole
  cases hpart with
  | @pointed whole fraction exponent hwhole hfraction hne hexponent =>
      obtain rfl := hdigit hwhole (by rw [hsplit, List.append_assoc])
      rw [hsplit, ← List.append_assoc]
      refine ⟨_, suffix, rfl, .pointed hds hfraction (.inr ?_) hexponent, hsuffix⟩
      exact hne.resolve_left fun h => h rfl
  | scientific hwhole hne hexponent =>
      exact absurd (hdigit hwhole (by rw [hsplit, List.append_assoc])) hne

/-! ### Integers -/

/-- Digits that are followed by no digit, no point and no exponent are no floating-point literal. -/
theorem float_of_no_point {ds : List Char} (hds : ds.all Char.isDigit = true)
    (hrest : ∀ c ∈ rest.head?, c.isDigit = false ∧ c ≠ '.') (hnone : exponent? rest = none) :
    float? (ds ++ rest) = none := by
  have hmantissa : mantissa? (ds ++ rest) = none := by
    unfold mantissa?
    rw [split_digits_append hds fun c hc => (hrest c hc).1]
    cases rest with
    | nil => cases ds <;> rfl
    | cons c rest =>
        have hc := (hrest c rfl).2
        cases ds <;> simp [hc, hnone]
  unfold float?
  rw [hmantissa]
  rfl

/-- A run of digits in either base is read whole where no hexadecimal digit and no mark of a base
follows. -/
theorem IsWhole.read (h : IsWhole part)
    (hrest : ∀ c ∈ rest.head?, Integer.isHexDigit c = false ∧ c ≠ 'x' ∧ c ≠ 'X') :
    whole? (part ++ rest) = some (part, rest) := by
  cases h with
  | decimal hne hds =>
      have hdigits := digits_append hne hds fun c hc => by
        have hhex := (hrest c hc).1
        rw [Integer.isHexDigit, Bool.or_eq_false_iff, Bool.or_eq_false_iff] at hhex
        exact hhex.1.1
      unfold whole?
      split
      · next x digit following heq =>
          -- The second character is a digit or follows the number, so it marks no base.
          have hx : (x = 'x' || x = 'X') = false := by
            rw [Bool.or_eq_false_iff, decide_eq_false_iff_not, decide_eq_false_iff_not]
            rcases part with _ | ⟨first, _ | ⟨second, ds⟩⟩
            · exact absurd rfl hne
            · cases heq
              exact (hrest x rfl).2
            · simp only [List.cons_append, List.cons.injEq] at heq
              obtain ⟨rfl, rfl, -⟩ := heq
              simp only [List.all_cons, Bool.and_eq_true] at hds
              constructor <;> rintro rfl <;> exact absurd hds.2.1 (by decide)
          rw [hx]
          exact hdigits
      · exact hdigits
  | @hexadecimal x digit ds hx hdigit hds =>
      have hspan : (ds ++ rest).span Integer.isHexDigit = (ds, rest) := by
        rw [List.span_eq_takeWhile_dropWhile,
          List.takeWhile_append_of_pos (List.all_eq_true.mp hds),
          List.dropWhile_append_of_pos (List.all_eq_true.mp hds)]
        cases rest with
        | nil => simp
        | cons c rest => simp [(hrest c rfl).1]
      have hmark : (x = 'x' || x = 'X') = true := by simpa using hx
      simp only [List.cons_append, whole?, hmark, hdigit, hspan, Bool.and_self, if_true]

/-- An integer literal is read whole where no word goes on behind it, and no point either if it is
digits alone. -/
theorem IsInteger.read (h : IsInteger literal) (hrest : rest.head?.any isWordChar = false)
    (hpoint : literal.all Char.isDigit = true → rest.head? ≠ some '.') :
    float? (literal ++ rest) = none ∧ integer? (literal ++ rest) = some (literal, rest) := by
  obtain ⟨part, suffix, rfl, hpart, hsuffix⟩ := h
  have hhex := hsuffix.head hrest (fun c hc => (integer_suffix_word hc).2.1)
    fun c hc => (not_digit_of_not_word_char hc).1
  have hbase := hsuffix.head hrest (p := fun c => c ≠ 'x' ∧ c ≠ 'X')
    (fun c hc => ⟨(integer_suffix_word hc).2.2.1, (integer_suffix_word hc).2.2.2.1⟩)
    fun c hc => ⟨ne_of_not_word_char hc (by decide), ne_of_not_word_char hc (by decide)⟩
  have hmark := hsuffix.head hrest (fun c hc => (integer_suffix_word hc).2.2.2.2)
    fun c hc => ⟨ne_of_not_word_char hc (by decide), ne_of_not_word_char hc (by decide)⟩
  constructor
  · rw [List.append_assoc]
    cases hpart with
    | decimal hne hds =>
        refine float_of_no_point hds (fun c hc => ⟨?_, ?_⟩) (exponent_eq_none hmark)
        · have hdigit := hhex c hc
          rw [Integer.isHexDigit, Bool.or_eq_false_iff, Bool.or_eq_false_iff] at hdigit
          exact hdigit.1.1
        · rintro rfl
          rcases hsuffix with rfl | ⟨c, rfl, hc'⟩
          · exact hpoint (by rw [List.append_nil]; exact hds) hc
          · cases hc
            exact absurd hc' (by decide)
    | @hexadecimal x digit ds hx hdigit hds =>
        have hzero : ['0'].all Char.isDigit = true := rfl
        change float? (['0'] ++ x :: digit :: (ds ++ (suffix ++ rest))) = none
        refine float_of_no_point hzero ?_ ?_
        · rintro _ ⟨⟩
          rcases hx with rfl | rfl <;> decide
        · rcases hx with rfl | rfl <;> rfl
  · unfold integer?
    rw [List.append_assoc, hpart.read fun c hc => ⟨hhex c hc, hbase c hc⟩]
    exact hsuffix.read (fun c hc => (integer_suffix_word hc).1) hrest part

end MessageSelector.Token
