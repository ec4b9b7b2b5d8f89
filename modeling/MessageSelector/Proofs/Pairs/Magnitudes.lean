import MessageSelector.Proofs.Lexical.Numbers
import MessageSelector.Proofs.Meanings
import MessageSelector.Proofs.Pairs.Building

/-!
# The magnitudes of number literals

An integer literal is read as an unsigned number of 64 bits first. `magnitude_of_integer` ties this
to the number it denotes, so a literal in range has its value and one out of range is refused, and
`magnitude_of_float` says that no other literal is mistaken for an integer.
-/

namespace MessageSelector

open Token (IsExponent IsMantissa IsWhole IsFloat IsInteger hex_digit_of_digit suffix_of_hex_digit)

variable {text : List Char} {literal : String}

/-! ## Unsigned numbers -/

/-- Digits are read as the number they denote, if it has 64 bits. -/
theorem read_unsigned_of_digits {isDigit : Char → Bool} (hplus : isDigit '+' = false)
    (hne : text ≠ []) (hdigits : text.all isDigit = true) (base : Nat) :
    readUnsigned? isDigit base text =
      if Integer.ofDigits base text < 2 ^ 64 then some (Integer.ofDigits base text) else none := by
  unfold readUnsigned?
  split
  · rw [List.all_cons, hplus] at hdigits
    cases hdigits
  · simp [hne, hdigits]

/-- A text with something else in it than digits and pluses is no number. -/
theorem read_unsigned_eq_none {isDigit : Char → Bool} {c : Char} (hmem : c ∈ text)
    (hplus : c ≠ '+') (hdigit : isDigit c = false) (base : Nat) :
    readUnsigned? isDigit base text = none := by
  have hall {digits : List Char} (hmem : c ∈ digits) : digits.all isDigit = false := by
    rw [List.all_eq_false]
    exact ⟨c, hmem, by rw [hdigit]; exact Bool.false_ne_true⟩
  unfold readUnsigned?
  split
  · simp [hall ((List.mem_cons.mp hmem).resolve_left hplus)]
  · simp [hall hmem]

/-- Only suffixes are taken off the end of a literal. -/
theorem trim_suffix {part suffix : List Char} {isSuffix : Char → Bool}
    (hpart : ∀ c ∈ part, isSuffix c = false) (hsuffix : ∀ c ∈ suffix, isSuffix c = true) :
    ((part ++ suffix).reverse.dropWhile isSuffix).reverse = part := by
  rw [List.reverse_append, List.dropWhile_append_of_pos (by simpa using hsuffix)]
  cases hreverse : part.reverse with
  | nil =>
      rw [List.reverse_eq_nil_iff.mp hreverse]
      rfl
  | cons c others =>
      have hmem : c ∈ part := by
        rw [← List.mem_reverse, hreverse]
        exact List.mem_cons_self
      rw [List.dropWhile_cons_of_neg (by rw [hpart c hmem]; exact Bool.false_ne_true), ← hreverse,
        List.reverse_reverse]

/-! ## Integers -/

/-- A run of digits has no suffix in it. -/
theorem suffix_of_whole (h : IsWhole text) : ∀ c ∈ text, Token.isIntegerSuffix c = false := by
  cases h with
  | decimal _ hdigits =>
      exact fun c hmem =>
        suffix_of_hex_digit (hex_digit_of_digit (List.all_eq_true.mp hdigits c hmem))
  | hexadecimal hx hdigit hdigits =>
      refine List.forall_mem_cons.mpr ⟨rfl, List.forall_mem_cons.mpr ⟨?_, List.forall_mem_cons.mpr
        ⟨suffix_of_hex_digit hdigit, fun c hmem =>
          suffix_of_hex_digit (List.all_eq_true.mp hdigits c hmem)⟩⟩⟩
      rcases hx with rfl | rfl <;> rfl

/-- An integer literal is read as the number it denotes, if that has 64 bits. -/
theorem magnitude_of_integer (h : IsInteger literal.toList) :
    magnitude? literal =
      if Token.integerValue literal < 2 ^ 64 then some (Token.integerValue literal) else none := by
  obtain ⟨part, suffix, hsplit, hpart, hsuffix⟩ := h
  have hnone := suffix_of_whole hpart
  have hall : ∀ c ∈ suffix, Token.isIntegerSuffix c = true := by
    rcases hsuffix with rfl | ⟨c, rfl, hc⟩
    · exact nofun
    · exact List.forall_mem_singleton.mpr hc
  have hfilter : (part ++ suffix).filter (!Token.isIntegerSuffix ·) = part := by
    rw [List.filter_append, List.filter_eq_self.mpr, List.filter_eq_nil_iff.mpr, List.append_nil]
    · exact fun c hc => by simp [hall c hc]
    · exact fun c hc => by simp [hnone c hc]
  have htrim := trim_suffix hnone hall
  rw [← hsplit] at hfilter htrim
  cases hpart with
  | decimal hne hdigits =>
      -- The second character is a digit, so it marks no base.
      have hbase (x : Char) (digits : List Char) (hx : x.isDigit = false) :
          part ≠ '0' :: x :: digits := by
        rintro rfl
        simp [hx] at hdigits
      have hmagnitude : magnitude? literal = readUnsigned? Char.isDigit 10 part := by
        unfold magnitude?
        rw [htrim]
        split
        · exact absurd rfl (hbase 'x' _ rfl)
        · exact absurd rfl (hbase 'X' _ rfl)
        · rfl
      have hvalue : Token.integerValue literal = Integer.ofDigits 10 part := by
        unfold Token.integerValue
        rw [hfilter]
        split
        · exact absurd rfl (hbase 'x' _ rfl)
        · exact absurd rfl (hbase 'X' _ rfl)
        · rfl
      rw [hmagnitude, hvalue]
      exact read_unsigned_of_digits rfl hne hdigits 10
  | @hexadecimal x digit digits hx hdigit hdigits =>
      have hmagnitude : magnitude? literal =
          readUnsigned? Integer.isHexDigit 16 (digit :: digits) := by
        unfold magnitude?
        rw [htrim]
        rcases hx with rfl | rfl <;> rfl
      have hvalue : Token.integerValue literal = Integer.ofDigits 16 (digit :: digits) := by
        unfold Token.integerValue
        rw [hfilter]
        rcases hx with rfl | rfl <;> rfl
      rw [hmagnitude, hvalue]
      refine read_unsigned_of_digits rfl (List.cons_ne_nil _ _) ?_ 16
      rw [List.all_cons, hdigit, hdigits]
      rfl

/-- An integer literal is made the number it denotes, or refused out of range. -/
theorem Building.integer_eq {pair : Pair} (hsource : pair.source text = literal)
    (h : IsInteger literal.toList) :
    Building.integer text pair =
      (Phrase.integerMeaning pair.span literal (Token.integerValue literal)).mapError .fault := by
  have hnarrow : ((magnitude? literal).bind fun value => Integer.narrow value) =
      Integer.narrow (Token.integerValue literal) := by
    rw [magnitude_of_integer h]
    by_cases hfits : Token.integerValue literal < 2 ^ 64
    · rw [if_pos hfits, Option.bind_some]
    · rw [if_neg hfits, Option.bind_none, eq_comm, Integer.narrow_eq_none_iff]
      omega
  rw [Building.integer, Phrase.integerMeaning, hsource, hnarrow]
  generalize Integer.narrow (Token.integerValue literal) = outcome
  cases outcome with
  | none => rfl
  | some number => rfl

/-! ## Floating-point numbers -/

/-- A floating-point literal consists of digits, of its marks and of its suffix, and has a mark. -/
theorem chars_of_float (h : IsFloat text) :
    (∀ c ∈ text, c.isDigit = true ∨ c ∈ ['.', 'e', 'E', '+', '-', 'f', 'F', 'd', 'D']) ∧
      ∃ c ∈ text, c = '.' ∨ c = 'e' ∨ c = 'E' := by
  have hdigits {digits : List Char} (h : digits.all Char.isDigit = true) :
      ∀ c ∈ digits, c.isDigit = true ∨ c ∈ ['.', 'e', 'E', '+', '-', 'f', 'F', 'd', 'D'] :=
    fun c hc => .inl (List.all_eq_true.mp h c hc)
  have hexponent {exponent : List Char} (h : IsExponent exponent) :
      (∀ c ∈ exponent, c.isDigit = true ∨ c ∈ ['.', 'e', 'E', '+', '-', 'f', 'F', 'd', 'D']) ∧
        ∃ c ∈ exponent, c = '.' ∨ c = 'e' ∨ c = 'E' := by
    obtain ⟨hmark, hsign, -, hds⟩ := h
    refine ⟨List.forall_mem_cons.mpr ⟨?_, List.forall_mem_append.mpr ⟨?_, hdigits hds⟩⟩, _,
      List.mem_cons_self, .inr hmark⟩
    · rcases hmark with rfl | rfl <;> simp
    · rcases hsign with rfl | rfl | rfl <;> simp
  obtain ⟨part, suffix, rfl, hpart, hsuffix⟩ := h
  have hend :
      ∀ c ∈ suffix, c.isDigit = true ∨ c ∈ ['.', 'e', 'E', '+', '-', 'f', 'F', 'd', 'D'] := by
    rcases hsuffix with rfl | ⟨c, rfl, hc⟩
    · exact nofun
    · refine List.forall_mem_singleton.mpr (.inr ?_)
      simp only [Token.isFloatSuffix, Bool.or_eq_true, decide_eq_true_eq] at hc
      rcases hc with ((rfl | rfl) | rfl) | rfl <;> simp
  cases hpart with
  | pointed hwhole hfraction _ hexp =>
      refine ⟨List.forall_mem_append.mpr ⟨List.forall_mem_append.mpr ⟨hdigits hwhole,
        List.forall_mem_cons.mpr ⟨by simp, List.forall_mem_append.mpr ⟨hdigits hfraction, ?_⟩⟩⟩,
        hend⟩, '.', by simp, .inl rfl⟩
      rcases hexp with rfl | hexp
      · exact nofun
      · exact (hexponent hexp).1
  | scientific hwhole _ hexp =>
      obtain ⟨hchars, c, hmem, hc⟩ := hexponent hexp
      exact ⟨List.forall_mem_append.mpr ⟨List.forall_mem_append.mpr ⟨hdigits hwhole, hchars⟩, hend⟩,
        c, by simp [hmem], hc⟩

/-- A floating-point literal is not read as an integer. -/
theorem magnitude_of_float (h : IsFloat literal.toList) : magnitude? literal = none := by
  obtain ⟨hchars, c, hmem, hmark⟩ := chars_of_float h
  have hnot {c : Char} (hmem : c ∈ literal.toList) :
      Token.isIntegerSuffix c = false ∧ c ≠ 'x' ∧ c ≠ 'X' := by
    rcases hchars c hmem with hdigit | hlist
    · refine ⟨suffix_of_hex_digit (hex_digit_of_digit hdigit), ?_, ?_⟩ <;> rintro rfl <;>
        cases hdigit
    · simp only [List.mem_cons, List.not_mem_nil, or_false] at hlist
      rcases hlist with rfl | rfl | rfl | rfl | rfl | rfl | rfl | rfl | rfl <;> decide
  have htrim : ((literal.toList ++ []).reverse.dropWhile Token.isIntegerSuffix).reverse =
      literal.toList := trim_suffix (fun c hc => (hnot hc).1) nofun
  rw [List.append_nil] at htrim
  unfold magnitude?
  rw [htrim]
  split
  · next heq => exact absurd rfl (hnot (c := 'x') (by simp [heq])).2.1
  · next heq => exact absurd rfl (hnot (c := 'X') (by simp [heq])).2.2
  · exact read_unsigned_eq_none hmem (by rcases hmark with rfl | rfl | rfl <;> decide)
      (by rcases hmark with rfl | rfl | rfl <;> rfl) 10

end MessageSelector
