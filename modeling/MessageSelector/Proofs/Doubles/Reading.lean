import MessageSelector.Proofs.Doubles.Search
import MessageSelector.Proofs.Layouts

/-!
# Doubles are read back from their text

The text of a finite double is a numeral for its magnitude, after a minus where it has a sign. The
shortest decimal rounds to the magnitude, and the zeros that a layout adds change no decimal, so
reading the numeral gives the magnitude back. No literal without a minus has a sign.
-/

namespace MessageSelector

/-- A finer unit makes no other number. -/
theorem Decimal.value_finer (x : Decimal) (power : Nat) : (x.finer power).value = x.value := by
  unfold Decimal.value Decimal.finer
  rw [zpow_sub₀ (by norm_num), zpow_natCast]
  push_cast
  field_simp

namespace Double

open Float.Model Float.Model.UnpackedFloat
open Float.Model.Format (binary64)

/-- A double without its sign. -/
def magnitude (x : Float) : Float :=
  if 2 ^ 63 ≤ x.toBits.toNat then -x else x

/-- A finite double is zero or a number with a sign. -/
theorem parts_of_finite {x : Float} (h : x.isFinite = true) :
    (∃ sign, parts x = .zero sign) ∨
      ∃ sign mantissa exponent, ∃ hpos, parts x = .finite sign mantissa exponent hpos := by
  change (parts x).isFinite = true at h
  cases hparts : parts x with
  | notANumber | infinity =>
      rw [hparts] at h
      cases h
  | zero sign => exact .inl ⟨sign, rfl⟩
  | finite sign mantissa exponent hpos => exact .inr ⟨sign, mantissa, exponent, hpos, rfl⟩

/-- A finite double is neither the undefined number nor infinite. -/
theorem ordinary_of_finite {x : Float} (h : x.isFinite = true) :
    x.isNaN = false ∧ x.isInf = false := by
  change (parts x).isNaN = false ∧ (parts x).isInf = false
  obtain ⟨sign, hparts⟩ | ⟨sign, mantissa, exponent, hpos, hparts⟩ := parts_of_finite h
  · rw [hparts]
    exact ⟨rfl, rfl⟩
  · rw [hparts]
    exact ⟨rfl, rfl⟩

/-- A double equals zero where it is one of the two zeros. -/
theorem beq_zero_iff {x : Float} (h : x.isFinite = true) :
    (x == 0) = true ↔ ∃ sign, parts x = .zero sign := by
  change (parts x).beq (parts 0) = true ↔ _
  rw [parts_zero]
  obtain ⟨sign, hparts⟩ | ⟨sign, mantissa, exponent, hpos, hparts⟩ := parts_of_finite h
  · rw [hparts]
    exact ⟨fun _ => ⟨sign, rfl⟩, fun _ => rfl⟩
  · rw [hparts]
    cases sign <;> exact ⟨nofun, nofun⟩

/-- The magnitude has the parts of the double, with the sign taken off. -/
theorem parts_magnitude_eq (x : Float) :
    parts (magnitude x) = match signOf x.toBits.toNat with
      | .positive => parts x
      | .negative => (parts x).neg := by
  unfold magnitude
  split
  · next hneg =>
      rw [signOf, if_neg (Nat.not_lt.mpr hneg)]
      exact parts_neg x
  · next hnonneg => rw [signOf, if_pos (Nat.lt_of_not_le hnonneg)]

/-- The magnitude of a number is the number with a positive sign. -/
theorem parts_magnitude {x : Float} {sign : UnpackedFloat.Sign} {mantissa : Nat} {exponent : Int}
    {hpos : 0 < mantissa} (h : parts x = .finite sign mantissa exponent hpos) :
    parts (magnitude x) = .finite .positive mantissa exponent hpos := by
  obtain ⟨hsign, -⟩ := fields_of_bits (parts_eq x ▸ h)
  rw [parts_magnitude_eq, ← hsign, h]
  cases sign <;> rfl

/-- The magnitude of either zero is zero. -/
theorem magnitude_of_zero {x : Float} {sign : UnpackedFloat.Sign} (h : parts x = .zero sign) :
    magnitude x = 0 := by
  have hsign := sign_of_zero_bits (parts_eq x ▸ h)
  refine eq_of_parts ?_
  rw [parts_zero, parts_magnitude_eq, ← hsign, h]
  cases sign <;> rfl

/-- The binary number that the search starts from has the parts of the double. -/
theorem of_float_eq {x : Float} {sign : UnpackedFloat.Sign} {mantissa : Nat} {exponent : Int}
    {hpos : 0 < mantissa}
    (h : parts x = .finite sign mantissa exponent hpos) :
    Decimal.Binary.ofFloat x = ⟨mantissa, exponent⟩ := by
  obtain ⟨-, hfields⟩ := fields_of_bits (parts_eq x ▸ h)
  have hbits : x.toBits.toNat < 2 ^ 64 := x.toBits.toNat_lt
  have hfield : x.toBits.toNat % 2 ^ 63 / 2 ^ 52 = x.toBits.toNat / 2 ^ 52 % 2 ^ 11 := by omega
  have hfraction : x.toBits.toNat % 2 ^ 63 % 2 ^ 52 = x.toBits.toNat % 2 ^ 52 := by omega
  unfold Decimal.Binary.ofFloat
  simp only [Nat.pow_eq, hfield, hfraction]
  split
  · next hzero =>
      rw [if_pos hzero] at hfields
      cases hfields
      rfl
  · next hnonzero =>
      rw [if_neg hnonzero] at hfields
      cases hfields
      rw [Nat.add_comm]

/-- The shortest decimal of a double rounds to it, in any finer unit. -/
theorem to_float_shortest {x : Float} {sign : UnpackedFloat.Sign} {mantissa : Nat} {exponent : Int}
    {hpos : 0 < mantissa} (h : parts x = .finite sign mantissa exponent hpos) (tie : Decimal.Tie)
    (power : Nat) : ((Decimal.shortest tie (.ofFloat x)).finer power).toFloat = magnitude x := by
  have hcanonical : Canonical mantissa exponent := canonical_of_bits (parts_eq x ▸ h)
  refine eq_of_parts ?_
  rw [parts_magnitude h, of_float_eq h]
  refine parts_to_float hpos hcanonical ?_
  rw [Decimal.value_finer]
  exact shortest_rounds tie hpos hcanonical

end Double

namespace Value

/-- The text of a finite double without its sign. -/
def floatDigits (x : Float) : String :=
  if x == 0 then "0.0" else floatLayout.writeDecimal (Decimal.shortest floatLayout.tie (.ofFloat x))

/-- The text of a finite double without its sign is a numeral for its magnitude. -/
theorem float_digits_numeral {x : Float} (h : x.isFinite = true) :
    ∃ numeral : Numeral, (floatDigits x).toList = numeral.text ∧
      numeral.decimal.toFloat = Double.magnitude x := by
  unfold floatDigits
  split
  · next hzero =>
      obtain ⟨sign, hparts⟩ := (Double.beq_zero_iff h).mp hzero
      rw [Double.magnitude_of_zero hparts]
      exact ⟨⟨['0'], ['0'], none, by simp, rfl, rfl, nofun, nofun⟩, rfl, rfl⟩
  · next hnonzero =>
      obtain ⟨sign, hparts⟩ | ⟨sign, mantissa, exponent, hpos, hparts⟩ := Double.parts_of_finite h
      · exact absurd ((Double.beq_zero_iff h).mpr ⟨sign, hparts⟩) hnonzero
      · obtain ⟨numeral, power, htext, hdecimal⟩ :=
          Decimal.write_decimal_numeral (Decimal.shortest floatLayout.tie (.ofFloat x))
        refine ⟨numeral, htext, ?_⟩
        rw [hdecimal]
        exact Double.to_float_shortest hparts floatLayout.tie power

/-- A finite double is written as its digits, after a minus if it has one. -/
theorem float_text {x : Float} (h : x.isFinite = true) :
    (Value.float x).text = (if 2 ^ 63 ≤ x.toBits.toNat then "-" else "") ++ floatDigits x := by
  obtain ⟨hnan, hinf⟩ := Double.ordinary_of_finite h
  have hsign : (if x.toBits.toNat < Nat.pow 2 63 then "" else "-") =
      if 2 ^ 63 ≤ x.toBits.toNat then "-" else "" := by
    rw [Nat.pow_eq]
    by_cases hneg : 2 ^ 63 ≤ x.toBits.toNat
    · rw [if_pos hneg, if_neg (Nat.not_lt.mpr hneg)]
    · rw [if_neg hneg, if_pos (Nat.lt_of_not_le hneg)]
  change floatLayout.write x = _
  unfold Decimal.Layout.write floatDigits
  rw [hnan, hinf, hsign]
  rfl

/-- The text of a finite double without its sign is a literal for its magnitude. -/
theorem float_value_digits {x : Float} (h : x.isFinite = true) :
    Token.floatValue? (floatDigits x) = some (Double.magnitude x) := by
  obtain ⟨numeral, hdigits, hvalue⟩ := float_digits_numeral h
  have hfinite : (Double.magnitude x).isFinite = true := by
    unfold Double.magnitude
    split
    · rwa [Double.is_finite_neg]
    · exact h
  rw [← String.ofList_toList (s := floatDigits x), hdigits, ← hvalue]
  exact numeral.float_value_text (hvalue ▸ hfinite)

/-- A floating-point literal has no sign. -/
theorem float_value_nonnegative {text : String} {number : Float}
    (h : Token.floatValue? text = some number) : number.toBits.toNat < 2 ^ 63 := by
  unfold Token.floatValue? at h
  simp only [Option.bind_eq_bind, Option.bind_eq_some_iff] at h
  obtain ⟨decimal, -, h⟩ := h
  split at h
  · cases h
    exact Double.to_float_bits_lt decimal
  · cases h

end Value

end MessageSelector
