import Mathlib.Algebra.Group.Nat.Defs
import MessageSelector.Proofs.Numerals
import MessageSelector.Value

/-!
# Numbers as the canonical text has them

An integer is written in digits that denote it. A floating-point number is written as a numeral
whose decimal is the one that was laid out, if with more zeros.
-/

namespace MessageSelector

/-! ## Digits -/

namespace Integer

/-- The value of digits as the library of numbers has it. -/
theorem of_digits_eq {ds : List Char} (h : ds.all Char.isDigit = true) :
    ofDigits 10 ds = Nat.ofDigitChars 10 ds 0 := by
  have hfrom (start : Nat) : ds.foldl (fun value c => value * 10 + digitValue c) start =
      Nat.ofDigitChars 10 ds start := by
    induction ds generalizing start with
    | nil => rfl
    | cons d ds ih =>
        rw [List.all_cons, Bool.and_eq_true] at h
        have hd : digitValue d = d.toNat - '0'.toNat := if_pos h.1
        rw [List.foldl_cons, ih h.2, hd, Nat.ofDigitChars_cons, Nat.mul_comm]
  exact hfrom 0

/-- The digits of a number are digits. -/
theorem to_digits_all (n : Nat) : (Nat.toDigits 10 n).all Char.isDigit = true :=
  List.all_eq_true.mpr fun _ hc => Nat.isDigit_of_mem_toDigits (by decide) (by decide) hc

/-- The digits of a number denote it. -/
theorem of_digits_to_digits (n : Nat) : ofDigits 10 (Nat.toDigits 10 n) = n := by
  rw [of_digits_eq (to_digits_all n), Nat.ofDigitChars_ten_toDigits]

/-- Zeros are digits. -/
theorem zeros_all (count : Nat) : (List.replicate count '0').all Char.isDigit = true := by
  rw [List.all_replicate]
  simp

/-- Zeros in front of digits denote nothing. -/
theorem of_digits_zeros_append (count n : Nat) :
    ofDigits 10 (List.replicate count '0' ++ Nat.toDigits 10 n) = n := by
  rw [of_digits_eq (by rw [List.all_append, zeros_all, to_digits_all]; rfl),
    Nat.ofDigitChars_append, Nat.ofDigitChars_replicate_zero, Nat.mul_zero,
    Nat.ofDigitChars_ten_toDigits]

/-- Each zero after digits makes them denote ten times as much. -/
theorem of_digits_append_zeros (n count : Nat) :
    ofDigits 10 (Nat.toDigits 10 n ++ List.replicate count '0') = n * 10 ^ count := by
  rw [of_digits_eq (by rw [List.all_append, zeros_all, to_digits_all]; rfl),
    Nat.ofDigitChars_append, Nat.ofDigitChars_ten_toDigits, Nat.ofDigitChars_replicate_zero,
    Nat.mul_comm]

end Integer

namespace Token

/-- Digits denote the integer that they are the digits of. -/
theorem integer_value_to_digits (n : Nat) :
    integerValue (String.ofList (Nat.toDigits 10 n)) = n := by
  have hdigits := Integer.to_digits_all n
  have hfilter : (Nat.toDigits 10 n).filter (!isIntegerSuffix ·) = Nat.toDigits 10 n := by
    rw [List.filter_eq_self]
    intro c hc
    rw [(Numeral.suffix_of_digits hdigits c hc).2]
    rfl
  unfold integerValue
  rw [String.toList_ofList, hfilter]
  split
  · next heq =>
      rw [heq] at hdigits
      simp at hdigits
  · next heq =>
      rw [heq] at hdigits
      simp at hdigits
  · exact Integer.of_digits_to_digits n

end Token

/-! ## Floating-point numbers -/

namespace Decimal

/-- The same number in a unit that is finer by a power of ten. -/
def finer (x : Decimal) (power : Nat) : Decimal :=
  ⟨x.digits * 10 ^ power, x.exponent - power⟩

/-- Digits on both sides of a point are a numeral. -/
theorem plain_numeral {whole fraction : List Char} (hwhole : whole ≠ [])
    (hwholeDigits : whole.all Char.isDigit = true) (hfraction : fraction ≠ [])
    (hfractionDigits : fraction.all Char.isDigit = true) :
    ∃ numeral : Numeral, numeral.text = whole ++ '.' :: fraction ∧
      numeral.decimal = ⟨Integer.ofDigits 10 (whole ++ fraction), -fraction.length⟩ := by
  refine ⟨⟨whole, fraction, none, hwhole, hwholeDigits, hfractionDigits, nofun,
    fun h => absurd h hfraction⟩, ?_, ?_⟩
  · obtain ⟨d, ds, rfl⟩ := List.exists_cons_of_ne_nil hfraction
    simp [Numeral.text, Numeral.pointText, Numeral.exponentText]
  · simp [Numeral.decimal, Numeral.exponentValue]

/-- Digits with a point among or beside them are a numeral. -/
theorem positional_numeral {x : Decimal} {digits : String}
    (hdigits : digits.toList = Nat.toDigits 10 x.digits) :
    ∃ numeral : Numeral, ∃ power,
      (positional digits (digits.length + x.exponent)).toList = numeral.text ∧
        numeral.decimal = x.finer power := by
  have hall : digits.toList.all Char.isDigit = true := by
    rw [hdigits]
    exact Integer.to_digits_all x.digits
  have hlength : 0 < digits.toList.length := by
    rw [hdigits]
    exact Nat.length_toDigits_pos
  have hsize : digits.length = (Nat.toDigits 10 x.digits).length := by
    rw [← String.length_toList, hdigits]
  have hne : digits.toList ≠ [] := List.ne_nil_of_length_pos hlength
  unfold positional
  split
  · next hplaces =>
      have hzeros (count : Nat) :
          (List.replicate count '0' ++ digits.toList).all Char.isDigit = true := by
        rw [List.all_append, Integer.zeros_all, hall]
        rfl
      obtain ⟨numeral, hnumeral, hdecimal⟩ := plain_numeral (show ['0'] ≠ [] by simp) rfl
        (List.append_ne_nil_of_right_ne_nil _ hne) (hzeros (-(digits.length + x.exponent)).toNat)
      refine ⟨numeral, 0, by simp [hnumeral, zeros], ?_⟩
      rw [hdecimal, ← List.append_assoc, ← List.replicate_one, List.replicate_append_replicate,
        hdigits, Integer.of_digits_zeros_append]
      simp [finer]
      omega
  · split
    · next hplaces hpadded =>
      have hzeros (count : Nat) :
          (digits.toList ++ List.replicate count '0').all Char.isDigit = true := by
        rw [List.all_append, Integer.zeros_all, hall]
        rfl
      obtain ⟨numeral, hnumeral, hdecimal⟩ := plain_numeral
        (List.append_ne_nil_of_left_ne_nil hne _)
        (hzeros ((digits.length + x.exponent).toNat - digits.length)) (show ['0'] ≠ [] by simp) rfl
      refine ⟨numeral, (digits.length + x.exponent).toNat - digits.length + 1,
        by simp [hnumeral, zeros], ?_⟩
      rw [hdecimal, List.append_assoc, ← List.replicate_one, List.replicate_append_replicate,
        hdigits, Integer.of_digits_append_zeros]
      simp [finer]
      omega
    · next hplaces hpadded =>
      obtain ⟨count, hcount⟩ := Int.eq_ofNat_of_zero_le (Int.le_of_lt (Int.not_le.mp hplaces))
      rw [hcount] at hplaces hpadded ⊢
      have htake : (digits.toList.take count).all Char.isDigit = true :=
        List.all_eq_true.mpr fun c hc => List.all_eq_true.mp hall c (List.mem_of_mem_take hc)
      have hdrop : (digits.toList.drop count).all Char.isDigit = true :=
        List.all_eq_true.mpr fun c hc => List.all_eq_true.mp hall c (List.mem_of_mem_drop hc)
      obtain ⟨numeral, hnumeral, hdecimal⟩ := plain_numeral
        (show digits.toList.take count ≠ [] by simp [hne]; omega) htake
        (show digits.toList.drop count ≠ [] by simp [hdigits]; omega) hdrop
      refine ⟨numeral, 0, by simp [hnumeral, List.splitAt_eq], ?_⟩
      rw [hdecimal, List.take_append_drop, hdigits, Integer.of_digits_to_digits]
      simp [finer]
      omega

/-- Digits with a point after the first of them, and an exponent, are a numeral. -/
theorem pointed_numeral {digits : String} (hne : digits.toList ≠ [])
    (hall : digits.toList.all Char.isDigit = true) (power : Int) :
    ∃ numeral : Numeral,
      (pointed digits ++ (if power < 0 then "e-" else "e") ++ toString power.natAbs).toList =
        numeral.text ∧
      numeral.decimal =
        ⟨Integer.ofDigits 10 digits.toList, power - (digits.toList.length - 1 : Nat)⟩ := by
  have hpower := Integer.to_digits_all power.natAbs
  obtain ⟨first, fraction, hparts⟩ := List.exists_cons_of_ne_nil hne
  rw [hparts, List.all_cons, Bool.and_eq_true] at hall
  refine ⟨⟨[first], fraction, some (decide (power < 0), Nat.toDigits 10 power.natAbs), by simp,
    by simp [hall.1], hall.2, ?_, nofun⟩, ?_, ?_⟩
  · rintro negative ds ⟨⟩
    exact ⟨Nat.toDigits_ne_nil, hpower⟩
  · unfold pointed
    rw [hparts]
    cases fraction <;> by_cases hsign : power < 0 <;>
      simp [Numeral.text, Numeral.pointText, Numeral.exponentText, hsign]
  · have hvalue : Numeral.exponentValue
        (some (decide (power < 0), Nat.toDigits 10 power.natAbs)) = power := by
      by_cases hsign : power < 0
      · rw [decide_eq_true hsign, Numeral.exponentValue, Integer.of_digits_to_digits]
        omega
      · rw [decide_eq_false hsign, Numeral.exponentValue, Integer.of_digits_to_digits]
        omega
    rw [hparts, Numeral.decimal, hvalue]
    rfl

/-- The text of a decimal number in the canonical layout is a numeral for that number. -/
theorem write_decimal_numeral (x : Decimal) :
    ∃ numeral : Numeral, ∃ power,
      (Value.floatLayout.writeDecimal x).toList = numeral.text ∧
        numeral.decimal = x.finer power := by
  have hdigits : (toString x.digits).toList = Nat.toDigits 10 x.digits := Nat.toList_repr
  unfold Layout.writeDecimal
  dsimp only
  split
  · rw [Int.sub_add_cancel]
    exact positional_numeral hdigits
  · obtain ⟨numeral, htext, hdecimal⟩ := pointed_numeral
      (by rw [hdigits]; exact Nat.toDigits_ne_nil)
      (by rw [hdigits]; exact Integer.to_digits_all _)
      ((toString x.digits).length + x.exponent - 1)
    have hlength : 0 < (toString x.digits).length := by
      rw [← String.length_toList, hdigits]
      exact Nat.length_toDigits_pos
    refine ⟨numeral, 0, htext, ?_⟩
    rw [hdecimal, String.length_toList, hdigits, Integer.of_digits_to_digits]
    simp only [finer, Nat.pow_zero, Nat.mul_one, mk.injEq, true_and]
    omega

end Decimal

end MessageSelector
