import Mathlib
import MessageSelector.Decimal.Shortest

/-!
# The parts of a double

A double is its sign bit, its exponent field and its fraction, and `parts` reads them as a number
with a sign. Every fact here is settled by arithmetic on the bits. `parts_neg` and `eq_of_parts` are
what the rest of the development uses: a minus exchanges the sign, and two doubles with the same
parts are the same.
-/

namespace MessageSelector.Double

open Float.Model Float.Model.UnpackedFloat
open Float.Model.Format (binary64)

/-- The exponent field of a double stands between the sign and the fraction. -/
theorem unpack_exponent_to_nat (bits : BitVec binary64.numBits) :
    (unpackExponent bits).toNat = bits.toNat / 2 ^ 52 % 2 ^ 11 := by
  unfold unpackExponent
  simp [Nat.shiftRight_eq_div_pow]

/-- The fraction of a double is its last bits. -/
theorem unpack_mantissa_to_nat (bits : BitVec binary64.numBits) :
    (unpackMantissa bits).toNat = bits.toNat % 2 ^ 52 := by
  unfold unpackMantissa
  simp

/-- The sign of a double is its first bit. -/
theorem unpack_sign_to_nat (bits : BitVec binary64.numBits) :
    (unpackSign bits).toNat = bits.toNat / 2 ^ 63 := by
  have h := bits.isLt
  unfold unpackSign
  simp [Nat.shiftRight_eq_div_pow]
  simp [Format.numBits] at h
  omega

/-- The three fields of a double side by side. -/
theorem pack_components_to_nat (sign : UnpackedFloat.Sign) (field : BitVec binary64.exponentBits)
    (fraction : BitVec binary64.mantissaBitsWithoutImplicit) :
    (packComponents binary64 sign field fraction).toNat =
      sign.toBitVec.toNat * 2 ^ 63 + field.toNat * 2 ^ 52 + fraction.toNat := by
  have hfield := field.isLt
  have hfraction := fraction.isLt
  unfold packComponents
  rw [BitVec.toNat_append, BitVec.toNat_append, ← Nat.shiftLeft_add_eq_or_of_lt fraction.isLt,
    ← Nat.shiftLeft_add_eq_or_of_lt field.isLt]
  simp [Nat.shiftLeft_eq]
  omega

/-- The sign that bits begin with. -/
def signOf (bits : Nat) : UnpackedFloat.Sign :=
  if bits < 2 ^ 63 then .positive else .negative

/-- The sign of a double is that of its bits. -/
theorem unpack_sign_eq (bits : BitVec binary64.numBits) :
    UnpackedFloat.Sign.ofBitVec (unpackSign bits) = signOf bits.toNat := by
  have hbits := bits.isLt
  have hsign := unpack_sign_to_nat bits
  simp only [Format.numBits] at hbits
  unfold UnpackedFloat.Sign.ofBitVec signOf
  by_cases h : bits.toNat < 2 ^ 63
  · rw [if_pos h, if_pos]
    apply BitVec.eq_of_toNat_eq
    rw [hsign]
    simp
    omega
  · rw [if_neg h, if_neg]
    intro heq
    rw [heq] at hsign
    simp at hsign
    omega

/-- The number that bits stand for, told by their exponent field. -/
def ofBits (bits : Nat) : UnpackedFloat :=
  if bits / 2 ^ 52 % 2 ^ 11 = 2047 then
    if bits % 2 ^ 52 = 0 then .infinity (signOf bits) else .notANumber
  else if bits / 2 ^ 52 % 2 ^ 11 = 0 then
    if h : bits % 2 ^ 52 = 0 then .zero (signOf bits)
    else .finite (signOf bits) (bits % 2 ^ 52) (-1074) (Nat.pos_of_ne_zero h)
  else
    .finite (signOf bits) (2 ^ 52 + bits % 2 ^ 52) ((bits / 2 ^ 52 % 2 ^ 11 : Nat) - 1075)
      (by omega)

/-- Unpacking reads the bits as a number. -/
theorem unpack_eq (bits : BitVec binary64.numBits) :
    UnpackedFloat.unpack binary64 bits = ofBits bits.toNat := by
  have hfield := unpack_exponent_to_nat bits
  have hfraction := unpack_mantissa_to_nat bits
  unfold UnpackedFloat.unpack ofBits
  simp only [unpack_sign_eq, ← BitVec.toNat_inj, hfield, hfraction]
  simp
  split
  · rfl
  · split
    · split
      · rfl
      · next hfield _ =>
          congr 1
          simp [Format.exponentBias]
          omega
    · congr 1
      · rw [BitVec.toNat_append, ← Nat.shiftLeft_add_eq_or_of_lt (BitVec.isLt _), hfraction]
        simp [Nat.shiftLeft_eq]

/-- The parts of a finite double: a mantissa of 53 bits, the first of them set unless the exponent
is the least there is. -/
structure Canonical (mantissa : Nat) (exponent : Int) : Prop where
  mantissa_lt : mantissa < 2 ^ 53
  normal : 2 ^ 52 ≤ mantissa ∨ exponent = -1074
  exponent_ge : -1074 ≤ exponent
  exponent_le : exponent ≤ 971

/-- The bit of a sign. -/
def signBit : UnpackedFloat.Sign → Nat
  | .positive => 0
  | .negative => 1

/-- The bits of a double given by its parts. -/
theorem pack_finite_to_nat {sign : UnpackedFloat.Sign} {mantissa : Nat} {exponent : Int}
    (hpos : 0 < mantissa) (h : Canonical mantissa exponent) :
    (UnpackedFloat.pack binary64 (.finite sign mantissa exponent hpos)).toNat =
      signBit sign * 2 ^ 63 + (exponent + 1074).toNat * 2 ^ 52 + mantissa := by
  obtain ⟨hlt, hnormal, hge, hle⟩ := h
  have hsign : sign.toBitVec.toNat = signBit sign := by cases sign <;> rfl
  have hbias : (exponent + (binary64.exponentBias : Int) + (52 : Nat)).toNat =
      (exponent + 1075).toNat := by
    simp [Format.exponentBias]
    omega
  unfold UnpackedFloat.pack
  dsimp only
  rw [hbias, if_neg (by simp; omega)]
  -- The digit that is left out of a normal fraction is one more in the exponent field.
  split
  · next hlog =>
      have hbig : 2 ^ 52 ≤ mantissa :=
        (Nat.le_log2 (Nat.ne_of_gt hpos)).mp (by simp [Format.mantissaBits] at hlog; omega)
      rw [pack_components_to_nat, hsign, BitVec.toNat_ofNat, BitVec.toNat_ofNat]
      simp
      omega
  · next hlog =>
      have hsmall : mantissa < 2 ^ 52 := by
        refine Nat.lt_of_not_le fun hbig => hlog ?_
        have hge := (Nat.le_log2 (Nat.ne_of_gt hpos)).mpr hbig
        have hlt := (Nat.log2_lt (Nat.ne_of_gt hpos)).mpr hlt
        simp [Format.mantissaBits]
        omega
      rw [pack_components_to_nat, hsign, BitVec.toNat_ofNat]
      simp
      omega

/-- Parts that were packed are unpacked again. -/
theorem unpack_pack_finite {sign : UnpackedFloat.Sign} {mantissa : Nat} {exponent : Int}
    (hpos : 0 < mantissa) (h : Canonical mantissa exponent) :
    UnpackedFloat.unpack binary64
        (UnpackedFloat.pack binary64 (.finite sign mantissa exponent hpos)) =
      .finite sign mantissa exponent hpos := by
  rw [unpack_eq, pack_finite_to_nat hpos h]
  obtain ⟨hlt, hnormal, hge, hle⟩ := h
  have hbit : signBit sign ≤ 1 := by cases sign <;> decide
  have hsign : signOf (signBit sign * 2 ^ 63 + (exponent + 1074).toNat * 2 ^ 52 + mantissa) =
      sign := by
    unfold signOf
    cases sign
    · rw [if_neg (by simp [signBit]; omega)]
    · rw [if_pos (by simp [signBit]; omega)]
  unfold ofBits
  rw [if_neg (by omega), hsign]
  split
  · rw [dif_neg (by omega)]
    congr 1 <;> omega
  · congr 1 <;> omega

/-- A double is packed from its parts. -/
theorem pack_unpack (x : Float.Model) : Float.Model.pack x.unpack = x := by
  obtain ⟨bits, hvalid⟩ := x
  unfold Float.Model.pack Float.Model.unpack
  simp only [pack_unpack_of_valid hvalid]

/-- The mantissa and exponent that bits stand for are canonical. -/
theorem canonical_of_bits {bits : Nat} {sign : UnpackedFloat.Sign} {mantissa : Nat} {exponent : Int}
    {hpos : 0 < mantissa} (h : ofBits bits = .finite sign mantissa exponent hpos) :
    Canonical mantissa exponent := by
  unfold ofBits at h
  split at h
  · split at h <;> cases h
  · split at h
    · split at h
      · cases h
      · cases h
        constructor <;> omega
    · cases h
      constructor <;> omega

/-- The parts of a number in terms of the fields of its bits. -/
theorem fields_of_bits {bits : Nat} {sign : UnpackedFloat.Sign} {mantissa : Nat} {exponent : Int}
    {hpos : 0 < mantissa} (h : ofBits bits = .finite sign mantissa exponent hpos) :
    sign = signOf bits ∧
      (mantissa, exponent) =
        if bits / 2 ^ 52 % 2 ^ 11 = 0 then (bits % 2 ^ 52, -1074)
        else (2 ^ 52 + bits % 2 ^ 52, ((bits / 2 ^ 52 % 2 ^ 11 : Nat) : Int) - 1075) := by
  unfold ofBits at h
  split at h
  · split at h <;> cases h
  · split at h
    · next hfield =>
        rw [if_pos hfield]
        split at h
        · cases h
        · cases h
          exact ⟨rfl, rfl⟩
    · next hfield =>
        rw [if_neg hfield]
        cases h
        exact ⟨rfl, rfl⟩

/-- The sign of a zero in terms of its bits. -/
theorem sign_of_zero_bits {bits : Nat} {sign : UnpackedFloat.Sign} (h : ofBits bits = .zero sign) :
    sign = signOf bits := by
  unfold ofBits at h
  split at h
  · split at h <;> cases h
  · split at h
    · split at h
      · cases h
        rfl
      · cases h
    · cases h

/-- What bits stand for, under the other sign, is what its own bits stand for. -/
theorem unpack_pack_neg (bits : Nat) :
    UnpackedFloat.unpack binary64 (UnpackedFloat.pack binary64 (ofBits bits).neg) =
      (ofBits bits).neg := by
  cases hparts : ofBits bits with
  | notANumber => rfl
  | infinity sign => cases sign <;> rfl
  | zero sign => cases sign <;> rfl
  | finite sign mantissa exponent hpos => exact unpack_pack_finite hpos (canonical_of_bits hparts)

/-- The parts of a double. -/
def parts (x : Float) : UnpackedFloat :=
  x.toModel.unpack

/-- The parts of a double are what its bits stand for. -/
theorem parts_eq (x : Float) : parts x = ofBits x.toBits.toNat :=
  unpack_eq _

/-- The parts of zero. -/
theorem parts_zero : parts 0 = .zero .positive := by
  have hbits : (0 : Float).toBits.toNat = 0 := by decide
  rw [parts_eq, hbits]
  rfl

/-- A minus in front of a double exchanges its sign. -/
theorem parts_neg (x : Float) : parts (-x) = (parts x).neg := by
  have h := unpack_pack_neg x.toBits.toNat
  rw [← parts_eq] at h
  exact h

/-- The other sign keeps a double finite. -/
theorem is_finite_neg (x : Float) : (-x).isFinite = x.isFinite := by
  change (parts (-x)).isFinite = (parts x).isFinite
  rw [parts_neg]
  cases parts x <;> rfl

/-- A double is settled by its parts. -/
theorem eq_of_parts {x y : Float} (h : parts x = parts y) : x = y := by
  have hmodel : x.toModel = y.toModel := by
    rw [← pack_unpack x.toModel, ← pack_unpack y.toModel]
    exact congrArg Float.Model.pack h
  cases x
  cases y
  exact congrArg Float.ofModel hmodel

/-- Two minuses in front of a double cancel out. -/
theorem neg_neg (x : Float) : -(-x) = x := by
  refine eq_of_parts ?_
  rw [parts_neg, parts_neg]
  cases parts x with
  | notANumber => rfl
  | infinity sign | zero sign | finite sign => cases sign <;> rfl

end MessageSelector.Double
