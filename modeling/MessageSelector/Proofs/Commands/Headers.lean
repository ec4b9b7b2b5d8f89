import MessageSelector.Command
import MessageSelector.Proofs.LastWrites
import MessageSelector.Proofs.Timestamps

/-!
# Headers as they are spelled

The texts that give headers to an evaluation, and the values that they spell. `read_header_iff` says
that the settings of an evaluation are read as these values.
-/

namespace MessageSelector

namespace DeliveryMode

/-- How the name of a delivery mode is spelled: in any ASCII case, with hyphens or low lines. -/
def Spelled (text name : String) : Prop :=
  text.toList.map (fun c => if c = '-' then '_' else c.toUpper) = name.toList

/-- No letter becomes a hyphen in the upper case. -/
theorem to_upper_eq_hyphen (c : Char) : c.toUpper = '-' ↔ c = '-' := by
  by_cases hascii : c.toNat < 128
  · have hall : ∀ n < 128, (Char.ofNat n).toUpper = '-' ↔ Char.ofNat n = '-' := by
      decide +kernel
    have hc := hall c.toNat hascii
    rwa [Char.ofNat_toNat] at hc
  · rw [Char.toUpper, dif_neg]
    exact fun h => hascii (Nat.lt_of_le_of_lt (UInt32.le_iff_toNat_le.mp h.2) (by decide))

/-- The name of a delivery mode is compared in one case, and without hyphens. -/
theorem spelled_iff {text name : String} :
    (text.toUpper.map fun c => if c = '-' then '_' else c) = name ↔ Spelled text name := by
  rw [Spelled, ← String.toList_inj, String.toList_map, String.toUpper, String.toList_map,
    List.map_map]
  simp only [Function.comp_def, to_upper_eq_hyphen]

/-- A delivery mode is read from the spellings of its name. -/
theorem of_text_iff {text : String} {mode : DeliveryMode} :
    (ofText? text).toOption = some mode ↔
      mode = .persistent ∧ Spelled text "PERSISTENT" ∨
        mode = .nonPersistent ∧ Spelled text "NON_PERSISTENT" := by
  rw [← spelled_iff, ← spelled_iff]
  unfold ofText?
  split
  · next h => simp [h, Except.toOption, eq_comm]
  · next h => simp [h, Except.toOption, eq_comm]
  · next hpersistent hother =>
      refine ⟨nofun, ?_⟩
      rintro (⟨-, h⟩ | ⟨-, h⟩)
      · exact (hpersistent h).elim
      · exact (hother h).elim

end DeliveryMode

/-- How the value of a header is spelled. A priority is an integer from zero to nine. -/
inductive Header.Spelled : Header → String → Value → Prop where
  | messageId (text) : Spelled .messageId text (.string text)
  | correlationId (text) : Spelled .correlationId text (.string text)
  | type (text) : Spelled .type text (.string text)
  | priority {text} {level : Int64} : Integer.Spelled text.toList level.toInt → 0 ≤ level.toInt →
      level.toInt ≤ 9 → Spelled .priority text (.integer level)
  | persistent {text} : DeliveryMode.Spelled text "PERSISTENT" →
      Spelled .deliveryMode text (.string "PERSISTENT")
  | nonPersistent {text} : DeliveryMode.Spelled text "NON_PERSISTENT" →
      Spelled .deliveryMode text (.string "NON_PERSISTENT")
  | timestamp {text} {millis : Int64} : Timestamp.Spelled text.toList millis.toInt →
      Spelled .timestamp text (.integer millis)

namespace Command

/-- The value of a header as its setting is read, if the text is in order. -/
def readHeader? : Header → String → Option Value
  | .messageId, text | .correlationId, text | .type, text => some (.string text)
  | .priority, text => (readPriority? text).map fun level => .integer (Int64.ofNat level.val)
  | .deliveryMode, text => (DeliveryMode.ofText? text).toOption.map fun mode => .string mode.text
  | .timestamp, text => (Timestamp.read? text).map .integer

/-- A word that is not negative is made of the natural number that it is. -/
theorem of_nat_to_nat {word : Int64} (h : 0 ≤ word.toInt) :
    Int64.ofNat word.toInt.toNat = word := by
  rw [← Int64.ofInt_eq_ofNat, Int.toNat_of_nonneg h, Int64.ofInt_toInt]

/-- Priorities are read from their spellings. -/
theorem read_priority_iff {text : String} {level : Int64} :
    (readPriority? text).map (fun level => Int64.ofNat level.val) = some level ↔
      Integer.Spelled text.toList level.toInt ∧ 0 ≤ level.toInt ∧ level.toInt ≤ 9 := by
  rw [Option.map_eq_some_iff]
  unfold readPriority?
  constructor
  · rintro ⟨digit, hread, rfl⟩
    obtain ⟨word, hword, hdigit⟩ := Option.bind_eq_some_iff.mp hread
    split at hdigit
    · next hrange =>
        cases hdigit
        rw [of_nat_to_nat hrange.1]
        exact ⟨Integer.read_word_iff.mp hword, hrange.1, by omega⟩
    · cases hdigit
  · rintro ⟨hspelled, hlow, hhigh⟩
    refine ⟨⟨level.toInt.toNat, by omega⟩, ?_, of_nat_to_nat hlow⟩
    rw [Integer.read_word_iff.mpr hspelled]
    exact dif_pos ⟨hlow, by omega⟩

/-- The texts of headers are read as the values that they spell. -/
theorem read_header_iff {header : Header} {text : String} {value : Value} :
    readHeader? header text = some value ↔ header.Spelled text value := by
  cases header with
  | messageId => exact ⟨by rintro ⟨⟩; exact .messageId text, by rintro ⟨⟩; rfl⟩
  | correlationId => exact ⟨by rintro ⟨⟩; exact .correlationId text, by rintro ⟨⟩; rfl⟩
  | type => exact ⟨by rintro ⟨⟩; exact .type text, by rintro ⟨⟩; rfl⟩
  | priority =>
      have hread : readHeader? .priority text =
          ((readPriority? text).map fun level => Int64.ofNat level.val).map .integer := by
        rw [Option.map_map]
        rfl
      rw [hread, Option.map_eq_some_iff]
      constructor
      · rintro ⟨level, hlevel, rfl⟩
        obtain ⟨hspelled, hlow, hhigh⟩ := read_priority_iff.mp hlevel
        exact .priority hspelled hlow hhigh
      · intro h
        cases h with
        | priority hspelled hlow hhigh =>
            exact ⟨_, read_priority_iff.mpr ⟨hspelled, hlow, hhigh⟩, rfl⟩
  | deliveryMode =>
      rw [readHeader?, Option.map_eq_some_iff]
      constructor
      · rintro ⟨mode, hread, rfl⟩
        rcases DeliveryMode.of_text_iff.mp hread with ⟨rfl, hspelled⟩ | ⟨rfl, hspelled⟩
        · exact .persistent hspelled
        · exact .nonPersistent hspelled
      · rintro ⟨⟩
        · next hspelled => exact ⟨_, DeliveryMode.of_text_iff.mpr (.inl ⟨rfl, hspelled⟩), rfl⟩
        · next hspelled => exact ⟨_, DeliveryMode.of_text_iff.mpr (.inr ⟨rfl, hspelled⟩), rfl⟩
  | timestamp =>
      rw [readHeader?, Option.map_eq_some_iff]
      constructor
      · rintro ⟨millis, hread, rfl⟩
        exact .timestamp (Timestamp.read_iff.mp hread)
      · rintro ⟨⟩
        next hspelled => exact ⟨_, Timestamp.read_iff.mpr hspelled, rfl⟩

end Command

end MessageSelector
