import MessageSelector.Proofs.Scans
import MessageSelector.Proofs.WrittenNumbers
import MessageSelector.Timestamp

/-!
# Timestamps as they are spelled

A timestamp is spelled as a number of milliseconds or as a date and time of RFC 3339. `Spelled` says
which instant either of them is, with the days counted year by year and month by month, and
`read_iff` that the reader finds this instant and nothing else.
-/

namespace MessageSelector

namespace Timestamp

open Text.Scan
open Token (positional)

/-! ## The calendar -/

/-- The days of a year. Every fourth year is longer, but of the full centuries only every fourth. -/
def yearLength (year : Nat) : Nat :=
  if year % 4 = 0 ∧ (year % 100 = 0 → year % 400 = 0) then 366 else 365

/-- The days of a month, counted from one. -/
def monthLength (year : Nat) : Nat → Nat
  | 2 => if yearLength year = 366 then 29 else 28
  | 4 | 6 | 9 | 11 => 30
  | _ => 31

/-- The days from the beginning of the year zero to a date. -/
def daysTo (year month day : Nat) : Nat :=
  ∑ y ∈ Finset.range year, yearLength y + ∑ m ∈ Finset.range (month - 1), monthLength year (m + 1) +
    (day - 1)

/-- The days before a year are those of the years before it. -/
theorem days_before_year_eq (year : Nat) :
    daysBeforeYear year = ∑ y ∈ Finset.range year, yearLength y := by
  induction year with
  | zero => rfl
  | succ year ih =>
      have hfour : (year + 1 + 3) / 4 = (year + 3) / 4 + if year % 4 = 0 then 1 else 0 := by
        split <;> omega
      have hcentury : (year + 1 + 99) / 100 =
          (year + 99) / 100 + if year % 100 = 0 then 1 else 0 := by
        split <;> omega
      have hlong : (year + 1 + 399) / 400 =
          (year + 399) / 400 + if year % 400 = 0 then 1 else 0 := by
        split <;> omega
      have hle : (year + 99) / 100 + 1 ≤ 365 * year + 365 := by omega
      rw [Finset.sum_range_succ, ← ih]
      unfold daysBeforeYear yearLength
      rw [hfour, hcentury, hlong]
      split_ifs <;> omega

/-- The lengths of the months are listed in their order. -/
theorem month_lengths_eq (year : Nat) :
    monthLengths year = (List.range 12).map fun month => monthLength year (month + 1) := by
  have hleap : isLeapYear year = decide (yearLength year = 366) := by
    unfold isLeapYear yearLength
    by_cases hcentury : year % 100 = 0 <;> by_cases hlong : year % 400 = 0 <;>
      simp [hcentury, hlong]
  unfold monthLengths
  rw [hleap]
  simp [List.range_succ, monthLength]

/-- The days before a month are those of the months before it. -/
theorem days_before_month_eq (year : Nat) {month : Nat} (h : month ≤ 12) :
    daysBeforeMonth year month = ∑ m ∈ Finset.range (month - 1), monthLength year (m + 1) := by
  unfold daysBeforeMonth
  rw [month_lengths_eq, ← List.map_take, List.take_range, Nat.min_eq_left (by omega),
    List.foldl_eq_foldr]
  rfl

/-- The days of a date that there is are counted from the beginning of 1970. -/
theorem day_number_iff {year month day : Nat} {days : Int} :
    dayNumber? year month day = some days ↔
      (1 ≤ month ∧ month ≤ 12 ∧ 1 ≤ day ∧ day ≤ monthLength year month) ∧
        days = (daysTo year month day : Int) - daysTo 1970 1 1 := by
  have hepoch : daysTo 1970 1 1 = daysBeforeYear 1970 := by
    simp [days_before_year_eq, daysTo]
  have hlength : (monthLengths year)[month - 1]? =
      if month - 1 < 12 then some (monthLength year (month - 1 + 1)) else none := by
    rw [month_lengths_eq, List.getElem?_map]
    split
    · next hlt => rw [List.getElem?_range hlt]; rfl
    · next hge => rw [List.getElem?_eq_none (by simpa using hge)]; rfl
  unfold dayNumber?
  rw [hlength, hepoch]
  simp only [Option.bind_eq_bind, Option.bind_eq_some_iff, Option.guard_eq_some',
    Option.ite_none_right_eq_some, Option.some_inj, Bool.and_eq_true, decide_eq_true_eq,
    Option.pure_def, exists_const]
  constructor
  · rintro ⟨⟨hmonth, hday⟩, length, ⟨hlt, rfl⟩, hlength, rfl⟩
    rw [Nat.sub_add_cancel hmonth] at hlength
    refine ⟨⟨hmonth, by omega, hday, hlength⟩, ?_⟩
    rw [daysTo, days_before_year_eq, days_before_month_eq year (by omega)]
    omega
  · rintro ⟨⟨hmonth, hle, hday, hlength⟩, rfl⟩
    refine ⟨⟨hmonth, hday⟩, _, ⟨by omega, rfl⟩, by rwa [Nat.sub_add_cancel hmonth], ?_⟩
    rw [daysTo, days_before_year_eq, days_before_month_eq year hle]
    omega

/-- No month is longer than 31 days. -/
theorem month_length_le (year month : Nat) : monthLength year month ≤ 31 := by
  unfold monthLength
  split
  · split <;> decide
  all_goals decide

/-! ## Fields -/

/-- How a number is spelled in so many digits. -/
inductive FieldSpelled (count : Nat) : List Char → Nat → Prop where
  | mk {digits} : digits.length = count → digits.all Char.isDigit = true →
      FieldSpelled count digits (positional 10 digits)

/-- How a fraction of a second is spelled, with its point, or neither. Only whole milliseconds
count. -/
inductive FractionSpelled : List Char → Nat → Prop where
  | none : FractionSpelled [] 0
  | point {digits} : digits ≠ [] → digits.all Char.isDigit = true →
      FractionSpelled ('.' :: digits) (positional 10 digits * 1000 / 10 ^ digits.length)

/-- How the distance of a local time from Coordinated Universal Time is spelled, in seconds. -/
inductive OffsetSpelled : List Char → Int → Prop where
  | zulu {mark} : mark = 'Z' ∨ mark = 'z' → OffsetSpelled [mark] 0
  | ahead {hours minutes h m} : FieldSpelled 2 hours h → h ≤ 23 → FieldSpelled 2 minutes m →
      m ≤ 59 → OffsetSpelled ('+' :: hours ++ ':' :: minutes) (3600 * h + 60 * m)
  | behind {mark hours minutes h m} : mark = '-' ∨ mark = '−' → FieldSpelled 2 hours h → h ≤ 23 →
      FieldSpelled 2 minutes m → m ≤ 59 →
      OffsetSpelled (mark :: hours ++ ':' :: minutes) (-(3600 * h + 60 * m))

section Fields

variable {text rest part : List Char} {n : Nat}

/-- A field is less than the power of ten with as many zeros. -/
theorem FieldSpelled.lt {count : Nat} (h : FieldSpelled count text n) : n < 10 ^ count := by
  cases h with
  | mk hcount hdigits => exact hcount ▸ Token.positional_lt hdigits

/-- A field of so many digits has to stand in front, within the limit. -/
theorem number_iff {count limit : Nat} :
    number count limit text = some (n, rest) ↔
      ∃ part, text = part ++ rest ∧ FieldSpelled count part n ∧ n ≤ limit := by
  have hscan : number count limit text =
      if (text.take count).length = count ∧ (text.take count).all Char.isDigit = true then
        if Integer.ofDigits 10 (text.take count) ≤ limit then
          some (Integer.ofDigits 10 (text.take count), text.drop count)
        else none
      else none := by
    unfold number
    split
    · split <;> simp_all
    · simp_all
  rw [hscan]
  constructor
  · intro h
    simp only [Option.ite_none_right_eq_some, Option.some_inj, Prod.mk.injEq] at h
    obtain ⟨⟨hcount, hdigits⟩, hlimit, rfl, rfl⟩ := h
    rw [Token.of_decimal_digits hdigits] at hlimit ⊢
    exact ⟨_, (List.take_append_drop count text).symm, .mk hcount hdigits, hlimit⟩
  · rintro ⟨_, rfl, ⟨rfl, hdigits⟩, hlimit⟩
    rw [List.take_left, List.drop_left, Token.of_decimal_digits hdigits, if_pos ⟨rfl, hdigits⟩,
      if_pos hlimit]

/-- The first nine digits after a point are whole nanoseconds. -/
theorem nine_digits {digits : List Char} (h : digits.all Char.isDigit = true) :
    Integer.ofDigits 10 ((digits ++ List.replicate 9 '0').take 9) / 1000000 =
      positional 10 digits * 1000 / 10 ^ digits.length := by
  have hzeros : (List.replicate 9 '0').all Char.isDigit = true := rfl
  have hall : (digits ++ List.replicate 9 '0').all Char.isDigit = true := by
    rw [List.all_append, h, hzeros]
    rfl
  have hparts := List.take_append_drop 9 (digits ++ List.replicate 9 '0')
  have hlength : ((digits ++ List.replicate 9 '0').drop 9).length = digits.length := by simp
  generalize (digits ++ List.replicate 9 '0').take 9 = front at *
  generalize (digits ++ List.replicate 9 '0').drop 9 = back at *
  rw [← hparts, List.all_append, Bool.and_eq_true] at hall
  rw [Token.of_decimal_digits hall.1, Token.positional_front hall.2, hparts, hlength,
    Token.positional_append, Token.positional_zeros, List.length_replicate, Nat.add_zero,
    Nat.div_div_eq_div_mul, show 10 ^ 9 = 1000 * 1000000 by rfl, ← Nat.mul_assoc,
    Nat.mul_div_mul_right _ _ (by decide)]

/-- A fraction in front is read to its last digit. -/
theorem fraction_sound (h : fraction text = some (n, rest)) :
    ∃ part, text = part ++ rest ∧ FractionSpelled part (n / 1000000) := by
  unfold fraction at h
  split at h
  · next following =>
      obtain ⟨digits, others, hsplit⟩ : ∃ digits others,
          Decimal.splitDigits following = (digits, others) := ⟨_, _, rfl⟩
      obtain ⟨rfl, hdigits⟩ := Token.split_digits_sound hsplit
      rw [Decimal.splitDigits] at hsplit
      rw [hsplit] at h
      simp only [Option.bind_eq_bind, Option.bind_eq_some_iff, Option.guard_eq_some',
        Option.pure_def, Option.some_inj, Prod.mk.injEq, exists_const] at h
      obtain ⟨hne, rfl, rfl⟩ := h
      refine ⟨'.' :: digits, rfl, ?_⟩
      rw [nine_digits hdigits]
      exact .point (by simpa using hne) hdigits
  · cases h
    exact ⟨[], rfl, .none⟩

/-- A fraction is read where neither a digit nor a point follows. -/
theorem fraction_complete (h : FractionSpelled part n)
    (hrest : ∀ c ∈ rest.head?, c.isDigit = false ∧ c ≠ '.') :
    ∃ nanoseconds, fraction (part ++ rest) = some (nanoseconds, rest) ∧
      nanoseconds / 1000000 = n := by
  cases h with
  | none =>
      refine ⟨0, ?_, rfl⟩
      rw [List.nil_append, fraction]
      rintro others rfl
      exact (hrest '.' rfl).2 rfl
  | @point digits hne hdigits =>
      refine ⟨_, ?_, nine_digits hdigits⟩
      have hsplit := Token.split_digits_append hdigits fun c hc => (hrest c hc).1
      rw [Decimal.splitDigits] at hsplit
      rw [List.cons_append, fraction, hsplit]
      simp [hne]

/-- An offset has to stand in front. -/
theorem offset_iff {seconds : Int} :
    offset text = some (seconds, rest) ↔
      ∃ part, text = part ++ rest ∧ OffsetSpelled part seconds := by
  unfold offset
  simp only [bind_iff, one_of_iff]
  constructor
  · rintro ⟨mark, others, ⟨rfl, hmark⟩, h⟩
    split at h
    · next hzulu =>
        cases h
        exact ⟨[mark], rfl, .zulu (by simpa using hzulu)⟩
    · next hlocal =>
        simp only [bind_iff, number_iff, expect_iff, pure_iff, Prod.mk.injEq] at h
        obtain ⟨hour, _, ⟨hours, rfl, hhours, hle⟩, _, _, rfl, minute, _,
          ⟨minutes, rfl, hminutes, hle'⟩, rfl, rfl⟩ := h
        refine ⟨mark :: hours ++ ':' :: minutes, by simp, ?_⟩
        split
        · next hahead =>
            rw [hahead]
            exact .ahead hhours hle hminutes hle'
        · next hbehind =>
            refine .behind ?_ hhours hle hminutes hle'
            simp_all
  · rintro ⟨part, rfl, h⟩
    cases h with
    | @zulu mark hmark =>
        refine ⟨mark, rest, ⟨rfl, ?_⟩, ?_⟩
        · rcases hmark with rfl | rfl <;> decide
        · rw [if_pos (by simpa using hmark)]
          rfl
    | ahead hhours hle hminutes hle' =>
        refine ⟨'+', _, ⟨rfl, by decide⟩, ?_⟩
        rw [if_neg (by decide)]
        simp only [bind_iff, number_iff, expect_iff, pure_iff]
        exact ⟨_, _, ⟨_, List.append_assoc .., hhours, hle⟩, (), _, rfl, _, _,
          ⟨_, rfl, hminutes, hle'⟩, rfl⟩
    | @behind mark _ _ _ _ hmark hhours hle hminutes hle' =>
        have hother : mark ∈ ['Z', 'z', '+', '-', '−'] ∧ mark ≠ '+' ∧
            (decide (mark = 'Z') || decide (mark = 'z')) = false := by
          rcases hmark with rfl | rfl <;> decide
        refine ⟨mark, _, ⟨rfl, hother.1⟩, ?_⟩
        rw [hother.2.2, if_neg Bool.false_ne_true]
        simp only [bind_iff, number_iff, expect_iff, pure_iff, if_neg hother.2.1]
        exact ⟨_, _, ⟨_, List.append_assoc .., hhours, hle⟩, (), _, rfl, _, _,
          ⟨_, rfl, hminutes, hle'⟩, rfl⟩

end Fields

/-! ## Dates and times -/

/-- How a date is spelled, in days since the beginning of 1970. -/
inductive DateSpelled : List Char → Int → Prop where
  | mk {year month day y m d} : FieldSpelled 4 year y → FieldSpelled 2 month m →
      FieldSpelled 2 day d → 1 ≤ m → m ≤ 12 → 1 ≤ d → d ≤ monthLength y m →
      DateSpelled (year ++ '-' :: month ++ '-' :: day) (daysTo y m d - daysTo 1970 1 1)

/-- How a time of the day is spelled, in milliseconds. A minute may have a sixty-first second. -/
inductive TimeSpelled : List Char → Int → Prop where
  | mk {hour minute second fraction h m s millis} : FieldSpelled 2 hour h → h ≤ 23 →
      FieldSpelled 2 minute m → m ≤ 59 → FieldSpelled 2 second s → s ≤ 60 →
      FractionSpelled fraction millis →
      TimeSpelled (hour ++ ':' :: minute ++ ':' :: second ++ fraction)
        (3600000 * h + 60000 * m + 1000 * s + millis)

/-- How an instant is spelled, in milliseconds since the beginning of 1970: as their number, or as a
date and a local time with its distance from Coordinated Universal Time. -/
inductive Spelled : List Char → Int → Prop where
  | millis {text n} : Integer.Spelled text n → Spelled text n
  | dateTime {date mark time offset days millis seconds} : DateSpelled date days →
      mark = 'T' ∨ mark = 't' ∨ mark = ' ' → TimeSpelled time millis →
      OffsetSpelled offset seconds →
      Spelled (date ++ mark :: time ++ offset) (86400000 * days + millis - 1000 * seconds)

/-- An offset begins with neither a digit nor a point. -/
theorem OffsetSpelled.head {text : List Char} {seconds : Int} (h : OffsetSpelled text seconds) :
    ∀ c ∈ text.head?, c.isDigit = false ∧ c ≠ '.' := by
  cases h with
  | zulu hmark =>
      rintro c ⟨⟩
      rcases hmark with rfl | rfl <;> decide
  | ahead =>
      rintro c ⟨⟩
      decide
  | behind hmark =>
      rintro c ⟨⟩
      rcases hmark with rfl | rfl <;> decide

/-- An instant is its whole milliseconds. -/
theorem of_instant_eq (seconds : Int) (nanoseconds : Nat) :
    ofInstant seconds nanoseconds = 1000 * seconds + (nanoseconds / 1000000 : Nat) := by
  unfold ofInstant
  rw [Int.fdiv_eq_ediv_of_nonneg _ (by decide)]
  omega

/-- What is read as a date and time is spelled so. -/
theorem spelled_of_date_time {text : List Char} {millis : Int}
    (h : dateTime text = some (millis, [])) : Spelled text millis := by
  unfold dateTime at h
  simp only [bind_iff, number_iff, expect_iff, one_of_iff, lift_iff, pure_iff, offset_iff,
    day_number_iff, Prod.mk.injEq] at h
  obtain ⟨y, _, ⟨year, rfl, hyear, -⟩, _, _, rfl, m, _, ⟨month, rfl, hmonth, -⟩, _, _, rfl,
    d, _, ⟨day, rfl, hday, -⟩, mark, _, ⟨rfl, hmark⟩, h⟩ := h
  obtain ⟨h, _, ⟨hour, rfl, hhour, hlt⟩, _, _, rfl, m', _, ⟨minute, rfl, hminute, hlt'⟩, _, _,
    rfl, s, _, ⟨second, rfl, hsecond, hlt''⟩, nanoseconds, _, hfraction, hrest⟩ := h
  obtain ⟨seconds, _, ⟨offset, rfl, hoffset⟩, days, _,
    ⟨⟨⟨hone, htwelve, hfirst, hlast⟩, hdays⟩, rfl⟩, rfl, rfl⟩ := hrest
  obtain ⟨part, rfl, hpart⟩ := fraction_sound hfraction
  have hspelled := Spelled.dateTime (.mk hyear hmonth hday hone htwelve hfirst hlast)
    (by simpa using hmark) (.mk hhour hlt hminute hlt' hsecond hlt'' hpart) hoffset
  rw [← hdays] at hspelled
  convert hspelled using 1
  · simp
  · rw [of_instant_eq]
    omega

/-- What is spelled as a date and time is read as one. -/
theorem date_time_of_spelled {date time offset : List Char} {mark : Char}
    {days millis seconds : Int} (hdate : DateSpelled date days)
    (hmark : mark = 'T' ∨ mark = 't' ∨ mark = ' ')
    (htime : TimeSpelled time millis) (hoffset : OffsetSpelled offset seconds) :
    dateTime (date ++ mark :: time ++ offset) =
      some (86400000 * days + millis - 1000 * seconds, []) := by
  unfold dateTime
  simp only [bind_iff, number_iff, expect_iff, one_of_iff, lift_iff, pure_iff, offset_iff,
    day_number_iff]
  cases hdate with
  | @mk year month day y m d hyear hmonth hday hone htwelve hfirst hlast =>
      cases htime with
      | @mk hour minute second fraction h m' s millis hhour hlt hminute hlt' hsecond hlt'' hpart =>
          obtain ⟨nanoseconds, hfraction, hmillis⟩ := fraction_complete hpart hoffset.head
          have hlast' := hlast.trans (month_length_le y m)
          refine ⟨y, _, ⟨year, by simp, hyear, Nat.le_of_lt_succ hyear.lt⟩, (), _, rfl, m, _,
            ⟨month, rfl, hmonth, htwelve⟩, (), _, rfl, d, _, ⟨day, rfl, hday, hlast'⟩, mark, _,
            ⟨rfl, by simpa using hmark⟩, h, _, ⟨hour, rfl, hhour, hlt⟩, (), _, rfl, m', _,
            ⟨minute, rfl, hminute, hlt'⟩, (), _, rfl, s, _, ⟨second, rfl, hsecond, hlt''⟩,
            nanoseconds, _, hfraction, seconds, [], ⟨offset, by simp, hoffset⟩, _, [],
            ⟨⟨⟨hone, htwelve, hfirst, hlast⟩, rfl⟩, rfl⟩, ?_⟩
          rw [of_instant_eq, hmillis, Prod.mk.injEq]
          exact ⟨by ring, rfl⟩

/-- Timestamps that fit a word are read from their spellings. -/
theorem read_iff {text : String} {word : Int64} :
    read? text = some word ↔ Spelled text.toList word.toInt := by
  unfold read?
  constructor
  · intro h
    split at h
    · next hword =>
        cases h
        exact .millis (Integer.read_word_iff.mp hword)
    · split at h
      · next millis hdate =>
          rw [(Integer.narrow_eq_some_iff _ _).mp h]
          exact spelled_of_date_time hdate
      · cases h
  · intro h
    generalize htext : text.toList = source at h
    generalize hmillis : word.toInt = n at h
    cases h with
    | millis hspelled =>
        rw [← htext, ← hmillis, ← Integer.read_word_iff] at hspelled
        rw [hspelled]
    | @dateTime date mark time offset days millis seconds hdate hmark htime hoffset =>
        -- A colon stands in the time, and in no integer.
        have hcolon : ':' ∈ time := by
          cases htime with
          | mk => simp
        have hword : Integer.readWord? text = none := by
          rw [Option.eq_none_iff_forall_ne_some]
          intro other hother
          have hchars := (Integer.read_word_iff.mp hother).number_chars
          rw [htext, List.all_eq_true] at hchars
          exact absurd (hchars ':' (by simp [hcolon])) (by decide)
        rw [hword, date_time_of_spelled hdate hmark htime hoffset]
        exact (Integer.narrow_eq_some_iff _ _).mpr hmillis

end Timestamp

end MessageSelector
