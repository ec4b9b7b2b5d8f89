import MessageSelector.Properties.Assignment
import MessageSelector.Proofs.WrittenNumbers

/-!
# Values and assignments as they are spelled

How values are spelled outside selectors, and how an assignment of a value to a name is. Every text
spells one value, `Value.of_text_iff`, and a text that is read as an assignment is spelled as this
assignment and no other, `Assignment.read_iff`.
-/

namespace MessageSelector

/-! ## Quotes -/

namespace Text

/-- What a text is once every pair of quotes in it is one quote, the pairs taken from the left. -/
inductive Collapses : List Char → List Char → Prop where
  | nil : Collapses [] []
  | pair {rest out} : Collapses rest out → Collapses ('\'' :: '\'' :: rest) ('\'' :: out)
  | other {c rest out} : ¬ (c = '\'' ∧ rest.head? = some '\'') → Collapses rest out →
      Collapses (c :: rest) (c :: out)

/-- Quotes are collapsed so. -/
theorem collapse_iff {text out : List Char} : collapseQuotes text = out ↔ Collapses text out := by
  constructor
  · rintro rfl
    fun_induction collapseQuotes text with
    | case1 rest ih => exact .pair ih
    | case2 c rest hpair ih =>
        refine .other ?_ ih
        rintro ⟨rfl, hhead⟩
        obtain ⟨others, rfl⟩ := List.head?_eq_some_iff.mp hhead
        exact hpair others rfl rfl
    | case3 => exact .nil
  · intro h
    induction h with
    | nil => rfl
    | pair _ ih => rw [collapseQuotes, ih]
    | other hpair _ ih =>
        rw [collapseQuotes, ih]
        rintro others rfl rfl
        exact hpair ⟨rfl, rfl⟩

/-- What stands between two quotes is unquoted. -/
theorem unquote_iff {text contents : String} :
    unquote? text = some contents ↔
      ∃ inside, text.toList = '\'' :: inside ++ ['\''] ∧ Collapses inside contents.toList := by
  have hcollapse (inside : List Char) : Collapses inside contents.toList ↔
      some (String.ofList (collapseQuotes inside)) = some contents := by
    rw [Option.some_inj, ← collapse_iff, ← String.toList_inj, String.toList_ofList]
  simp only [hcollapse]
  unfold unquote?
  constructor
  · intro h
    split at h
    · next rest htext =>
        split at h
        · next reversed hreverse =>
            refine ⟨reversed.reverse, ?_, h⟩
            rw [htext, ← List.reverse_reverse rest, hreverse]
            simp
        · cases h
    · cases h
  · rintro ⟨inside, htext, hcontents⟩
    rw [htext, ← hcontents]
    simp

/-- Nothing else is unquoted. -/
theorem unquote_eq_none_iff {text : String} :
    unquote? text = none ↔ ∀ inside, text.toList ≠ '\'' :: inside ++ ['\''] := by
  simp only [Option.eq_none_iff_forall_ne_some, ne_eq, unquote_iff]
  constructor
  · intro h inside htext
    exact h (String.ofList (collapseQuotes inside))
      ⟨inside, htext, collapse_iff.mp (String.toList_ofList ..).symm⟩
  · rintro h contents ⟨inside, htext, -⟩
    exact h inside htext

end Text

/-! ## Values -/

namespace Value

/-- How a value is spelled: a string in quotes, an integer that fits a word, a finite double where
it is no such integer, a boolean in any case, and anything else as the string that it is. -/
inductive Spelled (text : String) : Value → Prop where
  | quoted {inside contents} : text.toList = '\'' :: inside ++ ['\''] →
      Text.Collapses inside contents.toList → Spelled text (.string contents)
  | integer {word : Int64} : Integer.Spelled text.toList word.toInt → Spelled text (.integer word)
  | float {x} : (∀ word : Int64, ¬ Integer.Spelled text.toList word.toInt) →
      Double.Spelled text.toList x → Spelled text (.float x)
  | isTrue : text.toLower = "true" → Spelled text (.boolean true)
  | isFalse : text.toLower = "false" → Spelled text (.boolean false)
  | text : (∀ inside, text.toList ≠ '\'' :: inside ++ ['\'']) →
      (∀ word : Int64, ¬ Integer.Spelled text.toList word.toInt) →
      (∀ x, ¬ Double.Spelled text.toList x) → text.toLower ≠ "true" → text.toLower ≠ "false" →
      Spelled text (.string text)

/-- Booleans are read in any case. -/
theorem read_flag_iff {text : String} {flag : Bool} :
    readFlag? text = some flag ↔ text.toLower = toString flag := by
  unfold readFlag?
  split
  · next h =>
      rw [h]
      cases flag <;> decide
  · next h =>
      rw [h]
      cases flag <;> decide
  · next htrue hfalse =>
      refine ⟨nofun, fun h => ?_⟩
      cases flag
      · exact absurd h hfalse
      · exact absurd h htrue

/-- Nothing else is read as a boolean. -/
theorem read_flag_eq_none_iff {text : String} :
    readFlag? text = none ↔ text.toLower ≠ "true" ∧ text.toLower ≠ "false" := by
  simp only [Option.eq_none_iff_forall_ne_some, ne_eq, read_flag_iff, Bool.forall_bool]
  exact and_comm

/-- What begins as a number is not in quotes. -/
theorem unquote_of_number {text : String}
    (h : ∃ c rest, text.toList = c :: rest ∧ Decimal.isNumberChar c = true) :
    Text.unquote? text = none := by
  obtain ⟨c, rest, htext, hc⟩ := h
  refine Text.unquote_eq_none htext ?_
  rintro rfl
  cases hc

/-- What a text is read as, it spells. -/
theorem spelled_of_text (text : String) : Spelled text (ofText text) := by
  unfold ofText
  cases hquoted : Text.unquote? text with
  | some contents =>
      obtain ⟨inside, htext, hcontents⟩ := Text.unquote_iff.mp hquoted
      exact .quoted htext hcontents
  | none =>
  cases hword : Integer.readWord? text with
  | some word => exact .integer (Integer.read_word_iff.mp hword)
  | none =>
  have hnoWord := Integer.read_word_eq_none_iff.mp hword
  cases hdouble : Decimal.readFinite? text with
  | some x => exact .float hnoWord (Decimal.read_finite_iff.mp hdouble)
  | none =>
  cases hflag : readFlag? text with
  | some flag =>
      cases flag with
      | true => exact .isTrue (read_flag_iff.mp hflag)
      | false => exact .isFalse (read_flag_iff.mp hflag)
  | none =>
      obtain ⟨htrue, hfalse⟩ := read_flag_eq_none_iff.mp hflag
      exact .text (Text.unquote_eq_none_iff.mp hquoted) hnoWord
        (Decimal.read_finite_eq_none_iff.mp hdouble) htrue hfalse

/-- A text is read as the one value that it spells. -/
theorem of_text_iff {text : String} {value : Value} :
    ofText text = value ↔ Spelled text value := by
  constructor
  · rintro rfl
    exact spelled_of_text text
  · intro h
    cases h with
    | quoted htext hcontents =>
        rw [ofText, Text.unquote_iff.mpr ⟨_, htext, hcontents⟩]
        rfl
    | integer hspelled =>
        rw [ofText, unquote_of_number hspelled.begins, Integer.read_word_iff.mpr hspelled]
        rfl
    | float hnoWord hspelled =>
        rw [ofText, unquote_of_number hspelled.begins, Integer.read_word_eq_none_iff.mpr hnoWord,
          Decimal.read_finite_iff.mpr hspelled]
        rfl
    | isTrue htrue => exact @of_text_boolean text true htrue
    | isFalse hfalse => exact @of_text_boolean text false hfalse
    | text hquoted hnoWord hnoDouble htrue hfalse =>
        rw [ofText, Text.unquote_eq_none_iff.mpr hquoted, Integer.read_word_eq_none_iff.mpr hnoWord,
          Decimal.read_finite_eq_none_iff.mpr hnoDouble,
          read_flag_eq_none_iff.mpr ⟨htrue, hfalse⟩]
        rfl

end Value

/-! ## Assignments -/

namespace Text

/-- White space of any script, by the code points that have the property White_Space. -/
def IsWhiteSpace (c : Char) : Prop :=
  c.toNat ∈ [0x9, 0xA, 0xB, 0xC, 0xD, 0x20, 0x85, 0xA0, 0x1680, 0x2028, 0x2029, 0x202F, 0x205F,
    0x3000] ∨ 0x2000 ≤ c.toNat ∧ c.toNat ≤ 0x200A

/-- Blanks are white space. -/
theorem is_blank_iff {c : Char} : isBlank c = true ↔ IsWhiteSpace c := by
  have hspace : c = ' ' ↔ c.toNat = 0x20 := by
    rw [← Char.toNat_inj]
    rfl
  unfold isBlank inBlocks blankBlocks IsWhiteSpace
  simp [hspace]
  split <;> omega

/-- White space around a text that neither begins nor ends with it. -/
structure Surrounds (before name after : List Char) : Prop where
  before : ∀ c ∈ before, IsWhiteSpace c
  after : ∀ c ∈ after, IsWhiteSpace c
  head : ∀ c ∈ name.head?, ¬ IsWhiteSpace c
  last : ∀ c ∈ name.getLast?, ¬ IsWhiteSpace c

/-- What is left after dropping from the front does not begin with what is dropped. -/
theorem head_drop_blanks {text : List Char} :
    ∀ c ∈ (text.dropWhile isBlank).head?, ¬ IsWhiteSpace c := by
  intro c hc
  have hhead := List.head?_dropWhile_not isBlank text
  rw [hc] at hhead
  rw [← is_blank_iff, hhead]
  exact Bool.false_ne_true

/-- What does not begin with a blank is kept. -/
theorem drop_blanks_eq {text : List Char} (h : ∀ c ∈ text.head?, ¬ IsWhiteSpace c) :
    text.dropWhile isBlank = text := by
  cases text with
  | nil => rfl
  | cons c rest => exact List.dropWhile_cons_of_neg fun hc => h c rfl (is_blank_iff.mp hc)

/-- A text is its trimmed text with white space around it. -/
theorem surrounds_trim (text : List Char) :
    ∃ before after, text = before ++ (trimBlanks (String.ofList text)).toList ++ after ∧
      Surrounds before (trimBlanks (String.ofList text)).toList after := by
  have htext := List.takeWhile_append_dropWhile (p := isBlank) (l := text)
  have hblank {part : List Char} : ∀ c ∈ part.takeWhile isBlank, IsWhiteSpace c :=
    fun c hc => is_blank_iff.mp (List.all_eq_true.mp List.all_takeWhile c hc)
  unfold trimBlanks
  rw [String.toList_ofList, String.toList_ofList]
  have hhead := @head_drop_blanks text
  generalize text.dropWhile isBlank = front at htext hhead ⊢
  have hfront := congrArg List.reverse
    (List.takeWhile_append_dropWhile (p := isBlank) (l := front.reverse))
  rw [List.reverse_append, List.reverse_reverse] at hfront
  refine ⟨text.takeWhile isBlank, (front.reverse.takeWhile isBlank).reverse, ?_, hblank, ?_, ?_, ?_⟩
  · rw [List.append_assoc, hfront, htext]
  · exact fun c hc => hblank c (List.mem_reverse.mp hc)
  · intro c hc
    refine hhead c ?_
    rw [← hfront, List.head?_append, hc]
    rfl
  · rw [List.getLast?_reverse]
    exact head_drop_blanks

/-- White space around a text is trimmed. -/
theorem Surrounds.trim {before name after : List Char} (h : Surrounds before name after)
    (hne : name ≠ []) :
    trimBlanks (String.ofList (before ++ name ++ after)) = String.ofList name := by
  have hbefore : ∀ c ∈ before, isBlank c = true := fun c hc => is_blank_iff.mpr (h.before c hc)
  have hafter : ∀ c ∈ after.reverse, isBlank c = true :=
    fun c hc => is_blank_iff.mpr (h.after c (List.mem_reverse.mp hc))
  have hfront : (name ++ after).dropWhile isBlank = name ++ after :=
    drop_blanks_eq (by rw [List.head?_append_of_ne_nil _ hne]; exact h.head)
  have hback : name.reverse.dropWhile isBlank = name.reverse :=
    drop_blanks_eq (by rw [List.head?_reverse]; exact h.last)
  unfold trimBlanks
  rw [String.toList_ofList, List.append_assoc, List.dropWhile_append_of_pos hbefore, hfront]
  dsimp only
  rw [List.reverse_append, List.dropWhile_append_of_pos hafter, hback, List.reverse_reverse]

end Text

/-- How an assignment is spelled: a name with white space around it or none, an equals sign, and
what spells the value. -/
inductive Assignment.Spelled : List Char → Assignment → Prop where
  | mk {before name after text value} : Text.Surrounds before name after → name ≠ [] →
      '=' ∉ name → Value.Spelled text value →
      Spelled (before ++ name ++ after ++ '=' :: text.toList) ⟨String.ofList name, value⟩

/-- Assignments are read from their spellings. -/
theorem Assignment.read_iff {text : String} {assignment : Assignment} :
    read text = .ok assignment ↔ Spelled text.toList assignment := by
  constructor
  · intro h
    have htext := List.takeWhile_append_dropWhile (p := (· ≠ '=')) (l := text.toList)
    have hequals := List.head?_dropWhile_not (· ≠ '=') text.toList
    have hname : '=' ∉ text.toList.takeWhile (· ≠ '=') := fun hmem => by
      simpa using List.all_eq_true.mp List.all_takeWhile _ hmem
    unfold read at h
    rw [List.span_eq_takeWhile_dropWhile] at h
    generalize text.toList.takeWhile (· ≠ '=') = front at htext hname h
    generalize text.toList.dropWhile (· ≠ '=') = rest at htext hequals h
    dsimp only at h
    split at h
    · cases h
    next hne =>
    cases h
    rw [Bool.or_eq_true, not_or] at hne
    cases rest with
    | nil => exact absurd rfl hne.1
    | cons c value =>
        obtain rfl : c = '=' := by simpa using hequals
        obtain ⟨before, after, hfront, hsurrounds⟩ := Text.surrounds_trim front
        have hnonempty : (Text.trimBlanks (String.ofList front)).toList ≠ [] := by
          simpa [String.toList_eq_nil_iff] using hne.2
        have hnone : '=' ∉ (Text.trimBlanks (String.ofList front)).toList := by
          intro hmem
          rw [hfront] at hname
          exact hname (List.mem_append_left _ (List.mem_append_right _ hmem))
        have hspelled := Spelled.mk hsurrounds hnonempty hnone
          (Value.spelled_of_text (String.ofList value))
        rwa [← hfront, String.toList_ofList, htext, String.ofList_toList] at hspelled
  · intro h
    generalize htext : text.toList = source at h
    cases h with
    | @mk before name after rest value hsurrounds hne hname hvalue =>
        have hequals : ∀ c ∈ before ++ name ++ after, decide (c ≠ '=') = true := by
          have hspace : ¬ Text.IsWhiteSpace '=' := by unfold Text.IsWhiteSpace; decide
          intro c hc
          rw [decide_eq_true_eq]
          rintro rfl
          rcases List.mem_append.mp hc with hc | hc
          · rcases List.mem_append.mp hc with hc | hc
            · exact hspace (hsurrounds.before _ hc)
            · exact hname hc
          · exact hspace (hsurrounds.after _ hc)
        have hspan : text.toList.span (· ≠ '=') =
            (before ++ name ++ after, '=' :: rest.toList) := by
          rw [htext, List.span_eq_takeWhile_dropWhile, List.takeWhile_append_of_pos hequals,
            List.dropWhile_append_of_pos hequals]
          simp
        have hnonempty : (String.ofList name).isEmpty = false := by
          rw [Bool.eq_false_iff, Ne, String.isEmpty_iff, ← String.toList_eq_nil_iff,
            String.toList_ofList]
          exact hne
        unfold read
        rw [hspan, ← Value.of_text_iff.mpr hvalue]
        dsimp only
        rw [hsurrounds.trim hne, hnonempty, List.tail_cons, String.ofList_toList]
        rfl

end MessageSelector
