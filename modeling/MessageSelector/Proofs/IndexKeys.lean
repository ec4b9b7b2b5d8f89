import MessageSelector.IndexKey
import MessageSelector.Proofs.Comparison
import MessageSelector.Proofs.Evaluation

/-!
# Exactness of index keys

A key is as good as the conjunct it comes from. Read `truth_key_iff` first: a conjunct with a key
holds exactly for the messages whose property the key admits. Since a tree holds where all of its
conjuncts do, `truth_holds_iff_keys` follows: the keys and the conjuncts without one decide together
whether a message is selected, and no key excludes a message that is.
-/

namespace MessageSelector

/-- A key is met by a source that has the property, with a value that the key admits. -/
def IndexKey.MetBy (key : IndexKey) (source : Source) : Prop :=
  ∃ value, source key.name = some value ∧ key.admits value = true

namespace Expr

/-- Leaving out later occurrences loses no member and adds none. -/
theorem mem_distinct (item : String) (items : List String) :
    item ∈ distinct items ↔ item ∈ items := by
  have hfold (seen : List String) :
      item ∈ items.foldl (fun seen item => if seen.contains item then seen else item :: seen) seen ↔
        item ∈ seen ∨ item ∈ items := by
    -- An item that is left out is among those seen before it.
    induction items generalizing seen with
    | nil => simp
    | cons first rest ih =>
        rw [List.foldl_cons, ih]
        by_cases hseen : seen.contains first = true
        · have hmem : first ∈ seen := List.contains_iff_mem.mp hseen
          rw [if_pos hseen, List.mem_cons]
          constructor
          · rintro (h | h)
            · exact .inl h
            · exact .inr (.inr h)
          · rintro (h | rfl | h)
            · exact .inl h
            · exact .inl hmem
            · exact .inr h
        · rw [if_neg hseen, List.mem_cons, List.mem_cons, or_assoc, or_left_comm]
  simpa [distinct] using hfold []

/-- A tree holds where all of its conjuncts do. -/
theorem truth_holds_iff_conjuncts (e : Expr) (source : Source) :
    e.truth source = .holds ↔ ∀ part ∈ e.conjuncts, part.truth source = .holds := by
  induction e with
  | and left right ihLeft ihRight =>
      rw [truth_and, Truth.and_holds_iff, ihLeft, ihRight, conjuncts_and, List.forall_mem_append]
  | _ => simp [conjuncts, conjunctsBefore]

/-- An identifier equals a literal where the property is there and has an equal value. -/
theorem truth_equal_literal_iff (name : String) (literal : Value) (source : Source) :
    (comparison .equal (.identifier name) (.literal literal)).truth source = .holds ↔
      IndexKey.MetBy ⟨name, [literal]⟩ source := by
  rw [truth_comparison, Value.compare_option_holds_iff]
  simp only [evaluate, IndexKey.MetBy, IndexKey.admits, List.any_cons, List.any_nil, Bool.or_false]
  constructor
  · rintro ⟨value, _, hvalue, ⟨⟩, hequal⟩
    refine ⟨value, hvalue, ?_⟩
    rw [Value.equals_comm]
    exact (Truth.is_holds_iff _).mpr hequal
  · rintro ⟨value, hvalue, hequal⟩
    rw [Value.equals_comm] at hequal
    exact ⟨value, literal, hvalue, rfl, (Truth.is_holds_iff _).mp hequal⟩

/-- The order in which an equality is written does not matter to its outcome. -/
theorem truth_equal_comm (left right : Expr) (source : Source) :
    (comparison .equal left right).truth source = (comparison .equal right left).truth source := by
  rw [truth_comparison, truth_comparison]
  cases left.evaluate source <;> cases right.evaluate source <;> try rfl
  exact Value.compare_equal_comm _ _

/-- A string is equal to nothing but itself. -/
theorem equals_string_iff (text : String) (value : Value) :
    (Value.string text).equals value = true ↔ value = .string text := by
  cases value with
  | string other =>
      rw [Value.string.injEq, eq_comm (a := other)]
      simp only [Value.equals, Value.compare, Value.compareSame, Truth.is_holds_iff,
        Truth.of_bool_holds_iff, beq_iff_eq]
  | _ => simp [Value.equals, Value.compare, Value.double?, Truth.isHolds]

/-- A key with strings for candidates admits the strings among them. -/
theorem admits_strings_iff (name : String) (items : List String) (value : Value) :
    IndexKey.admits ⟨name, items.map .string⟩ value = true ↔
      ∃ text ∈ items, value = .string text := by
  simp [IndexKey.admits, equals_string_iff]

/-- A list test holds where the property is there and is one of the strings. -/
theorem truth_in_list_iff (name : String) (items : List String) (source : Source) :
    (inList (.identifier name) items false).truth source = .holds ↔
      IndexKey.MetBy ⟨name, (distinct items).map .string⟩ source := by
  rw [truth_in_list, Truth.notIf, if_neg Bool.false_ne_true, Value.test_string_holds_iff]
  simp only [evaluate, IndexKey.MetBy, admits_strings_iff, mem_distinct, List.contains_iff_mem]
  constructor
  · rintro ⟨text, hvalue, hmem⟩
    exact ⟨.string text, hvalue, text, hmem, rfl⟩
  · rintro ⟨_, hvalue, text, hmem, rfl⟩
    exact ⟨text, hvalue, hmem⟩

/-- A conjunct with a key holds exactly where the key is met. -/
theorem truth_key_iff {part : Expr} {key : IndexKey} (hkey : part.key? = some key)
    (source : Source) : part.truth source = .holds ↔ key.MetBy source := by
  unfold key? at hkey
  split at hkey
  · cases hkey
    exact truth_equal_literal_iff _ _ source
  · cases hkey
    rw [truth_equal_comm]
    exact truth_equal_literal_iff _ _ source
  · cases hkey
    exact truth_in_list_iff _ _ source
  · cases hkey

/-- Meeting all keys is the same as every conjunct with a key holding. -/
theorem met_by_keys_iff (e : Expr) (source : Source) :
    (∀ key ∈ e.keys, key.MetBy source) ↔
      ∀ part ∈ e.conjuncts, part.key?.isSome → part.truth source = .holds := by
  simp only [keys, List.mem_filterMap]
  constructor
  · intro hkeys part hpart hsome
    obtain ⟨key, hkey⟩ := Option.isSome_iff_exists.mp hsome
    exact (truth_key_iff hkey source).mpr (hkeys key ⟨part, hpart, hkey⟩)
  · rintro hparts key ⟨part, hpart, hkey⟩
    exact (truth_key_iff hkey source).mp (hparts part hpart (by simp [hkey]))

/-- The keys of a conjunction are those of its operands. -/
theorem keys_and (left right : Expr) : (and left right).keys = left.keys ++ right.keys := by
  rw [keys, conjuncts_and, List.filterMap_append]
  rfl

/-- A selector holds exactly where its keys are met and the conjuncts without a key hold.

So a message that lacks a property of some key is never selected, and where every conjunct has a
key the keys alone decide. -/
theorem truth_holds_iff_keys (e : Expr) (source : Source) :
    (e.truth source = .holds ↔
      (∀ key ∈ e.keys, ∃ value, source key.name = some value ∧ key.admits value = true) ∧
      ∀ part ∈ e.conjuncts, part.key? = none → part.truth source = .holds) ∧
    ((∃ key ∈ e.keys, source key.name = none) → e.truth source ≠ .holds) ∧
    ((∀ part ∈ e.conjuncts, part.key? ≠ none) →
      (e.truth source = .holds ↔
        ∀ key ∈ e.keys, ∃ value, source key.name = some value ∧ key.admits value = true)) := by
  have hexact : e.truth source = .holds ↔
      (∀ key ∈ e.keys, key.MetBy source) ∧
      ∀ part ∈ e.conjuncts, part.key? = none → part.truth source = .holds := by
    rw [truth_holds_iff_conjuncts, met_by_keys_iff]
    constructor
    · intro hall
      exact ⟨fun part hpart _ => hall part hpart, fun part hpart _ => hall part hpart⟩
    · rintro ⟨hkeyed, hunkeyed⟩ part hpart
      cases hkey : part.key? with
      | none => exact hunkeyed part hpart hkey
      | some key => exact hkeyed part hpart (by simp [hkey])
  refine ⟨hexact, ?_, ?_⟩
  · rintro ⟨key, hmem, habsent⟩ hholds
    obtain ⟨value, hvalue, _⟩ := (hexact.mp hholds).1 key hmem
    simp [habsent] at hvalue
  · intro hkeyed
    exact hexact.trans (and_iff_left fun part hpart hnone => absurd hnone (hkeyed part hpart))

end Expr

end MessageSelector
