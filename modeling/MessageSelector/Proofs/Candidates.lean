import Mathlib.Data.List.Nodup
import MessageSelector.Proofs.KeyWalks
import MessageSelector.Proofs.WellFormed

/-!
# Candidates of keys

A message is found under a key once for each candidate that its value equals, so no two candidates
may equal one value. `distinct_first_occurrences` says what is left of a list when the later
occurrences of its members are left out, and `count_candidates_le_one` that a key has no candidate
twice, as selectors compare values.
-/

namespace MessageSelector

/-- The members of a list without repetition, in the order in which they occur first. -/
structure FirstOccurrences (texts items : List String) : Prop where
  mem_iff : ∀ text, text ∈ texts ↔ text ∈ items
  nodup : texts.Nodup
  ordered : texts.Pairwise fun a b => items.idxOf a < items.idxOf b

namespace Expr

/-- A further item is left out just if it was there before. -/
theorem distinct_concat (items : List String) (item : String) :
    distinct (items ++ [item]) =
      if item ∈ items then distinct items else distinct items ++ [item] := by
  have hseen : (items.foldl (fun seen item => if seen.contains item then seen else item :: seen)
      []).contains item = true ↔ item ∈ items := by
    rw [List.contains_iff_mem, ← List.mem_reverse]
    exact mem_distinct item items
  unfold distinct
  rw [List.foldl_append, List.foldl_cons, List.foldl_nil]
  by_cases hitem : item ∈ items
  · rw [if_pos hitem, if_pos (hseen.mpr hitem)]
  · rw [if_neg hitem, if_neg (mt hseen.mp hitem), List.reverse_cons]

/-- What is left of a list are its members at their first occurrences. -/
theorem distinct_first_occurrences (items : List String) :
    FirstOccurrences (distinct items) items := by
  induction items using List.reverseRecOn with
  | nil => exact ⟨fun text => mem_distinct text [], List.nodup_nil, .nil⟩
  | append_singleton items item ih =>
      -- A further item moves no first occurrence.
      have hplaces : (distinct items).Pairwise fun a b =>
          (items ++ [item]).idxOf a < (items ++ [item]).idxOf b := by
        refine ih.ordered.imp_of_mem fun ha hb hlt => ?_
        rwa [List.idxOf_append_of_mem ((ih.mem_iff _).mp ha),
          List.idxOf_append_of_mem ((ih.mem_iff _).mp hb)]
      have hmem := fun text => mem_distinct text (items ++ [item])
      rw [distinct_concat] at hmem ⊢
      by_cases hitem : item ∈ items
      · rw [if_pos hitem] at hmem ⊢
        exact ⟨hmem, ih.nodup, hplaces⟩
      · have hfresh : item ∉ distinct items := mt (ih.mem_iff item).mp hitem
        rw [if_neg hitem] at hmem ⊢
        refine ⟨hmem, List.nodup_append.mpr ⟨ih.nodup, List.nodup_singleton item, ?_⟩, ?_⟩
        · intro text htext other hother heq
          obtain rfl := List.mem_singleton.mp hother
          exact hfresh (heq ▸ htext)
        · refine List.pairwise_append.mpr ⟨hplaces, List.pairwise_singleton _ _, ?_⟩
          intro text htext other hother
          obtain rfl := List.mem_singleton.mp hother
          have hin : text ∈ items := (ih.mem_iff text).mp htext
          rw [List.idxOf_append_of_mem hin, List.idxOf_append_of_notMem hitem, List.idxOf_cons_self,
            Nat.add_zero]
          exact List.idxOf_lt_length_of_mem hin

/-- Of different strings at most one equals a value. -/
theorem count_strings_le_one {texts : List String} (h : texts.Nodup) (value : Value) :
    (texts.map Value.string).countP (·.equals value) ≤ 1 := by
  cases value with
  | string text =>
      have hcount : (texts.map Value.string).countP (·.equals (.string text)) =
          texts.count text := by
        rw [List.countP_map, List.count]
        refine List.countP_congr fun other _ => ?_
        rw [Function.comp_apply, equals_string_iff, Value.string.injEq, beq_iff_eq, eq_comm]
      rw [hcount]
      exact List.nodup_iff_count_le_one.mp h text
  | _ =>
      rw [List.countP_eq_zero.mpr]
      · exact Nat.zero_le 1
      · intro candidate hcandidate
        obtain ⟨text, -, rfl⟩ := List.mem_map.mp hcandidate
        rw [equals_string_iff]
        simp

/-- No two candidates that a condition offers equal one value. -/
theorem count_candidates_le_one {part : Expr} {key : IndexKey} (h : Offers part key)
    (value : Value) : key.candidates.countP (·.equals value) ≤ 1 := by
  cases h with
  | literal | mirrored => exact List.countP_le_length
  | list name items => exact count_strings_le_one (distinct_first_occurrences items).nodup value

/-- A well-formed condition that offers anything offers a candidate. -/
theorem candidates_ne_nil {part : Expr} {key : IndexKey} (hpart : part.WellFormed)
    (h : Offers part key) : key.candidates ≠ [] := by
  cases h with
  | literal | mirrored => exact List.cons_ne_nil _ _
  | list name items =>
      obtain ⟨item, hitem⟩ := List.exists_mem_of_ne_nil items hpart.2.2
      rw [Ne, List.map_eq_nil_iff]
      exact List.ne_nil_of_mem ((mem_distinct item items).mpr hitem)

/-- The conjuncts of a well-formed expression are well formed. -/
theorem well_formed_of_conjunct {e part : Expr} (he : e.WellFormed) (h : part ∈ e.conjuncts) :
    part.WellFormed := by
  induction e with
  | and left right ihLeft ihRight =>
      rw [conjuncts_and, List.mem_append] at h
      exact h.elim (ihLeft he.1) (ihRight he.2)
  | _ =>
      rw [conjuncts_of_leaf (by simp), List.mem_singleton] at h
      exact h ▸ he

/-- A key is that of a conjunct which offers it. -/
theorem mem_keys_iff (e : Expr) (key : IndexKey) :
    key ∈ e.keys ↔ ∃ part ∈ e.conjuncts, Offers part key := by
  simp only [keys, List.mem_filterMap, key_eq_some_iff]

/-- Every key is offered by a conjunct, and a value equals at most one of its candidates. The
candidates that a list test offers are the members of its list at their first occurrences, so its
key admits the strings in the list. In the expression of a text every key has a candidate. -/
theorem candidates_exclusive (e : Expr) :
    (∀ key, key ∈ e.keys ↔ ∃ part ∈ e.conjuncts, Offers part key) ∧
      (∀ key ∈ e.keys, ∀ value, key.candidates.countP (·.equals value) ≤ 1) ∧
      (∀ name items key, Offers (inList (identifier name) items false) key → key.name = name ∧
        (∃ texts, key.candidates = texts.map .string ∧ FirstOccurrences texts items) ∧
        ∀ value, key.admits value = true ↔ ∃ text ∈ items, value = .string text) ∧
      (∀ text, parse text = .ok (some e) → ∀ key ∈ e.keys, key.candidates ≠ []) := by
  refine ⟨mem_keys_iff e, fun key hkey value => ?_, fun name items key hoffers => ?_,
    fun text htext key hkey => ?_⟩
  · obtain ⟨part, -, hoffers⟩ := (mem_keys_iff e key).mp hkey
    exact count_candidates_le_one hoffers value
  · cases hoffers
    refine ⟨rfl, ⟨distinct items, rfl, distinct_first_occurrences items⟩, fun value => ?_⟩
    simp only [admits_strings_iff, mem_distinct]
  · obtain ⟨part, hpart, hoffers⟩ := (mem_keys_iff e key).mp hkey
    obtain ⟨-, phrase, tokens, stop, hscan, hspells, hmeaning⟩ := of_chars_ok (of_parse_ok htext)
    have hformed := well_formed_of_scan hscan hspells hmeaning
    exact candidates_ne_nil (well_formed_of_conjunct hformed hpart) hoffers

end Expr

end MessageSelector
