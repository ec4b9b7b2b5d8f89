import MessageSelector.Proofs.Doubles.Zeros
import MessageSelector.Proofs.Evaluation
import MessageSelector.Proofs.RoundTrip
import MessageSelector.Proofs.Sameness
import MessageSelector.Selector

/-!
# What equal selectors share

Selectors are equal when their expressions are the same up to the sameness of values, and that takes
the two floating-point zeros for one. Canonical text tells the zeros apart, and so does a division.
So equal selectors select the same messages where nothing is divided, and are the same selector
where their zeros have the same signs.
-/

namespace MessageSelector

/-! ## Values -/

namespace Value

/-- Two values, if they are there at all, agree but for the sign of a zero. -/
inductive Alike : Option Value → Option Value → Prop where
  | same (value) : Alike value value
  | floats {x y} : Double.Alike x y → Alike (some (.float x)) (some (.float y))

/-- Values that are the same agree. -/
theorem alike_of_beq {a b : Value} (h : (a == b) = true) : Alike (some a) (some b) := by
  obtain rfl | ⟨x, y, rfl, rfl, hxy⟩ := eq_or_doubles_of_beq h
  · exact .same _
  · exact .floats (Double.alike_of_beq hxy)

/-- The outcome of a comparison of numbers in a given order, if they are in one. -/
def orderOutcome (op : Comparison) : Option Ordering → Truth
  | some order => .ofBool (op.accepts order)
  | none => .ofBool (op = .notEqual)

/-- A double on the right is compared as doubles are. -/
theorem compare_float_right (op : Comparison) (a : Value) (y : Float) :
    a.compare op (.float y) =
      match a.double? with
      | some x => orderOutcome op (doubleOrder? x y)
      | none => .unknown := by
  cases a <;> simp only [compare, double?] <;> unfold orderOutcome <;> split <;> simp_all

/-- A double on the left is compared as doubles are. -/
theorem compare_float_left (op : Comparison) (x : Float) (b : Value) :
    compare op (.float x) b =
      match b.double? with
      | some y => orderOutcome op (doubleOrder? x y)
      | none => .unknown := by
  cases b <;> simp only [compare, double?] <;> unfold orderOutcome <;> split <;> simp_all

variable {a a' b b' : Option Value}

/-- A comparison does not depend on the sign of a zero on its right. -/
theorem Alike.compare_right (op : Comparison) (a : Option Value) (hb : Alike b b') :
    compare? op a b = compare? op a b' := by
  cases hb with
  | same => rfl
  | floats hy =>
      cases a with
      | none => rfl
      | some value =>
          simp only [compare?, compare_float_right]
          cases value.double? with
          | none => rfl
          | some x => exact congrArg (orderOutcome op) (Double.Alike.rfl.order_eq hy)

/-- A comparison does not depend on the sign of a zero on its left. -/
theorem Alike.compare_left (op : Comparison) (ha : Alike a a') (b : Option Value) :
    compare? op a b = compare? op a' b := by
  cases ha with
  | same => rfl
  | floats hx =>
      cases b with
      | none => rfl
      | some value =>
          simp only [compare?, compare_float_left]
          cases value.double? with
          | none => rfl
          | some y => exact congrArg (orderOutcome op) (hx.order_eq Double.Alike.rfl)

/-- A comparison of values that agree has one outcome. -/
theorem Alike.compare_eq (op : Comparison) (ha : Alike a a') (hb : Alike b b') :
    compare? op a b = compare? op a' b' :=
  (ha.compare_left op b).trans (hb.compare_right op a')

/-- No number is a condition, so values that agree have one outcome. -/
theorem Alike.of_value_eq (h : Alike a b) : Truth.ofValue? a = Truth.ofValue? b := by
  cases h <;> rfl

/-- No number is a string, so values that agree pass the same tests of strings. -/
theorem Alike.test_string_eq (h : Alike a b) (test : String → Bool) :
    testString? a test = testString? b test := by
  cases h <;> rfl

/-- Values that agree are absent together. -/
theorem Alike.is_none_eq (h : Alike a b) : a.isNone = b.isNone := by
  cases h <;> rfl

/-- Values that agree do so under a sign. -/
theorem Alike.signed (h : Alike a b) (sign : Sign) :
    Alike (a.bind (signed? sign)) (b.bind (signed? sign)) := by
  cases h with
  | same => exact .same _
  | floats hx =>
      cases sign with
      | plus => exact .floats hx
      | minus => exact .floats hx.neg

/-- The result of an operator on operands that may be absent. -/
def arithmeticOf? (op : Arithmetic) (a b : Option Value) : Option Value := do
  (← a).arithmetic? op (← b)

/-- A result with a double on the left is that of the doubles. -/
theorem arithmetic_float_left (op : Arithmetic) (x : Float) (b : Option Value) :
    arithmeticOf? op (some (.float x)) b =
      (b.bind double?).map fun y => float (op.ofDoubles x y) := by
  rcases b with _ | _ | _ | _ | _ <;> simp [arithmeticOf?, arithmetic?, double?]

/-- A result with a double on the right is that of the doubles. -/
theorem arithmetic_float_right (op : Arithmetic) (a : Option Value) (y : Float) :
    arithmeticOf? op a (some (.float y)) =
      (a.bind double?).map fun x => float (op.ofDoubles x y) := by
  rcases a with _ | _ | _ | _ | _ <;> simp [arithmeticOf?, arithmetic?, double?]

/-- Results of values that agree on the left do so again. -/
theorem Alike.arithmetic_left (op : Arithmetic) (ha : Alike a a') (b : Option Value) :
    Alike (arithmeticOf? op a b) (arithmeticOf? op a' b) := by
  cases ha with
  | same => exact .same _
  | floats hx =>
      rw [arithmetic_float_left, arithmetic_float_left]
      cases b.bind double? with
      | none =>
          rw [Option.map_none, Option.map_none]
          exact .same _
      | some y => exact .floats (hx.of_doubles_left op y)

/-- Results of values that agree on the right do so again, quotients apart. -/
theorem Alike.arithmetic_right {op : Arithmetic} (hop : op ≠ .divide) (a : Option Value)
    (hb : Alike b b') : Alike (arithmeticOf? op a b) (arithmeticOf? op a b') := by
  cases hb with
  | same => exact .same _
  | floats hy =>
      rw [arithmetic_float_right, arithmetic_float_right]
      cases a.bind double? with
      | none =>
          rw [Option.map_none, Option.map_none]
          exact .same _
      | some x => exact .floats (.of_doubles_right hop x hy)

/-- Agreement is passed on one after the other. -/
theorem Alike.trans {c : Option Value} (hab : Alike a b) (hbc : Alike b c) : Alike a c := by
  cases hab with
  | same => exact hbc
  | floats hx =>
      cases hbc with
      | same => exact .floats hx
      | floats hy => exact .floats (hx.trans hy)

/-- The signs of the zeros in a literal: of one, if the literal is a floating-point zero. -/
def zeroSigns : Value → List Sign
  | float number => Double.zeroSigns number
  | string _ | integer _ | boolean _ => []

end Value

namespace Expr

/-! ## Expressions -/

/-- Two expressions agree but for the signs of zeros among their literals. -/
inductive Alike : Expr → Expr → Prop where
  | identifier (name) : Alike (identifier name) (identifier name)
  | literal {a b} : Value.Alike (some a) (some b) → Alike (literal a) (literal b)
  | not {a b} : Alike a b → Alike (not a) (not b)
  | and {a b c d} : Alike a c → Alike b d → Alike (and a b) (and c d)
  | or {a b c d} : Alike a c → Alike b d → Alike (or a b) (or c d)
  | comparison (op) {a b c d} :
      Alike a c → Alike b d → Alike (comparison op a b) (comparison op c d)
  | arithmetic (op) {a b c d} :
      Alike a c → Alike b d → Alike (arithmetic op a b) (arithmetic op c d)
  | signed (sign) {a b} : Alike a b → Alike (signed sign a) (signed sign b)
  | between (negated) {a low high b low' high'} :
      Alike a b → Alike low low' → Alike high high' →
      Alike (between a low high negated) (between b low' high' negated)
  | inList (items negated) {a b} :
      Alike a b → Alike (inList a items negated) (inList b items negated)
  | like (pattern negated) {a b} :
      Alike a b → Alike (like a pattern negated) (like b pattern negated)
  | isNull (negated) {a b} : Alike a b → Alike (isNull a negated) (isNull b negated)

/-- Expressions that are the same agree. -/
theorem alike_of_same {e f : Expr} (h : e.same f = true) : Alike e f := by
  have hmatches := matches_of_same h
  clear h
  induction hmatches with
  | identifier name => exact .identifier name
  | literal hvalue => exact .literal (Value.alike_of_beq hvalue)
  | not _ ih => exact .not ih
  | and _ _ ih ih' => exact .and ih ih'
  | or _ _ ih ih' => exact .or ih ih'
  | comparison op _ _ ih ih' => exact .comparison op ih ih'
  | arithmetic op _ _ ih ih' => exact .arithmetic op ih ih'
  | signed sign _ ih => exact .signed sign ih
  | between negated _ _ _ ih ihLow ihHigh => exact .between negated ih ihLow ihHigh
  | inList items negated _ ih => exact .inList items negated ih
  | like negated htext hescape _ ih =>
      obtain rfl := pattern_eq htext hescape
      exact .like _ negated ih
  | isNull negated _ ih => exact .isNull negated ih

/-- The signs of the floating-point zeros among the literals, from left to right. -/
def zeroSigns : Expr → List Sign
  | identifier _ => []
  | literal value => value.zeroSigns
  | not a | signed _ a | inList a _ _ | like a _ _ | isNull a _ => zeroSigns a
  | and a b | or a b | comparison _ a b | arithmetic _ a b => zeroSigns a ++ zeroSigns b
  | between a low high _ => zeroSigns a ++ (zeroSigns low ++ zeroSigns high)

/-- The signs of the floating-point zeros among the literals of divisors, from left to right. -/
def divisorSigns : Expr → List Sign
  | identifier _ | literal _ => []
  | not a | signed _ a | inList a _ _ | like a _ _ | isNull a _ => divisorSigns a
  | and a b | or a b | comparison _ a b => divisorSigns a ++ divisorSigns b
  | arithmetic op a b =>
    divisorSigns a ++ if op = .divide then zeroSigns b else divisorSigns b
  | between a low high _ => divisorSigns a ++ (divisorSigns low ++ divisorSigns high)

variable {e f : Expr}

/-- Expressions that agree have as many zeros as each other. -/
theorem Alike.length_zero_signs (h : Alike e f) : e.zeroSigns.length = f.zeroSigns.length := by
  induction h with
  | identifier => rfl
  | literal hvalue =>
      cases hvalue with
      | same => rfl
      | floats hx => exact hx.length_zero_signs
  | not _ ih | signed _ _ ih | inList _ _ _ ih | like _ _ _ ih | isNull _ _ ih => exact ih
  | and _ _ ih ih' | or _ _ ih ih' | comparison _ _ _ ih ih' | arithmetic _ _ _ ih ih' =>
      simp only [zeroSigns, List.length_append, ih, ih']
  | between _ _ _ _ ih ihLow ihHigh => simp only [zeroSigns, List.length_append, ih, ihLow, ihHigh]

/-- Expressions that agree have as many zeros in their divisors as each other. -/
theorem Alike.length_divisor_signs (h : Alike e f) :
    e.divisorSigns.length = f.divisorSigns.length := by
  induction h with
  | identifier | literal => rfl
  | not _ ih | signed _ _ ih | inList _ _ _ ih | like _ _ _ ih | isNull _ _ ih => exact ih
  | and _ _ ih ih' | or _ _ ih ih' | comparison _ _ _ ih ih' =>
      simp only [divisorSigns, List.length_append, ih, ih']
  | arithmetic op _ hb ih ih' =>
      simp only [divisorSigns, List.length_append, ih, apply_ite List.length,
        hb.length_zero_signs, ih']
  | between _ _ _ _ ih ihLow ihHigh =>
      simp only [divisorSigns, List.length_append, ih, ihLow, ihHigh]

/-- Expressions that agree, zero for zero in sign, are one expression. -/
theorem Alike.eq_of_zero_signs (h : Alike e f) (hsigns : e.zeroSigns = f.zeroSigns) : e = f := by
  induction h with
  | identifier => rfl
  | literal hvalue =>
      cases hvalue with
      | same => rfl
      | floats hx => rw [hx.eq_of_zero_signs hsigns]
  | not _ ih | signed _ _ ih | inList _ _ _ ih | like _ _ _ ih | isNull _ _ ih => rw [ih hsigns]
  | and ha _ ih ih' | or ha _ ih ih' | comparison _ ha _ ih ih' | arithmetic _ ha _ ih ih' =>
      obtain ⟨hleft, hright⟩ := List.append_inj hsigns ha.length_zero_signs
      rw [ih hleft, ih' hright]
  | between _ ha hlow _ ih ihLow ihHigh =>
      obtain ⟨hoperand, hbounds⟩ := List.append_inj hsigns ha.length_zero_signs
      obtain ⟨hlows, hhighs⟩ := List.append_inj hbounds hlow.length_zero_signs
      rw [ih hoperand, ihLow hlows, ihHigh hhighs]

/-- Expressions that agree, zero for zero in sign where they divide, have values that agree. -/
theorem Alike.evaluate (h : Alike e f) (hsigns : e.divisorSigns = f.divisorSigns)
    (source : Source) : Value.Alike (e.evaluate source) (f.evaluate source) := by
  -- A condition has one outcome whatever the signs of zeros, so only numbers carry them upwards.
  induction h with
  | identifier => exact .same _
  | literal hvalue => exact hvalue
  | not _ ih =>
      unfold Expr.evaluate
      rw [(ih hsigns).of_value_eq]
      exact .same _
  | and ha _ ih ih' | or ha _ ih ih' =>
      obtain ⟨hleft, hright⟩ := List.append_inj hsigns ha.length_divisor_signs
      unfold Expr.evaluate
      rw [(ih hleft).of_value_eq, (ih' hright).of_value_eq]
      exact .same _
  | comparison op ha _ ih ih' =>
      obtain ⟨hleft, hright⟩ := List.append_inj hsigns ha.length_divisor_signs
      unfold Expr.evaluate
      rw [(ih hleft).compare_eq op (ih' hright)]
      exact .same _
  | @arithmetic op a b c d ha hb ih ih' =>
      obtain ⟨hleft, hright⟩ := List.append_inj hsigns ha.length_divisor_signs
      have hexchanged := (ih hleft).arithmetic_left op (b.evaluate source)
      by_cases hop : op = .divide
      · rw [if_pos hop, if_pos hop] at hright
        obtain rfl := hb.eq_of_zero_signs hright
        exact hexchanged
      · rw [if_neg hop, if_neg hop] at hright
        exact hexchanged.trans ((ih' hright).arithmetic_right hop (c.evaluate source))
  | signed sign _ ih => exact (ih hsigns).signed sign
  | between negated ha hlow _ ih ihLow ihHigh =>
      obtain ⟨hoperand, hbounds⟩ := List.append_inj hsigns ha.length_divisor_signs
      obtain ⟨hlows, hhighs⟩ := List.append_inj hbounds hlow.length_divisor_signs
      unfold Expr.evaluate
      dsimp only
      rw [(ih hoperand).compare_eq _ (ihLow hlows), (ih hoperand).compare_eq _ (ihHigh hhighs)]
      exact .same _
  | inList items _ _ ih =>
      unfold Expr.evaluate
      rw [(ih hsigns).test_string_eq]
      exact .same _
  | like pattern _ _ ih =>
      unfold Expr.evaluate
      rw [(ih hsigns).test_string_eq]
      exact .same _
  | isNull _ _ ih =>
      unfold Expr.evaluate
      rw [(ih hsigns).is_none_eq]
      exact .same _

/-- Well-formed expressions with one canonical text are one expression. -/
theorem render_injective (he : e.WellFormed) (hf : f.WellFormed) (h : e.render = f.render) :
    e = f := by
  obtain ⟨p, ps, stop, hps, -, hp, hmeaning⟩ := he.scan_render
  obtain ⟨q, qs, stop', hqs, -, hq, hmeaning'⟩ := hf.scan_render
  -- The text is scanned once, and its tokens are those of one phrase.
  have hofTokens := Phrase.of_tokens_complete hp stop
  rw [← hps, h, hqs, Phrase.of_tokens_complete hq stop'] at hofTokens
  cases hofTokens
  rw [h, hmeaning'] at hmeaning
  cases hmeaning
  rfl

end Expr

namespace Selector

/-! ## Selectors -/

/-- The signs of the floating-point zeros among the literals, from left to right. -/
def zeroSigns (selector : Selector) : List Sign :=
  selector.expr.elim [] Expr.zeroSigns

/-- The signs of the floating-point zeros among the literals of divisors, from left to right. -/
def divisorSigns (selector : Selector) : List Sign :=
  selector.expr.elim [] Expr.divisorSigns

/-- Two selectors both select every message, or their expressions agree but for the signs of zeros
among the literals. -/
inductive Alike : Selector → Selector → Prop where
  | matchAll : Alike ⟨none⟩ ⟨none⟩
  | expr {e e'} : e.Alike e' → Alike ⟨some e⟩ ⟨some e'⟩

/-- Equal selectors agree. -/
theorem alike_of_beq {s s' : Selector} (h : (s == s') = true) : s.Alike s' := by
  obtain ⟨_ | e⟩ := s
  · obtain ⟨_ | e'⟩ := s'
    · exact .matchAll
    · cases h
  · obtain ⟨_ | e'⟩ := s'
    · cases h
    · exact .expr (Expr.alike_of_same h)

/-- The expression of a compiled selector is well formed. -/
theorem well_formed_of_compile {text : String} {e : Expr} (h : compile text = .ok ⟨some e⟩) :
    e.WellFormed := by
  have hparse : Expr.parse text = .ok (some e) := by
    unfold compile at h
    cases hfound : Expr.parse text with
    | error rejection =>
        rw [hfound] at h
        cases h
    | ok result =>
        rw [hfound] at h
        cases h
        rfl
  obtain ⟨-, phrase, tokens, stop, htokens, hspells, hmeaning⟩ :=
    Expr.of_chars_ok (Expr.of_parse_ok hparse)
  exact Expr.well_formed_of_scan htokens hspells hmeaning

/-- Equal selectors agree but for the signs of zeros among their literals. They have one outcome on
every source if the zeros they divide by have the same signs, and one canonical text just if all
their zeros do. -/
theorem truth_eq_of_beq {text text' : String} {s s' : Selector} (hs : compile text = .ok s)
    (hs' : compile text' = .ok s') (h : (s == s') = true) :
    s.Alike s' ∧
    (s.divisorSigns = s'.divisorSigns → ∀ source,
      s.truth source = s'.truth source ∧ s.selects source = s'.selects source) ∧
    (s.render = s'.render ↔ s.zeroSigns = s'.zeroSigns) := by
  have halike := alike_of_beq h
  refine ⟨halike, ?_⟩
  cases halike with
  | matchAll => exact ⟨fun _ _ => ⟨rfl, rfl⟩, fun _ => rfl, fun _ => rfl⟩
  | @expr e e' halike =>
      refine ⟨fun hsigns source => ?_, fun hrender => ?_, fun hsigns => ?_⟩
      · have htruth : e.truth source = e'.truth source :=
          (halike.evaluate hsigns source).of_value_eq
        exact ⟨htruth, congrArg Truth.isHolds htruth⟩
      · obtain rfl :=
          Expr.render_injective (well_formed_of_compile hs) (well_formed_of_compile hs') hrender
        rfl
      · rw [halike.eq_of_zero_signs hsigns]

/-- A text that compiles to something has a selector. -/
theorem compile_of_to_option {text : String} {s : Selector} (h : (compile text).toOption = some s) :
    compile text = .ok s := by
  cases hcompile : compile text with
  | error rejection =>
      rw [hcompile] at h
      cases h
  | ok found =>
      rw [hcompile] at h
      cases h
      rfl

/-- A product has one outcome whichever zero is a factor of it. -/
theorem truth_eq_of_beq_product :
    ∃ s s', compile "a * 0.0 = 0" = .ok s ∧ compile "a * -0.0 = 0" = .ok s' ∧
      (s == s') = true ∧ (∀ source, s.truth source = s'.truth source) ∧ s.render ≠ s'.render := by
  have hleft : (compile "a * 0.0 = 0").toOption.map (fun s => (s.zeroSigns, s.divisorSigns)) =
      some ([.plus], []) := by
    decide +kernel
  have hright : (compile "a * -0.0 = 0").toOption.map (fun s => (s.zeroSigns, s.divisorSigns)) =
      some ([.minus], []) := by
    decide +kernel
  have hbeq : ((compile "a * 0.0 = 0").toOption == (compile "a * -0.0 = 0").toOption) = true := by
    decide +kernel
  obtain ⟨s, hs, hsigns⟩ := Option.map_eq_some_iff.mp hleft
  obtain ⟨s', hs', hsigns'⟩ := Option.map_eq_some_iff.mp hright
  obtain ⟨hzeros, hdivisors⟩ := Prod.mk.inj hsigns
  obtain ⟨hzeros', hdivisors'⟩ := Prod.mk.inj hsigns'
  rw [hs, hs'] at hbeq
  obtain ⟨-, htruth, hrender⟩ :=
    truth_eq_of_beq (compile_of_to_option hs) (compile_of_to_option hs') hbeq
  refine ⟨s, s', compile_of_to_option hs, compile_of_to_option hs', hbeq, fun source => ?_, ?_⟩
  · exact (htruth (hdivisors.trans hdivisors'.symm) source).1
  · rw [Ne, hrender, hzeros, hzeros']
    decide

/-- Either zero is found equal to the other, and a number divided by them is infinite on either
side. -/
theorem quotients_of_equal_zeros :
    ∃ s s', compile "1 / 0.0 > 0" = .ok s ∧ compile "1 / -0.0 > 0" = .ok s' ∧
      (s == s') = true ∧ s.truth (fun _ => none) = .holds ∧ s'.truth (fun _ => none) = .fails ∧
      s.render = "1 / 0.0 > 0" ∧ s'.render = "1 / -0.0 > 0" := by
  have hleft : (compile "1 / 0.0 > 0").toOption.map (fun s => (s.truth fun _ => none, s.render)) =
      some (.holds, "1 / 0.0 > 0") := by
    decide +kernel
  have hright : (compile "1 / -0.0 > 0").toOption.map (fun s => (s.truth fun _ => none, s.render)) =
      some (.fails, "1 / -0.0 > 0") := by
    decide +kernel
  have hbeq : ((compile "1 / 0.0 > 0").toOption == (compile "1 / -0.0 > 0").toOption) = true := by
    decide +kernel
  obtain ⟨s, hs, hshown⟩ := Option.map_eq_some_iff.mp hleft
  obtain ⟨s', hs', hshown'⟩ := Option.map_eq_some_iff.mp hright
  obtain ⟨htruth, hrender⟩ := Prod.mk.inj hshown
  obtain ⟨htruth', hrender'⟩ := Prod.mk.inj hshown'
  rw [hs, hs'] at hbeq
  exact ⟨s, s', compile_of_to_option hs, compile_of_to_option hs', hbeq, htruth, htruth', hrender,
    hrender'⟩

end Selector

end MessageSelector
