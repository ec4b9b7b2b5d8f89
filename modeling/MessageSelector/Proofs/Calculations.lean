import MessageSelector.Proofs.Evaluation
import MessageSelector.Proofs.Parts

/-!
# Calculations with integers

A calculation is made of integer literals and identifiers by the arithmetic operators and signs.
`exact` computes it over the unbounded integers, and `Computable` says what stands against its
result: an identifier without a value, a divisor that is zero, a part whose result no word has. Read
`evaluate_calculation` for what evaluation gives: the exact result, or nothing.
-/

namespace MessageSelector

/-! ## The exact result -/

/-- The result on unbounded integers; a quotient is cut towards zero. -/
def Arithmetic.exact : Arithmetic → Int → Int → Int
  | add, a, b => a + b
  | subtract, a, b => a - b
  | multiply, a, b => a * b
  | divide, a, b => a.tdiv b

/-- The number under a sign. -/
def Sign.exact : Sign → Int → Int
  | plus, n => n
  | minus, n => -n

/-- The integer that a source has for a name. -/
def Source.integer (source : Source) (name : String) : Int :=
  match source name with
  | some (.integer number) => number.toInt
  | _ => 0

/-- An integer that a word has. -/
def Integer.Fits (n : Int) : Prop :=
  -2 ^ 63 ≤ n ∧ n < 2 ^ 63

namespace Expr

/-- Made of integer literals and identifiers by the arithmetic operators and signs. -/
inductive IsCalculation : Expr → Prop where
  | identifier (name) : IsCalculation (identifier name)
  | literal (number) : IsCalculation (literal (.integer number))
  | arithmetic (op) {left right} :
      IsCalculation left → IsCalculation right → IsCalculation (arithmetic op left right)
  | signed (sign) {operand} : IsCalculation operand → IsCalculation (signed sign operand)

/-- The result of a calculation over the unbounded integers. -/
def exact (source : Source) : Expr → Int
  | identifier name => source.integer name
  | literal (.integer number) => number.toInt
  | arithmetic op left right => op.exact (exact source left) (exact source right)
  | signed sign operand => sign.exact (exact source operand)
  | _ => 0

/-- Nothing stands against the result of a calculation. -/
structure Computable (source : Source) (e : Expr) : Prop where
  /-- Every identifier has a value. -/
  present : ∀ name, Subtree (identifier name) e → source name ≠ none
  /-- No divisor is zero. -/
  divisible : ∀ left right, Subtree (arithmetic .divide left right) e → right.exact source ≠ 0
  /-- Every intermediate result is one that a word has. -/
  fits : ∀ part, Subtree part e → Integer.Fits (part.exact source)

/-- What stands against a result is found at the top or below. -/
theorem computable_iff (source : Source) (e : Expr) :
    Computable source e ↔
      (∀ child ∈ e.children, Computable source child) ∧
        (∀ name, e = identifier name → source name ≠ none) ∧
        (∀ left right, e = arithmetic .divide left right → right.exact source ≠ 0) ∧
        Integer.Fits (e.exact source) := by
  constructor
  · rintro ⟨hpresent, hdivisible, hfits⟩
    refine ⟨fun child hchild => ?_, ?_, ?_, hfits e (.whole e)⟩
    · exact ⟨fun name h => hpresent name (.inside hchild h),
        fun left right h => hdivisible left right (.inside hchild h),
        fun part h => hfits part (.inside hchild h)⟩
    · rintro name rfl
      exact hpresent name (.whole _)
    · rintro left right rfl
      exact hdivisible left right (.whole _)
  · rintro ⟨hchildren, hpresent, hdivisible, hfits⟩
    refine ⟨fun name h => ?_, fun left right h => ?_, fun part h => ?_⟩
    all_goals obtain heq | ⟨child, hchild, hsub⟩ := (subtree_iff _ e).mp h
    · exact hpresent name heq.symm
    · exact (hchildren child hchild).present name hsub
    · exact hdivisible left right heq.symm
    · exact (hchildren child hchild).divisible left right hsub
    · exact heq ▸ hfits
    · exact (hchildren child hchild).fits part hsub

end Expr

/-! ## One step -/

/-- A word has an integer that it represents. -/
theorem Integer.fits_word (number : Int64) : Fits number.toInt :=
  ⟨number.le_toInt, number.toInt_lt⟩

/-- An integer in the range of words has a word. -/
theorem Integer.exists_word {n : Int} (h : Fits n) : ∃ number : Int64, number.toInt = n :=
  ⟨Int64.ofInt n, Int64.toInt_ofInt_of_le h.1 h.2⟩

/-- An integer becomes the word that represents it, or nothing if none does. -/
theorem Integer.narrow_cases (n : Int) :
    (Fits n ∧ ∃ number, narrow n = some number ∧ number.toInt = n) ∨
      (¬ Fits n ∧ narrow n = none) := by
  by_cases h : Fits n
  · obtain ⟨number, hnumber⟩ := exists_word h
    exact .inl ⟨h, number, (narrow_eq_some_iff n number).mpr hnumber, hnumber⟩
  · refine .inr ⟨h, (narrow_eq_none_iff n).mpr ?_⟩
    rw [Fits] at h
    omega

/-- An operator gives the exact result, except over a zero. -/
theorem Arithmetic.of_integers_eq (op : Arithmetic) (a b : Int) :
    op.ofIntegers? a b = if op = .divide ∧ b = 0 then none else some (op.exact a b) := by
  cases op <;> simp [ofIntegers?, exact]

/-- An operator on two words narrows the exact result. -/
theorem Value.arithmetic_integers (op : Arithmetic) (a b : Int64) :
    arithmetic? op (.integer a) (.integer b) =
      if op = .divide ∧ b.toInt = 0 then none
      else (Integer.narrow (op.exact a.toInt b.toInt)).map .integer := by
  rw [arithmetic?, Arithmetic.of_integers_eq]
  split <;> rfl

/-- A sign on a word narrows the exact result. -/
theorem Value.signed_integer (sign : Sign) (number : Int64) :
    signed? sign (.integer number) = (Integer.narrow (sign.exact number.toInt)).map .integer := by
  cases sign with
  | plus =>
      rw [(Integer.narrow_eq_some_iff _ number).mpr (by rfl)]
      rfl
  | minus => rfl

/-! ## The whole calculation -/

namespace Expr

variable {source : Source}

/-- Evaluation gives the exact result as a word where nothing stands against it, and nothing
otherwise. -/
def Computes (source : Source) (e : Expr) : Prop :=
  (Computable source e ∧
    ∃ number, e.evaluate source = some (.integer number) ∧ number.toInt = e.exact source) ∨
  (¬ Computable source e ∧ e.evaluate source = none)

/-- What narrows its exact result computes it. -/
theorem computes_of_narrow {e : Expr}
    (heval : e.evaluate source = (Integer.narrow (e.exact source)).map .integer)
    (hcomputable : Computable source e ↔ Integer.Fits (e.exact source)) : Computes source e := by
  obtain ⟨hfits, number, hnarrow, hvalue⟩ | ⟨hfits, hnarrow⟩ :=
    Integer.narrow_cases (e.exact source)
  · exact .inl ⟨hcomputable.mpr hfits, number, by rw [heval, hnarrow]; rfl, hvalue⟩
  · exact .inr ⟨mt hcomputable.mp hfits, by rw [heval, hnarrow]; rfl⟩

/-- An operator computes where its operands do. -/
theorem Computes.arithmetic {left right : Expr} (op : Arithmetic) (hleft : Computes source left)
    (hright : Computes source right) : Computes source (arithmetic op left right) := by
  have hcomputable := computable_iff source (.arithmetic op left right)
  simp only [children, List.mem_cons, List.not_mem_nil, or_false, forall_eq_or_imp, forall_eq,
    reduceCtorEq, false_implies, implies_true, true_and, arithmetic.injEq] at hcomputable
  obtain ⟨hl, a, hevalLeft, ha⟩ | ⟨hl, hevalLeft⟩ := hleft
  · obtain ⟨hr, b, hevalRight, hb⟩ | ⟨hr, hevalRight⟩ := hright
    · have heval : (Expr.arithmetic op left right).evaluate source =
          Value.arithmetic? op (.integer a) (.integer b) := by
        simp [evaluate, hevalLeft, hevalRight]
      rw [Value.arithmetic_integers, ha, hb] at heval
      by_cases hzero : op = .divide ∧ right.exact source = 0
      · rw [if_pos hzero] at heval
        refine .inr ⟨fun h => ?_, heval⟩
        exact (hcomputable.mp h).2.1 left right ⟨hzero.1, rfl, rfl⟩ hzero.2
      · rw [if_neg hzero] at heval
        refine computes_of_narrow heval ⟨fun h => (hcomputable.mp h).2.2, fun h => ?_⟩
        refine hcomputable.mpr ⟨⟨hl, hr⟩, ?_, h⟩
        rintro _ _ ⟨hdivide, rfl, rfl⟩ hvalue
        exact hzero ⟨hdivide, hvalue⟩
    · refine .inr ⟨fun h => hr (hcomputable.mp h).1.2, ?_⟩
      simp [evaluate, hevalRight]
  · refine .inr ⟨fun h => hl (hcomputable.mp h).1.1, ?_⟩
    simp [evaluate, hevalLeft]

/-- A sign computes where its operand does. -/
theorem Computes.signed {operand : Expr} (sign : Sign) (h : Computes source operand) :
    Computes source (signed sign operand) := by
  have hcomputable := computable_iff source (.signed sign operand)
  simp only [children, List.forall_mem_singleton, reduceCtorEq, false_implies, implies_true,
    true_and] at hcomputable
  obtain ⟨hoperand, number, heval, hvalue⟩ | ⟨hoperand, heval⟩ := h
  · refine computes_of_narrow ?_ (hcomputable.trans (and_iff_right hoperand))
    rw [evaluate, heval, Option.bind_some, Value.signed_integer, hvalue]
    rfl
  · refine .inr ⟨fun h => hoperand (hcomputable.mp h).1, ?_⟩
    rw [evaluate, heval, Option.bind_none]

/-- A calculation computes its result on a source of integers. -/
theorem computes_of_calculation {e : Expr} (h : IsCalculation e)
    (hsource : ∀ name, Subtree (identifier name) e →
      source name = none ∨ ∃ number, source name = some (.integer number)) :
    Computes source e := by
  induction h with
  | identifier name =>
      have hcomputable := computable_iff source (.identifier name)
      obtain habsent | ⟨number, hnumber⟩ := hsource name (.whole _)
      · refine .inr ⟨fun h => (hcomputable.mp h).2.1 name rfl habsent, ?_⟩
        rw [evaluate, habsent]
      · have hexact : number.toInt = (Expr.identifier name).exact source := by
          simp [exact, Source.integer, hnumber]
        refine .inl ⟨hcomputable.mpr ⟨by simp [children], ?_, by simp, ?_⟩, number, ?_, hexact⟩
        · rintro _ ⟨rfl⟩
          simp [hnumber]
        · exact hexact ▸ Integer.fits_word number
        · rw [evaluate, hnumber]
  | literal number =>
      exact .inl ⟨(computable_iff _ _).mpr ⟨by simp [children], by simp, by simp,
        Integer.fits_word number⟩, number, rfl, rfl⟩
  | arithmetic op _ _ ihLeft ihRight =>
      exact .arithmetic op
        (ihLeft fun name hsub => hsource name (.inside (by simp [children]) hsub))
        (ihRight fun name hsub => hsource name (.inside (by simp [children]) hsub))
  | signed sign _ ih =>
      exact .signed sign (ih fun name hsub => hsource name (.inside (by simp [children]) hsub))

/-- Evaluation of a calculation gives an integer just where every identifier has a value, no divisor
is zero and every intermediate result is one that a word has. The integer is the exact result. In
every other case there is no value, and every comparison with it is unknown. -/
theorem evaluate_calculation {e : Expr} (h : IsCalculation e)
    (hsource : ∀ name, Subtree (identifier name) e →
      source name = none ∨ ∃ number, source name = some (.integer number)) :
    (∀ number, e.evaluate source = some (.integer number) ↔
      Computable source e ∧ number.toInt = e.exact source) ∧
    (Computable source e → ∃ number, e.evaluate source = some (.integer number)) ∧
    (¬ Computable source e →
      e.evaluate source = none ∧
        (∀ op other, (comparison op e other).truth source = .unknown ∧
          (comparison op other e).truth source = .unknown) ∧
        ∀ low high negated, (between e low high negated).truth source = .unknown) := by
  obtain ⟨hcomputable, number, heval, hvalue⟩ | ⟨hcomputable, heval⟩ :=
    computes_of_calculation h hsource
  · refine ⟨fun other => ?_, fun _ => ⟨number, heval⟩, fun hnot => absurd hcomputable hnot⟩
    rw [heval, and_iff_right hcomputable, ← hvalue, Int64.toInt_inj]
    simp [eq_comm]
  · refine ⟨fun other => ?_, fun h => absurd h hcomputable,
      fun _ => ⟨heval, fun op other => ?_, ?_⟩⟩
    · rw [heval]
      simp [hcomputable]
    · rw [truth_comparison, truth_comparison, heval]
      cases other.evaluate source <;> exact ⟨rfl, rfl⟩
    · intro low high negated
      rw [truth_between, heval]
      cases negated <;> rfl

/-- The square of a number of 33 bits is out of range, and dividing it by the number does not bring
it back. -/
theorem evaluate_square_out_of_range :
    let source : Source := fun _ => some (.integer 4294967296)
    let square := arithmetic .multiply (identifier "size") (identifier "size")
    let root := arithmetic .divide square (identifier "size")
    root.exact source = 4294967296 ∧ root.evaluate source = none ∧
      (comparison .equal root (identifier "size")).truth source = .unknown := by
  intro source square root
  have hsquare : ¬ Integer.Fits (square.exact source) := fun h => absurd h.2 (by decide)
  have hcalculation : IsCalculation root :=
    .arithmetic .divide (.arithmetic .multiply (.identifier _) (.identifier _)) (.identifier _)
  have hroot := (evaluate_calculation hcalculation fun _ _ => .inr ⟨4294967296, rfl⟩).2.2
    fun h => hsquare (h.fits square (.inside (by simp [root, children]) (.whole _)))
  exact ⟨by decide, hroot.1, (hroot.2.1 _ _).1⟩

end Expr

end MessageSelector
