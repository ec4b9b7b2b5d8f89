import MessageSelector.Proofs.Doubles.Integers
import MessageSelector.Proofs.Evaluation

/-!
# The order of numbers

Two integers are compared as they are, and any other two numbers as doubles. Each of these orders is
one of its own, and greater integers become no smaller doubles, so the two go together but for one
thing: integers that become the same double differ, and a double is equal to both. `Conflated` are
two such integers with a double between them, and `order_of_numbers` says that nothing else upsets
the order.
-/

namespace MessageSelector

/-- The outcome for operands in an order, or in none if one of them is the undefined number. -/
def Comparison.decided (op : Comparison) : Option Ordering → Truth
  | some order => .ofBool (op.accepts order)
  | none => .ofBool (op = notEqual)

namespace Value

/-! ## One order -/

/-- Both values are numeric, of one numeric type or of two. -/
def BothNumeric (a b : Value) : Prop :=
  a.isNumeric = true ∧ b.isNumeric = true

/-- The order of two numeric values. Only of two integers it is that of the integers themselves. -/
def numericOrder? : Value → Value → Option Ordering
  | integer m, integer n => some (Ord.compare m.toInt n.toInt)
  | a, b => do doubleOrder? (← a.double?) (← b.double?)

/-- A number of either type, and not the undefined one. -/
def IsNumber : Value → Prop
  | integer _ => True
  | float x => x.isNaN = false
  | string _ | boolean _ => False

/-- Every integer is a number. -/
theorem is_number_integer (number : Int64) : (integer number).IsNumber :=
  trivial

/-- The place of a number among the doubles, an integer being in the place of the nearest one. -/
def rank : Value → Int
  | integer number => Double.rank (Float.ofInt number.toInt)
  | float x => Double.rank x
  | string _ | boolean _ => 0

/-- The order that numbers are compared in. -/
def order : Value → Value → Ordering
  | integer m, integer n => Ord.compare m.toInt n.toInt
  | a, b => Ord.compare a.rank b.rank

/-- An integer becomes a number. -/
theorem not_nan_of_word (number : Int64) : (Float.ofInt number.toInt).isNaN = false := by
  have hge := number.le_toInt
  have hlt := number.toInt_lt
  exact Double.not_nan_of_int (by omega) (by omega)

variable {a b c : Value}

/-- Numbers are numeric. -/
theorem both_numeric_of_numbers (ha : a.IsNumber) (hb : b.IsNumber) : BothNumeric a b := by
  constructor
  · cases a <;> first | rfl | cases ha
  · cases b <;> first | rfl | cases hb

/-- Numeric values are compared by their order, if they have one. -/
theorem compare_of_numeric (op : Comparison) (h : BothNumeric a b) :
    a.compare op b = op.decided (numericOrder? a b) := by
  obtain ⟨ha, hb⟩ := h
  cases a with
  | string | boolean => cases ha
  | integer | float =>
      cases b with
      | string | boolean => cases hb
      | integer | float => rfl

/-- Numbers have an order. -/
theorem numeric_order_of_numbers (ha : a.IsNumber) (hb : b.IsNumber) :
    numericOrder? a b = some (order a b) := by
  cases a with
  | string | boolean => cases ha
  | integer m =>
      cases b with
      | string | boolean => cases hb
      | integer n => rfl
      | float y => exact Double.double_order_of_rank (not_nan_of_word m) hb
  | float x =>
      cases b with
      | string | boolean => cases hb
      | integer n => exact Double.double_order_of_rank ha (not_nan_of_word n)
      | float y => exact Double.double_order_of_rank ha hb

/-- Exchanging numeric values swaps their order, if they have one. -/
theorem numeric_order_swap (h : BothNumeric a b) :
    numericOrder? b a = (numericOrder? a b).map Ordering.swap := by
  obtain ⟨ha, hb⟩ := h
  cases a with
  | string | boolean => cases ha
  | integer m =>
      cases b with
      | string | boolean => cases hb
      | integer n => exact congrArg some (Int.compare_swap _ _).symm
      | float y => exact double_order_swap _ y
  | float x =>
      cases b with
      | string | boolean => cases hb
      | integer n => exact double_order_swap x _
      | float y => exact double_order_swap x y

/-- The undefined number is in no order with any double. -/
theorem double_order_of_nan {x : Float} (h : x.isNaN = true) (y : Float) :
    doubleOrder? x y = none := by
  have hparts : (Double.parts x).isNaN = true := h
  rw [double_order_eq]
  change (Double.parts x).compare (Double.parts y) = none
  cases hcases : Double.parts x with
  | notANumber => rfl
  | zero | infinity | finite =>
      rw [hcases] at hparts
      cases hparts

/-- The undefined number is in no order with any value. -/
theorem numeric_order_of_nan {x : Float} (h : x.isNaN = true) (b : Value) :
    numericOrder? (float x) b = none := by
  cases b with
  | string | boolean => rfl
  | integer n => exact double_order_of_nan h _
  | float y => exact double_order_of_nan h y

/-- Numbers are compared by their order. -/
theorem compare_of_order (op : Comparison) (ha : a.IsNumber) (hb : b.IsNumber) :
    a.compare op b = .ofBool (op.accepts (order a b)) := by
  rw [compare_of_numeric op (both_numeric_of_numbers ha hb), numeric_order_of_numbers ha hb]
  rfl

/-- A comparison of numbers holds if it accepts their order. -/
theorem compare_holds_iff (op : Comparison) (ha : a.IsNumber) (hb : b.IsNumber) :
    a.compare op b = .holds ↔ op.accepts (order a b) = true := by
  rw [compare_of_order op ha hb, Truth.of_bool_holds_iff]

/-- Every comparison that holds of the undefined number is one of inequality. -/
theorem number_of_holds {op : Comparison} {x : Float} (hop : op ≠ .notEqual)
    (h : compare op (float x) b = .holds) : (float x).IsNumber := by
  by_contra hnan
  cases b with
  | string | boolean => cases h
  | integer | float =>
      rw [compare_of_numeric op ⟨rfl, rfl⟩,
        numeric_order_of_nan (Bool.eq_true_of_not_eq_false hnan)] at h
      exact hop (of_decide_eq_true ((Truth.of_bool_holds_iff _).mp h))

/-- Exchanging numbers swaps their order. -/
theorem order_swap (a b : Value) : order b a = (order a b).swap := by
  cases a <;> cases b <;> exact (Int.compare_swap _ _).symm

/-- Numbers of which one is no integer are in the order of their places. -/
theorem order_eq_rank (h : ∀ m n, a = integer m → b ≠ integer n) :
    order a b = Ord.compare a.rank b.rank := by
  cases a with
  | integer m =>
      cases b with
      | integer n => exact absurd rfl (h m n rfl)
      | string | float | boolean => rfl
  | string | float | boolean => rfl

/-- Integers keep their order as doubles. -/
theorem rank_of_integer_le {m n : Int64} (h : m.toInt ≤ n.toInt) :
    (integer m).rank ≤ (integer n).rank := by
  have hge := m.le_toInt
  have hlt := n.toInt_lt
  exact Double.rank_of_int_le h (by omega) (by omega)

/-- Of two numbers in order the first has no greater place. -/
theorem rank_le_of_order (h : order a b ≠ .gt) : a.rank ≤ b.rank := by
  by_cases hintegers : ∃ m n, a = integer m ∧ b = integer n
  · obtain ⟨m, n, rfl, rfl⟩ := hintegers
    exact rank_of_integer_le (Int.compare_ne_gt.mp h)
  · rw [order_eq_rank fun m n ha hb => hintegers ⟨m, n, ha, hb⟩] at h
    exact Int.compare_ne_gt.mp h

/-- Numbers with one place are equal if one is no integer. -/
theorem order_eq_of_rank (h : ∀ m n, a = integer m → b ≠ integer n) (hrank : a.rank = b.rank) :
    order a b = .eq := by
  rw [order_eq_rank h, hrank]
  exact Int.compare_eq_eq.mpr rfl

/-! ## What upsets the order -/

/-- Two different integers, and a double that is equal to both. -/
def Conflated (a b c : Value) : Prop :=
  (∃ m n : Int64, m ≠ n ∧ a = integer m ∧ c = integer n) ∧ (∃ x, b = float x) ∧
    a.compare .equal b = .holds ∧ b.compare .equal c = .holds

/-- The two integers may be exchanged. -/
theorem Conflated.symm (h : Conflated a b c) : Conflated c b a := by
  obtain ⟨⟨m, n, hne, ha, hc⟩, hb, hab, hbc⟩ := h
  rw [compare_equal_comm] at hab hbc
  exact ⟨⟨n, m, hne.symm, hc, ha⟩, hb, hbc, hab⟩

/-- What is not in order though both are with a third number is conflated by it. -/
theorem conflated_of_order (ha : a.IsNumber) (hb : b.IsNumber) (hc : c.IsNumber)
    (hab : order a b ≠ .gt) (hbc : order b c ≠ .gt) (hac : order a c = .gt) : Conflated a b c := by
  have hrankLeft := rank_le_of_order hab
  have hrankRight := rank_le_of_order hbc
  by_cases hintegers : ∃ m n, a = integer m ∧ c = integer n
  · obtain ⟨m, n, rfl, rfl⟩ := hintegers
    have hgt : n.toInt < m.toInt := Int.compare_eq_gt.mp hac
    have hrank := rank_of_integer_le hgt.le
    cases b with
    | string | boolean => cases hb
    | integer k =>
        have hmk : m.toInt ≤ k.toInt := Int.compare_ne_gt.mp hab
        have hkn : k.toInt ≤ n.toInt := Int.compare_ne_gt.mp hbc
        omega
    | float x =>
        refine ⟨⟨m, n, fun heq => ?_, rfl, rfl⟩, ⟨x, rfl⟩, ?_, ?_⟩
        · rw [heq] at hgt
          exact absurd hgt (Int.lt_irrefl _)
        · rw [compare_holds_iff .equal ha hb, order_eq_of_rank (by simp) (by omega)]
          rfl
        · rw [compare_holds_iff .equal hb hc, order_eq_of_rank (by simp) (by omega)]
          rfl
  · rw [order_eq_rank fun m n ha hc => hintegers ⟨m, n, ha, hc⟩, Int.compare_eq_gt] at hac
    omega

/-- Numbers that are equal to a third one are equal unless it conflates them. -/
theorem conflated_of_ne (ha : a.IsNumber) (hb : b.IsNumber) (hc : c.IsNumber)
    (hab : order a b = .eq) (hbc : order b c = .eq) (hac : order a c ≠ .eq) : Conflated a b c := by
  cases horder : order a c with
  | eq => exact absurd horder hac
  | gt => exact conflated_of_order ha hb hc (by rw [hab]; decide) (by rw [hbc]; decide) horder
  | lt =>
      refine (conflated_of_order hc hb ha ?_ ?_ ?_).symm
      · rw [order_swap, hbc]
        decide
      · rw [order_swap, hab]
        decide
      · rw [order_swap, horder]
        rfl

/-- The integers that are conflated are not equal. -/
theorem Conflated.order_ne (h : Conflated a b c) : order a c ≠ .eq := by
  obtain ⟨⟨m, n, hne, rfl, rfl⟩, -⟩ := h
  intro horder
  exact hne (Int64.toInt_inj.mp (Int.compare_eq_eq.mp horder))

/-- A double that conflates integers is a number, in the place of both. -/
theorem Conflated.rank_eq (h : Conflated a b c) : a.rank = b.rank ∧ b.rank = c.rank := by
  obtain ⟨⟨m, n, hne, rfl, rfl⟩, ⟨x, rfl⟩, hab, hbc⟩ := h
  have hx := number_of_holds (by decide) hbc
  rw [compare_holds_iff .equal (is_number_integer m) hx, order_eq_rank (by simp)] at hab
  rw [compare_holds_iff .equal hx (is_number_integer n), order_eq_rank (by simp)] at hbc
  exact ⟨Int.compare_eq_eq.mp (beq_iff_eq.mp hab), Int.compare_eq_eq.mp (beq_iff_eq.mp hbc)⟩

/-- One of two integers that are conflated is beyond `2 ^ 53` in magnitude. -/
theorem Conflated.beyond (h : Conflated a b c) :
    ∃ m n : Int64, a = integer m ∧ c = integer n ∧
      (2 ^ 53 < m.toInt.natAbs ∨ 2 ^ 53 < n.toInt.natAbs) := by
  have hrank := h.rank_eq.1.trans h.rank_eq.2
  obtain ⟨⟨m, n, hne, rfl, rfl⟩, -⟩ := h
  refine ⟨m, n, rfl, rfl, ?_⟩
  by_contra hsmall
  rw [not_or, Nat.not_lt, Nat.not_lt] at hsmall
  rcases Int.lt_trichotomy m.toInt n.toInt with hlt | heq | hgt
  · exact absurd hrank (Double.rank_of_int_lt hlt (by omega) (by omega)).ne
  · exact hne (Int64.toInt_inj.mp heq)
  · exact absurd hrank (Double.rank_of_int_lt hgt (by omega) (by omega)).ne'

/-! ## The laws of the order -/

/-- Where `<=` holds twice in a row it holds from end to end, or else a double in the middle
conflates two integers that are in the other order. -/
theorem less_or_equal_trans (ha : a.IsNumber) (hb : b.IsNumber) (hc : c.IsNumber)
    (hab : a.compare .lessOrEqual b = .holds) (hbc : b.compare .lessOrEqual c = .holds) :
    a.compare .lessOrEqual c = .holds ↔ ¬ (Conflated a b c ∧ c.compare .less a = .holds) := by
  rw [compare_holds_iff _ ha hb] at hab
  rw [compare_holds_iff _ hb hc] at hbc
  rw [compare_holds_iff _ ha hc, compare_holds_iff _ hc ha, order_swap a c]
  constructor
  · rintro hac ⟨-, hca⟩
    cases horder : order a c <;> simp [horder, Comparison.accepts] at hac hca
  · intro hnot
    cases horder : order a c with
    | lt | eq => rfl
    | gt =>
        have hconflated := conflated_of_order ha hb hc (by simpa [Comparison.accepts] using hab)
          (by simpa [Comparison.accepts] using hbc) horder
        exact absurd ⟨hconflated, by rw [horder]; rfl⟩ hnot

/-- Where `=` holds twice in a row it holds from end to end, or else a double in the middle
conflates two integers. -/
theorem equal_trans (ha : a.IsNumber) (hb : b.IsNumber) (hc : c.IsNumber)
    (hab : a.compare .equal b = .holds) (hbc : b.compare .equal c = .holds) :
    a.compare .equal c = .holds ↔ ¬ Conflated a b c := by
  rw [compare_holds_iff _ ha hb] at hab
  rw [compare_holds_iff _ hb hc] at hbc
  rw [compare_holds_iff _ ha hc]
  constructor
  · intro hac hconflated
    exact hconflated.order_ne (by simpa [Comparison.accepts] using hac)
  · intro hnot
    by_contra hac
    exact hnot (conflated_of_ne ha hb hc (by simpa [Comparison.accepts] using hab)
      (by simpa [Comparison.accepts] using hbc) (by simpa [Comparison.accepts] using hac))

/-- A number is equal to itself. -/
theorem compare_equal_self (ha : a.IsNumber) : a.compare .equal a = .holds := by
  have horder : order a a = .eq := by
    cases a <;> exact Int.compare_eq_eq.mpr rfl
  rw [compare_holds_iff _ ha ha, horder]
  rfl

/-- A number becomes a double, in the place that the number has. -/
theorem exists_double (ha : a.IsNumber) :
    ∃ x, a.double? = some x ∧ x.isNaN = false ∧ Double.rank x = a.rank := by
  cases a with
  | string | boolean => cases ha
  | integer n => exact ⟨_, rfl, not_nan_of_word n, rfl⟩
  | float x => exact ⟨x, rfl, ha, rfl⟩

/-- Doubles that are compared as equal are the same. -/
theorem beq_of_double_order {x y : Float} (h : doubleOrder? x y = some .eq) : (x == y) = true := by
  unfold doubleOrder? at h
  split at h
  · cases h
  · split at h
    · assumption
    · split at h <;> cases h

/-- Equal numbers are equal as doubles. -/
theorem doubles_of_equal (ha : a.IsNumber) (hb : b.IsNumber) (h : a.compare .equal b = .holds) :
    ∃ x y, a.double? = some x ∧ b.double? = some y ∧ (x == y) = true := by
  have hrank : a.rank = b.rank := by
    rw [compare_holds_iff _ ha hb] at h
    have horder : order a b = .eq := by simpa [Comparison.accepts] using h
    have hle := rank_le_of_order (a := a) (b := b) (by rw [horder]; decide)
    have hge := rank_le_of_order (a := b) (b := a) (by rw [order_swap, horder]; decide)
    omega
  obtain ⟨x, hx, hxNumber, hxRank⟩ := exists_double ha
  obtain ⟨y, hy, hyNumber, hyRank⟩ := exists_double hb
  refine ⟨x, y, hx, hy, beq_of_double_order ?_⟩
  rw [Double.double_order_of_rank hxNumber hyNumber, hxRank, hyRank, hrank,
    Int.compare_eq_eq.mpr rfl]

/-- Between bounds that are in the wrong order lies only a double that conflates them. -/
theorem between_reversed_iff (ha : a.IsNumber) (hc : c.IsNumber)
    (hac : a.compare .greater c = .holds) (hnumeric : b.isNumeric = true) :
    (b.compare .greaterOrEqual a).and (b.compare .lessOrEqual c) = .holds ↔ Conflated a b c := by
  rw [Truth.and_holds_iff]
  constructor
  · rintro ⟨hba, hbc⟩
    have hb : b.IsNumber := by
      cases b with
      | string | boolean => cases hnumeric
      | integer n => exact is_number_integer n
      | float x => exact number_of_holds (by decide) hbc
    rw [compare_holds_iff _ hb ha, order_swap a b] at hba
    rw [compare_holds_iff _ hb hc] at hbc
    rw [compare_holds_iff _ ha hc] at hac
    refine conflated_of_order ha hb hc ?_ (by simpa [Comparison.accepts] using hbc)
      (by simpa [Comparison.accepts] using hac)
    intro hgt
    rw [hgt] at hba
    cases hba
  · rintro hconflated
    obtain ⟨-, ⟨x, rfl⟩, hab, hbc⟩ := hconflated
    have hb := number_of_holds (by decide) hbc
    rw [compare_holds_iff _ ha hb] at hab
    rw [compare_holds_iff _ hb hc] at hbc
    have hab : order a (float x) = .eq := by simpa [Comparison.accepts] using hab
    have hbc : order (float x) c = .eq := by simpa [Comparison.accepts] using hbc
    rw [compare_holds_iff _ hb ha, compare_holds_iff _ hb hc, order_swap a, hab, hbc]
    exact ⟨rfl, rfl⟩

/-- A range test whose bounds are in the wrong order holds only of a double that conflates them. -/
theorem truth_between_reversed_iff {operand low high : Expr} {source : Source} (ha : a.IsNumber)
    (hc : c.IsNumber) (hac : a.compare .greater c = .holds) (hnumeric : b.isNumeric = true)
    (hoperand : operand.evaluate source = some b) (hlow : low.evaluate source = some a)
    (hhigh : high.evaluate source = some c) :
    (Expr.between operand low high false).truth source = .holds ↔ Conflated a b c := by
  rw [Expr.truth_between, hoperand, hlow, hhigh]
  exact between_reversed_iff ha hc hac hnumeric

/-- Numbers are ordered consistently but where a double conflates two integers. There `<=` and `=`
do not pass from end to end, and a range test of the double holds though its bounds are in the wrong
order. It takes an integer beyond `2 ^ 53` for that. Equality takes every number for itself and has
no sides, and equal numbers are the same as doubles. -/
theorem order_of_numbers (ha : a.IsNumber) (hb : b.IsNumber) (hc : c.IsNumber) :
    (a.compare .lessOrEqual b = .holds → b.compare .lessOrEqual c = .holds →
      (a.compare .lessOrEqual c = .holds ↔ ¬ (Conflated a b c ∧ c.compare .less a = .holds))) ∧
    (a.compare .equal b = .holds → b.compare .equal c = .holds →
      (a.compare .equal c = .holds ↔ ¬ Conflated a b c)) ∧
    (a.compare .greater c = .holds →
      ∀ (x : Value) (operand low high : Expr) (source : Source), x.isNumeric = true →
        operand.evaluate source = some x → low.evaluate source = some a →
        high.evaluate source = some c →
        ((Expr.between operand low high false).truth source = .holds ↔ Conflated a x c)) ∧
    (Conflated a b c → ∃ m n : Int64, a = integer m ∧ c = integer n ∧
      (2 ^ 53 < m.toInt.natAbs ∨ 2 ^ 53 < n.toInt.natAbs)) ∧
    a.equals a = true ∧ a.equals b = b.equals a ∧
    (a.equals b = true →
      ∃ x y, a.double? = some x ∧ b.double? = some y ∧ (x == y) = true) := by
  refine ⟨less_or_equal_trans ha hb hc, equal_trans ha hb hc, ?_, Conflated.beyond, ?_,
    equals_comm a b, ?_⟩
  · intro hac x operand low high source hnumeric hoperand hlow hhigh
    exact truth_between_reversed_iff ha hc hac hnumeric hoperand hlow hhigh
  · exact (Truth.is_holds_iff _).mpr (compare_equal_self ha)
  · intro hequals
    exact doubles_of_equal ha hb ((Truth.is_holds_iff _).mp hequals)

/-- The least positive integer that is no double is equal to the double below it, which is equal to
the integer below. -/
theorem conflated_beyond_precision :
    let above := integer 9007199254740993
    let double := float 9007199254740992.0
    let below := integer 9007199254740992
    Conflated above double below ∧ below.compare .less above = .holds := by
  intro above double below
  have hnumber : double.IsNumber := by
    change Float.isNaN 9007199254740992.0 = false
    decide +kernel
  have hlaws := order_of_numbers (is_number_integer 9007199254740993) hnumber
    (is_number_integer 9007199254740992)
  have hequal := hlaws.2.1 (by decide +kernel) (by decide +kernel)
  exact ⟨not_not.mp fun hnot => absurd (hequal.mpr hnot) (by decide +kernel), by decide +kernel⟩

/-- Neither `<=` nor `=` is transitive, and there is a number between two bounds of which the lower
one is greater. -/
theorem order_not_transitive :
    let a := integer 9007199254740993
    let b := float 9007199254740992.0
    let c := integer 9007199254740992
    let range := Expr.between (.identifier "x") (.literal a) (.literal c) false
    (a.compare .lessOrEqual b = .holds ∧ b.compare .lessOrEqual c = .holds ∧
      a.compare .lessOrEqual c = .fails) ∧
    (a.compare .equal b = .holds ∧ b.compare .equal c = .holds ∧ a.compare .equal c = .fails) ∧
    a.compare .greater c = .holds ∧ range.truth (fun _ => some b) = .holds := by
  decide +kernel

end Value

end MessageSelector
