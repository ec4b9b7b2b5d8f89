import MessageSelector.Decimal

/-!
# The shortest decimal of a double

Among the decimals that round to a double, the one with the fewest digits, and of those the one
nearest to it. A double stands for an interval of real numbers; on a decimal grid only its two
neighbours can be the nearest, so the first grid, from coarse to fine, on which a neighbour lies in
the interval gives the digits. All of it is exact arithmetic on natural numbers.
-/

namespace MessageSelector.Decimal

/-- The number `mantissa * 2 ^ exponent`. -/
structure Binary where
  mantissa : Nat
  exponent : Int
  deriving DecidableEq, Repr

/-- The magnitude of a finite double. -/
def Binary.ofFloat (x : Float) : Binary :=
  let bits := x.toBits.toNat % Nat.pow 2 63
  let field : Nat := bits / Nat.pow 2 52
  let fraction := bits % Nat.pow 2 52
  if field = 0 then ⟨fraction, -1074⟩ else ⟨fraction + Nat.pow 2 52, (field : Int) - 1075⟩

/-- A number with the ends of the interval that rounds to it, all in units of `1 / scale`. The ends
belong to the interval when it is closed. -/
structure Interval where
  low : Nat
  value : Nat
  high : Nat
  scale : Nat
  isClosed : Bool
  deriving Repr

namespace Interval

/-- The interval of a double. It reaches half-way to the neighbours, and the lower neighbour of a
power of two is twice as near as the upper one. Half-way cases round to the even mantissa. -/
def ofBinary (x : Binary) : Interval :=
  let quarters := 4 * x.mantissa
  let below := if x.mantissa = Nat.pow 2 52 && x.exponent > -1074 then 1 else 2
  let power := x.exponent - 2
  let unit := Nat.pow 2 power.toNat
  { low := (quarters - below) * unit
    value := quarters * unit
    high := (quarters + 2) * unit
    scale := Nat.pow 2 (-power).toNat
    isClosed := x.mantissa % 2 = 0 }

/-- Whether a number of units lies in the interval. -/
def contains (interval : Interval) (units : Nat) : Bool :=
  if interval.isClosed then interval.low ≤ units && units ≤ interval.high
  else interval.low < units && units < interval.high

/-- The interval in units that are `10 ^ power` times as fine, for a negative power. -/
def refine (interval : Interval) (power : Int) : Interval :=
  let factor := Nat.pow 10 (-power).toNat
  { interval with
    low := interval.low * factor
    value := interval.value * factor
    high := interval.high * factor }

end Interval

/-- Which of two equally near decimals is taken. -/
inductive Tie where
  | up
  | even
  deriving DecidableEq, Repr

/-- The multiple of `10 ^ power` nearest to the value that lies in the interval, if one does. -/
def nearest? (tie : Tie) (interval : Interval) (power : Int) : Option Nat :=
  let fine := interval.refine power
  let step := interval.scale * Nat.pow 10 power.toNat
  let count := fine.value / step
  let below := count * step
  let above := below + step
  match fine.contains below, fine.contains above with
  | true, true =>
    let down := fine.value - below
    let up := above - fine.value
    if down < up || (down = up && tie = .even && count % 2 = 0) then some count
    else some (count + 1)
  | true, false => some count
  | false, true => some (count + 1)
  | false, false => none

/-- The first grid with a hit, from `10 ^ power` downwards through at most `grids` of them. -/
def firstHit (tie : Tie) (interval : Interval) : Nat → Int → Decimal
  | 0, power => ⟨0, power⟩
  | grids + 1, power =>
    match nearest? tie interval power with
    | some digits => ⟨digits, power⟩
    | none => firstHit tie interval grids (power - 1)

/-- The shortest decimal of a positive double: seventeen digits always suffice, and the estimate of
the leading power is less than two powers too large. -/
def shortest (tie : Tie) (x : Binary) : Decimal :=
  let binaryPower := (x.mantissa.log2 : Int) + x.exponent
  firstHit tie (.ofBinary x) 22 (binaryPower * 30103 / 100000 + 2)

end MessageSelector.Decimal
