import CodeAtlas.Decimal.Numeral

/-!
# The shortest decimal that reads back

A positive binary64 number `m · 2 ^ q` is the nearest one to every real number of an interval around
it, whose ends lie half way to its neighbours and belong to it exactly when `m` is even. `shortest`
walks over the powers of ten downwards and stops at the first one with a multiple in the interval:
no decimal of fewer digits reads back as the number. Of the multiples of that power it takes the
one nearest to the number; where two are equally near, `Tie` decides.
-/

namespace CodeAtlas.Decimal

/-- Which of two equally near decimals is taken. -/
inductive Tie where
  /-- The one whose last digit is even. -/
  | even
  /-- The larger one. -/
  | up
  deriving DecidableEq

/-- The real numbers that round to one binary64 number, as fractions over a common denominator. -/
structure Interval where
  /-- The lower end. -/
  low : Nat
  /-- The number itself. -/
  value : Nat
  /-- The upper end. -/
  high : Nat
  /-- The denominator of all three. -/
  denominator : Nat
  /-- Whether the ends belong to the interval. -/
  closed : Bool

namespace Interval

/-- The interval of `m · 2 ^ q`. The lower neighbour of a power of two is only half as far away as
the upper one, except at the bottom of the exponent range. -/
def ofBinary (m : Nat) (q : Int) : Interval :=
  let below := if m = Nat.pow 2 52 ∧ q ≠ -1074 then 1 else 2
  let up := Nat.pow 2 (q - 2).toNat
  { low := (4 * m - below) * up
    value := 4 * m * up
    high := (4 * m + 2) * up
    denominator := Nat.pow 2 (2 - q).toNat
    closed := m % 2 = 0 }

/-- The interval in units of `10 ^ k`. -/
def inUnits (i : Interval) (k : Int) : Interval :=
  let up := Nat.pow 10 (-k).toNat
  { low := i.low * up
    value := i.value * up
    high := i.high * up
    denominator := i.denominator * Nat.pow 10 k.toNat
    closed := i.closed }

/-- Whether the whole number `n` lies in the interval. -/
def holds (i : Interval) (n : Nat) : Bool :=
  let n := n * i.denominator
  if i.closed then i.low ≤ n && n ≤ i.high else i.low < n && n < i.high

/-- The whole number in the interval that is nearest to its value, if it holds one. -/
def nearest? (tie : Tie) (i : Interval) : Option Nat :=
  let below := i.value / i.denominator
  let above := below + 1
  match 0 < below && i.holds below, i.holds above with
  | false, false => none
  | true, false => some below
  | false, true => some above
  | true, true =>
    match compare (2 * i.value) ((below + above) * i.denominator) with
    | .lt => some below
    | .gt => some above
    | .eq =>
      match tie with
      | .up => some above
      | .even => some (if below % 2 = 0 then below else above)

end Interval

/-- The first power of ten, from `10 ^ k` downwards, with a multiple in the interval, and the
multiple. After `steps` powers the search ends. -/
def coarsest (tie : Tie) (i : Interval) : (steps : Nat) → (k : Int) → Nat × Int
  | 0, k => (0, k)
  | steps + 1, k =>
    match (i.inUnits k).nearest? tie with
    | some n => (n, k)
    | none => coarsest tie i steps (k - 1)

/-- The significand and the power of ten of the shortest decimal for `m · 2 ^ q`. Binary64 numbers
lie below `10 ^ 309`, and each has a decimal of seventeen digits, so no power beyond `10 ^ -341` is
needed. -/
def shortest (tie : Tie) (m : Nat) (q : Int) : Nat × Int :=
  coarsest tie (Interval.ofBinary m q) 660 309

end CodeAtlas.Decimal
