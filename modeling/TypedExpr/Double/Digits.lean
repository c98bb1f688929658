import TypedExpr.Double.Exact
/-!
# The shortest digits of a double

A finite double is written with the fewest significant digits that still read back to it, and with
those nearest to its value if there is a choice.

* `shortest m q`: the digits `d` and the place `p` with `d · 10 ^ p` for the magnitude `m · 2 ^ q`.

The numbers that read back to `m · 2 ^ q` lie between the midpoints to its two neighbours, the
midpoints included if `m` is even. For each count of digits only the two points of that decimal
grid next to the value are candidates: if any point lies in the interval, one of these does.
-/

namespace TypedExpr.Double

/-- The number of decimal digits. -/
def decimalLength (n : Nat) : Nat := (Nat.toDigits 10 n).length

/-- The place of the first digit of `num / den`: the least `e` with `num / den < 10 ^ e`. -/
def magnitude (num den : Nat) : Int :=
  if den ≤ num then decimalLength (num / den)
  else 1 - (decimalLength ((den + num - 1) / num - 1) : Int)

/-- What reads back to a double, in units of `num / den`: the value is `4 · m` and the ends of the
interval are `low` and `high`. -/
structure Interval where
  num : Nat
  den : Nat
  value : Nat
  low : Nat
  high : Nat
  closed : Bool

/-- The interval of `m · 2 ^ q`. Below a power of two the doubles lie twice as close. -/
def Interval.of (m : Nat) (q : Int) : Interval where
  num := Nat.pow 2 (q - 2).toNat
  den := Nat.pow 2 (2 - q).toNat
  value := 4 * m
  low := if m = Nat.pow 2 52 ∧ q ≠ -1074 then 4 * m - 1 else 4 * m - 2
  high := 4 * m + 2
  closed := m % 2 == 0

/-- Whether `d · 10 ^ p` lies in the interval. -/
def Interval.contains (i : Interval) (d : Nat) (p : Int) : Bool :=
  let point := d * Nat.pow 10 p.toNat * i.den
  let low := i.low * i.num * Nat.pow 10 (-p).toNat
  let high := i.high * i.num * Nat.pow 10 (-p).toNat
  if i.closed then low ≤ point && point ≤ high else low < point && point < high

/-- Among the points with `count` digits, the one that reads back and is nearest to the value; of
two that are equally near, the upper one. -/
def Interval.point? (i : Interval) (place : Int) (count : Nat) : Option (Nat × Int) :=
  let p := place - count
  let unit := Nat.pow 10 p.toNat * i.den
  let value := i.value * i.num * Nat.pow 10 (-p).toNat
  let below := value / unit
  let above := below + 1
  let nearerBelow := 2 * (value % unit) < unit
  match i.contains below p, i.contains above p with
  | true, true => some (if nearerBelow then below else above, p)
  | true, false => some (below, p)
  | false, true => some (above, p)
  | false, false => none

/-- The first count of digits, from `count` on, at which a point reads back. -/
def Interval.firstPoint (i : Interval) (place : Int) : Nat → Nat → Nat × Int
  | 0, count => (i.value * i.num / i.den / 4, place - count)
  | fuel + 1, count =>
    match i.point? place count with
    | some point => point
    | none => firstPoint i place fuel (count + 1)

/-- Zeros at the end belong to the place, not to the digits. -/
def dropZeros : Nat → Nat × Int → Nat × Int
  | 0, point => point
  | fuel + 1, (d, p) => if d % 10 = 0 then dropZeros fuel (d / 10, p + 1) else (d, p)

/-- The shortest digits of `m · 2 ^ q`, and the place of the last. -/
def shortest (m : Nat) (q : Int) : Nat × Int :=
  if m = 0 then (0, 0)
  else
    let i := Interval.of m q
    dropZeros 20 (i.firstPoint (magnitude (i.value * i.num) i.den) 17 1)

end TypedExpr.Double
