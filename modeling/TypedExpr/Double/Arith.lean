import TypedExpr.Double.Exact
/-!
# Arithmetic of doubles

The operations that are not the plain ones of the machine: whole parts, remainder, extremes, the
length of a vector, and the conversions from and to whole numbers. Whole parts, remainders and
conversions are computed on exact values (`Double.exact`) and rounded once.

* `truncate?`: the whole part, toward zero; none for an infinity and for what is no number.
* `remainder`: has the sign of the dividend and is less than the divisor in magnitude.
* `floor`, `ceil`, `roundEven`: a zero keeps the sign of the argument.
-/

namespace TypedExpr.Double

/-- The double nearest to a whole number. -/
def ofInt (n : Int) : Float := nearest (n < 0) n.natAbs 0

/-- The whole part and whether something is left over, for the magnitude `m · 2 ^ q`. -/
def wholePart (m : Nat) (q : Int) : Nat × Bool :=
  if 0 ≤ q then (m * Nat.pow 2 q.toNat, false)
  else (m / Nat.pow 2 (-q).toNat, m % Nat.pow 2 (-q).toNat != 0)

/-- The whole part of a number, toward zero. -/
def truncate? (x : Float) : Option Int :=
  match exact x with
  | .finite negative m q =>
    let n : Int := (wholePart m q).1
    some (if negative then -n else n)
  | _ => none

/-- The greatest whole number that is not above. -/
def floor (x : Float) : Float :=
  match exact x with
  | .finite negative m q =>
    let (n, rest) := wholePart m q
    nearest negative (if negative && rest then n + 1 else n) 0
  | _ => x

/-- The least whole number that is not below. -/
def ceil (x : Float) : Float :=
  match exact x with
  | .finite negative m q =>
    let (n, rest) := wholePart m q
    nearest negative (if !negative && rest then n + 1 else n) 0
  | _ => x

/-- The nearest whole number, a tie going to the even one. -/
def roundEven (x : Float) : Float :=
  match exact x with
  | .finite negative m q => if 0 ≤ q then x else nearest negative (halfEven m (-q).toNat) 0
  | _ => x

/-- What is left of `x` after taking `y` away as often as possible. -/
def remainder (x y : Float) : Float :=
  match exact x, exact y with
  | .finite negative m p, .finite _ n q =>
    if n = 0 then nan
    else
      let unit := min p q
      nearest negative (m * Nat.pow 2 (p - unit).toNat % (n * Nat.pow 2 (q - unit).toNat)) unit
  | .finite _ _ _, .infinite _ => x
  | _, _ => nan

/-- The greater of two numbers; what is no number counts as absent, and of two equal ones the second
is taken. -/
def maxNum (x y : Float) : Float := if y.isNaN then x else if y < x then x else y

/-- The lesser of two numbers; what is no number counts as absent, and of two equal ones the second
is taken. -/
def minNum (x y : Float) : Float := if y.isNaN then x else if x < y then x else y

/-- A number moved into an interval. -/
def clamp (x lo hi : Float) : Float :=
  let x := if x < lo then lo else x
  if hi < x then hi else x

/-- The length of the vector `(a, b)`, for `0 ≤ b ≤ a` neither so large nor so small that a square
is lost. The root `h` of the sum of squares is corrected once, by `(h² - a² - b²) / 2h`; the
difference of squares is taken through the distance of `h` from one of `a` and `b`. -/
def hypotOrdered (a b : Float) : Float :=
  let h := Float.sqrt (a * a + b * b)
  let excess :=
    if h <= 2 * b then
      let d := h - b
      a * (2 * d - a) + (d - 2 * (a - b)) * d
    else
      let d := h - a
      2 * d * (a - 2 * b) + ((4 * d - b) * b + d * d)
  h - excess / (2 * h)

/-- The length of the vector `(x, y)`. Coordinates whose squares would be lost are scaled by a power
of two; next to a coordinate greater by a factor of `2 ^ 54` the other one does not count. -/
def hypot (x y : Float) : Float :=
  if x.isInf || y.isInf then infinity false
  else if x.isNaN || y.isNaN then nan
  else
    let x := x.abs
    let y := y.abs
    let a := if x < y then y else x
    let b := if x < y then x else y
    let power (k : Int) : Float := nearest false 1 k
    if a >= b / power (-54) then a + b
    else if a > power 511 then hypotOrdered (a * power (-600)) (b * power (-600)) / power (-600)
    else if b < power (-459) then
      hypotOrdered (a / power (-600)) (b / power (-600)) * power (-600)
    else hypotOrdered a b

end TypedExpr.Double
