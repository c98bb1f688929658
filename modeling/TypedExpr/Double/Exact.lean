/-!
# The exact value of a double

A finite double is `± m · 2 ^ q` for natural `m` and integral `q`. Everything that must be decided
exactly (digits, whole parts, remainders, conversions) is decided on these numbers, and rounded
back once at the end.

* `exact`: takes a double apart.
* `nearest`: the double nearest to `± m · 2 ^ q`, a tie going to the even one.
* `nearestRatio`: the double nearest to a quotient.
-/

namespace TypedExpr.Double

/-- A double, taken apart. A finite one is `± mantissa · 2 ^ exponent`. -/
inductive Exact where
  | nan
  | infinite (negative : Bool)
  | finite (negative : Bool) (mantissa : Nat) (exponent : Int)
  deriving DecidableEq, Repr

/-- The value of a double. -/
def exact (x : Float) : Exact :=
  let bits := x.toBits.toNat
  let negative := bits / Nat.pow 2 63 == 1
  let field : Nat := bits / Nat.pow 2 52 % Nat.pow 2 11
  let fraction := bits % Nat.pow 2 52
  if field = 2047 then if fraction = 0 then .infinite negative else .nan
  else if field = 0 then .finite negative fraction (-1074)
  else .finite negative (fraction + Nat.pow 2 52) (field - 1075)

/-- What is no number. -/
def nan : Float := Float.ofBits 0x7ff8000000000000

/-- An infinity. -/
def infinity (negative : Bool) : Float :=
  Float.ofBits (if negative then 0xfff0000000000000 else 0x7ff0000000000000)

/-- `n / 2 ^ k` to the nearest whole number, a tie going to the even one. -/
def halfEven (n k : Nat) : Nat :=
  let whole := n / Nat.pow 2 k
  let rest := 2 * (n % Nat.pow 2 k)
  if rest < Nat.pow 2 k then whole
  else if Nat.pow 2 k < rest then whole + 1
  else whole + whole % 2

/-- The number of binary digits. -/
def bitLength (n : Nat) : Nat := if n = 0 then 0 else n.log2 + 1

/-- The double with magnitude `m · 2 ^ q`, for `m ≤ 2 ^ 53` and `-1074 ≤ q`, where `q` is the least
exponent possible; an infinity if there is none. -/
def encode (negative : Bool) (m : Nat) (q : Int) : Float :=
  let sign := if negative then Nat.pow 2 63 else 0
  let (m, q) := if m = Nat.pow 2 53 then (Nat.pow 2 52, q + 1) else (m, q)
  if m < Nat.pow 2 52 then Float.ofBits (sign + m).toUInt64
  else if q > 971 then infinity negative
  else Float.ofBits (sign + (q + 1075).toNat * Nat.pow 2 52 + (m - Nat.pow 2 52)).toUInt64

/-- The double nearest to `± m · 2 ^ q`, a tie going to the even one. -/
def nearest (negative : Bool) (m : Nat) (q : Int) : Float :=
  let unit := max (q + bitLength m - 53) (-1074)
  if unit ≤ q then encode negative (m * Nat.pow 2 (q - unit).toNat) unit
  else encode negative (halfEven m (unit - q).toNat) unit

/-- The double nearest to `± num / den`, a tie going to the even one. The quotient is taken to so
many places that what is left over can be stood in for by one more binary digit. -/
def nearestRatio (negative : Bool) (num den : Nat) : Float :=
  let scale := bitLength den + 66 - bitLength num
  let drop := bitLength num - (bitLength den + 66)
  let num := num * Nat.pow 2 scale
  let den := den * Nat.pow 2 drop
  let sticky := if num % den = 0 then 0 else 1
  nearest negative (2 * (num / den) + sticky) ((drop : Int) - scale - 1)

end TypedExpr.Double
