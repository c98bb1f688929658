import TypedExpr.Double.Digits
/-!
# Doubles as text

A double is written with its shortest digits (`Double.shortest`). Two formats lay them out: the one
that values have as text, and the one of listings, which keeps whole numbers apart from integers
and has exponents for the very large and the very small.

* `display`: never an exponent, `1` for one.
* `listing`: `1.0` for one, an exponent from `10 ^ 16` on and below `10 ^ -4`.
* `ofText?`: reads either format, and every other usual way to write a number.
-/

namespace TypedExpr.Double

/-- The decisions of a format. -/
structure Format where
  /-- Whether a number whose first digit stands at `10 ^ e` is written without an exponent. -/
  plain : Int → Bool
  /-- Whether a whole number written without an exponent ends in `.0`. -/
  point : Bool

/-- How a double is written as a value. -/
def displayFormat : Format := ⟨fun _ => true, false⟩

/-- How a double is written in listings. -/
def listingFormat : Format := ⟨fun e => -4 ≤ e && e < 16, true⟩

/-- Zeros. -/
def zeros (n : Nat) : String := String.ofList (List.replicate n '0')

/-- The magnitude `d · 10 ^ p` in a format. -/
def Format.magnitude (f : Format) (d : Nat) (p : Int) : String :=
  let digits := Nat.toDigits 10 d
  let whole := digits.length + p
  if d != 0 && !f.plain (whole - 1) then
    let rest := digits.drop 1
    let fraction := if rest.isEmpty then "" else "." ++ String.ofList rest
    String.ofList (digits.take 1) ++ fraction ++ "e" ++ toString (whole - 1)
  else if 0 ≤ p then
    String.ofList digits ++ zeros p.toNat ++ (if f.point then ".0" else "")
  else if 0 < whole then
    String.ofList (digits.take whole.toNat) ++ "." ++ String.ofList (digits.drop whole.toNat)
  else "0." ++ zeros (-whole).toNat ++ String.ofList digits

/-- A double in a format. What is no number has no sign. -/
def Format.write (f : Format) (x : Float) : String :=
  match exact x with
  | .nan => "NaN"
  | .infinite negative => if negative then "-inf" else "inf"
  | .finite negative m q =>
    let (d, p) := shortest m q
    (if negative then "-" else "") ++ f.magnitude d p

/-- A double as a value. -/
def display (x : Float) : String := displayFormat.write x

/-- A double in a listing. -/
def listing (x : Float) : String := listingFormat.write x

/-! ### Reading -/

/-- The number written by some digits. -/
def digitsValue (cs : List Char) : Nat := cs.foldl (fun n c => 10 * n + (c.toNat - '0'.toNat)) 0

/-- The double nearest to `± d · 10 ^ p`. Numbers beyond the range are settled by their size, so
that the power is never large. -/
def ofDecimal (negative : Bool) (d : Nat) (p : Int) : Float :=
  let size := decimalLength d + p
  if d = 0 || size < -400 then nearest negative 0 0
  else if 400 < size then infinity negative
  else nearestRatio negative (d * Nat.pow 10 p.toNat) (Nat.pow 10 (-p).toNat)

/-- An exponent: a sign, if any, and digits. -/
def exponent? (cs : List Char) : Option Int :=
  let (negative, cs) := match cs with
    | '-' :: rest => (true, rest)
    | '+' :: rest => (false, rest)
    | _ => (false, cs)
  if cs.isEmpty || !cs.all Char.isDigit then none
  else some (if negative then -(digitsValue cs : Int) else digitsValue cs)

/-- A magnitude: digits with at most one point among them, and an exponent, if any. -/
def ofMagnitude? (negative : Bool) (cs : List Char) : Option Float :=
  let whole := cs.takeWhile Char.isDigit
  let rest := cs.dropWhile Char.isDigit
  let (fraction, rest) := match rest with
    | '.' :: rest => (rest.takeWhile Char.isDigit, rest.dropWhile Char.isDigit)
    | _ => ([], rest)
  if whole.isEmpty && fraction.isEmpty then none
  else
    let d := digitsValue (whole ++ fraction)
    match rest with
    | [] => some (ofDecimal negative d (-(fraction.length : Int)))
    | 'e' :: rest | 'E' :: rest =>
      (exponent? rest).map fun e => ofDecimal negative d (e - fraction.length)
    | _ => none

/-- The double a text writes. -/
def ofText? (text : String) : Option Float :=
  let (negative, cs) := match text.toList with
    | '-' :: rest => (true, rest)
    | '+' :: rest => (false, rest)
    | cs => (false, cs)
  match String.ofList (cs.map Char.toLower) with
  | "nan" => some nan
  | "inf" | "infinity" => some (infinity negative)
  | _ => ofMagnitude? negative cs

end TypedExpr.Double
