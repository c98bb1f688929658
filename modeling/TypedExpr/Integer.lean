import TypedExpr.Double.Text
import TypedExpr.Fault
/-!
# Integer arithmetic

An integer has 64 bits. Arithmetic is done on whole numbers and fails if the result does not fit;
nothing wraps around.

* `Integer.fit`: a whole number as an integer, or the overflow of the operation it comes from.
* `Integer.fit_eq_ok_iff`: it succeeds exactly for the numbers from `-2 ^ 63` up to `2 ^ 63 - 1`,
  and then the integer has that value.
-/

namespace TypedExpr.Integer

/-- The whole numbers that are integers. -/
def Fits (n : Int) : Prop := Int64.minValue.toInt ≤ n ∧ n ≤ Int64.maxValue.toInt

instance (n : Int) : Decidable (Fits n) := inferInstanceAs (Decidable (_ ∧ _))

/-- A whole number as the result of an operation. -/
def fit (operation : String) (n : Int) : Except Fault Int64 :=
  if Fits n then .ok (Int64.ofInt n) else .error (.integerOverflow operation)

theorem fits_toInt (a : Int64) : Fits a.toInt := ⟨a.le_toInt, Int.le_of_lt_add_one a.toInt_lt⟩

theorem toInt_ofInt {n : Int} (h : Fits n) : (Int64.ofInt n).toInt = n :=
  Int64.toInt_ofInt_of_le h.1 (Int.lt_add_one_of_le h.2)

theorem fit_eq_ok_iff {operation : String} {n : Int} {a : Int64} :
    fit operation n = .ok a ↔ a.toInt = n := by
  unfold fit
  split
  · rename_i h
    simp only [Except.ok.injEq]
    exact ⟨fun e => e ▸ toInt_ofInt h, fun e => e ▸ Int64.ofInt_toInt a⟩
  · rename_i h
    simp only [reduceCtorEq, false_iff]
    exact fun e => h (e ▸ fits_toInt a)

theorem fit_eq_error_iff {operation : String} {n : Int} {f : Fault} :
    fit operation n = .error f ↔ ¬Fits n ∧ f = .integerOverflow operation := by
  unfold fit
  split <;> simp_all [eq_comm]

/-- Addition. -/
def add (a b : Int64) : Except Fault Int64 := fit "addition" (a.toInt + b.toInt)

/-- Subtraction. -/
def sub (a b : Int64) : Except Fault Int64 := fit "subtraction" (a.toInt - b.toInt)

/-- Multiplication. -/
def mul (a b : Int64) : Except Fault Int64 := fit "multiplication" (a.toInt * b.toInt)

/-- Division, toward zero. -/
def div (a b : Int64) : Except Fault Int64 :=
  if b = 0 then .error .divisionByZero else fit "division" (a.toInt.tdiv b.toInt)

/-- The remainder of the division toward zero. It is refused for `-2 ^ 63` by `-1`, where the
quotient does not fit. -/
def mod (a b : Int64) : Except Fault Int64 :=
  if b = 0 then .error .moduloByZero
  else do
    let _ ← fit "remainder" (a.toInt.tdiv b.toInt)
    fit "remainder" (a.toInt.tmod b.toInt)

/-- The integer that a text writes: digits, after a minus sign or not. -/
def ofText? (text : String) : Option Int64 :=
  let (negative, digits) := match text.toList with
    | '-' :: rest => (true, rest)
    | rest => (false, rest)
  if digits.isEmpty || !digits.all Char.isDigit then none
  else
    let n : Int := Double.digitsValue digits
    (fit "reading" (if negative then -n else n)).toOption

/-- The number with the opposite sign. -/
def neg (a : Int64) : Except Fault Int64 := fit "negation" (-a.toInt)

/-- The number without its sign. -/
def abs (a : Int64) : Except Fault Int64 := fit "abs" a.toInt.natAbs

/-- How far a shift by `b` goes: the low six bits count. -/
def shiftAmount (b : Int64) : Int64 := b &&& 63

/-- Shift to the left; bits that leave are lost. -/
def shl (a b : Int64) : Int64 := a <<< shiftAmount b

/-- Shift to the right; the sign is kept. -/
def shr (a b : Int64) : Int64 := a >>> shiftAmount b

end TypedExpr.Integer
