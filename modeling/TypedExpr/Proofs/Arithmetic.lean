import TypedExpr.Proofs.Callables
/-!
# Integer arithmetic is exact

Nine operations on integers are checked. Each gives the number that it gives on whole numbers, or
fails: for a divisor that is zero, and where that number is no integer. There is one exception, a
remainder that is refused although it is zero.

* `Calculation`: an operation with its operands.
* `Calculation.run`: how the program carries it out.
* `Calculation.exact`: the result on whole numbers.
* `Calculation.exact_or_fault`: the outcome is the exact result or the fault that belongs to it.
* `Calculation.remainder_refused`: the exception, `-2 ^ 63` by `-1`.
-/

namespace TypedExpr

/-- A checked operation on integers, with its operands. -/
inductive Calculation where
  | add (a b : Int64)
  | sub (a b : Int64)
  | mul (a b : Int64)
  | div (a b : Int64)
  | mod (a b : Int64)
  | neg (a : Int64)
  | increment (a : Int64)
  | decrement (a : Int64)
  | abs (a : Int64)
  deriving DecidableEq

namespace Calculation

/-- The result on whole numbers. The quotient is cut off toward zero; for a divisor that is zero
the number means nothing. -/
def exact : Calculation → Int
  | add a b => a.toInt + b.toInt
  | sub a b => a.toInt - b.toInt
  | mul a b => a.toInt * b.toInt
  | div a b => a.toInt.tdiv b.toInt
  | mod a b => a.toInt - b.toInt * a.toInt.tdiv b.toInt
  | neg a => -a.toInt
  | increment a => a.toInt + 1
  | decrement a => a.toInt - 1
  | abs a => a.toInt.natAbs

/-- What the operation divides by. -/
def divisor? : Calculation → Option Int64
  | div _ b | mod _ b => some b
  | _ => none

/-- The remainder whose quotient is no integer. -/
def refused : Calculation := mod Int64.minValue (-1)

/-- How an overflow names the operation. -/
def label : Calculation → String
  | add _ _ => "addition"
  | sub _ _ => "subtraction"
  | mul _ _ => "multiplication"
  | div _ _ => "division"
  | mod _ _ => "remainder"
  | neg _ => "negation"
  | increment _ => "increment"
  | decrement _ => "decrement"
  | abs _ => "abs"

/-- The operation as the program carries it out: operators by their plan on integers, steps, and
a call of the function that takes away the sign. -/
def run (reg : Registry) (absId : CallableId) (type : Ty) : Calculation → Run Value
  | add a b => reg.applyBinary .add .int (.int a) (.int b) type
  | sub a b => reg.applyBinary .sub .int (.int a) (.int b) type
  | mul a b => reg.applyBinary .mul .int (.int a) (.int b) type
  | div a b => reg.applyBinary .div .int (.int a) (.int b) type
  | mod a b => reg.applyBinary .mod .int (.int a) (.int b) type
  | neg a => reg.applyUnary .neg .int (.int a) type
  | increment a => Run.lift (stepValue .increment (.int a))
  | decrement a => Run.lift (stepValue .decrement (.int a))
  | abs a => reg.call absId [.int a] type

/-- The integer that an operation gives, or its fault. -/
def result : Calculation → Except Fault Int64
  | add a b => Integer.add a b
  | sub a b => Integer.sub a b
  | mul a b => Integer.mul a b
  | div a b => Integer.div a b
  | mod a b => Integer.mod a b
  | neg a => Integer.neg a
  | increment a => Integer.fit "increment" (a.toInt + 1)
  | decrement a => Integer.fit "decrement" (a.toInt - 1)
  | abs a => Integer.abs a

/-- The callable takes away the sign of an integer. -/
def IsAbs (reg : Registry) (id : CallableId) : Prop :=
  ∃ name, reg.callable? id = some ⟨name, Builtin.absInt⟩

end Calculation

namespace Integer

/-- Only one quotient is no integer. -/
theorem fits_tdiv_iff {a b : Int64} (hb : b ≠ 0) :
    Fits (a.toInt.tdiv b.toInt) ↔ ¬(a = Int64.minValue ∧ b = -1) := by
  have hmin : Int64.minValue.toInt = -2 ^ 63 := by decide
  have hmax : Int64.maxValue.toInt = 2 ^ 63 - 1 := by decide
  have ha := fits_toInt a
  have hb0 : b.toInt ≠ 0 := fun h => hb (Int64.toInt_inj.mp h)
  have hcase : (a = Int64.minValue ∧ b = -1) ↔ a.toInt = -2 ^ 63 ∧ b.toInt = -1 := by
    rw [← Int64.toInt_inj, ← Int64.toInt_inj, hmin]
    rfl
  rw [hcase]
  unfold Fits at *
  rw [hmin, hmax] at *
  by_cases h1 : b.toInt.natAbs = 1
  · rcases (show b.toInt = 1 ∨ b.toInt = -1 by omega) with h | h
    · rw [h, Int.tdiv_one]
      omega
    · rw [h, Int.tdiv_neg, Int.tdiv_one]
      omega
  · -- by any other divisor the quotient is at most half as far from zero
    have hhalf : (a.toInt.tdiv b.toInt).natAbs ≤ a.toInt.natAbs / 2 := by
      rw [Int.natAbs_tdiv]
      exact Nat.div_le_div_left (by omega) (by decide)
    omega

/-- The remainder is refused where the quotient is no integer, and exact elsewhere. -/
theorem mod_eq {a b : Int64} (hb : b ≠ 0) :
    mod a b = if a = Int64.minValue ∧ b = -1 then .error (.integerOverflow "remainder")
      else fit "remainder" (a.toInt - b.toInt * a.toInt.tdiv b.toInt) := by
  unfold mod
  rw [if_neg hb, ← Int.tmod_def]
  by_cases hq : a = Int64.minValue ∧ b = -1
  · have hfit : fit "remainder" (a.toInt.tdiv b.toInt) = .error (.integerOverflow "remainder") :=
      fit_eq_error_iff.mpr ⟨fun h => (fits_tdiv_iff hb).mp h hq, rfl⟩
    rw [if_pos hq, hfit]
    rfl
  · obtain ⟨q, hfit⟩ : ∃ q, fit "remainder" (a.toInt.tdiv b.toInt) = .ok q :=
      ⟨_, fit_eq_ok_iff.mpr (toInt_ofInt ((fits_tdiv_iff hb).mpr hq))⟩
    rw [if_neg hq, hfit]
    rfl

end Integer

namespace Calculation

variable {reg : Registry} {absId : CallableId}

/-- Operators, steps and the call all come to the operation on integers. -/
theorem run_run (h : IsAbs reg absId) (type : Ty) (c : Calculation) (w : World) :
    ((c.run reg absId type).run w).1 = c.result.map .int := by
  obtain ⟨name, hid⟩ := h
  cases c with
  | neg a =>
    show (Integer.neg a >>= fun n => pure (Value.int n)) = (Integer.neg a).map .int
    cases Integer.neg a <;> rfl
  | abs a =>
    show ((reg.call absId [.int a] type).run w).1 = _
    rw [Registry.run_call hid]
    rfl
  | _ => rfl

/-- For a divisor other than zero the result is the exact one if that is an integer, the refused
remainder apart. -/
theorem result_eq (c : Calculation) (h : c.divisor? ≠ some 0) :
    c.result = if c = refused then .error (.integerOverflow c.label)
      else Integer.fit c.label c.exact := by
  cases c with
  | mod a b =>
    have hb : b ≠ 0 := fun hb => h (congrArg some hb)
    show Integer.mod a b = _
    rw [Integer.mod_eq hb]
    simp only [refused, mod.injEq]
    rfl
  | div a b =>
    have hb : b ≠ 0 := fun hb => h (congrArg some hb)
    exact if_neg hb
  | _ => rfl

theorem result_eq_ok_iff {c : Calculation} {n : Int64} :
    c.result = .ok n ↔ c.divisor? ≠ some 0 ∧ c ≠ refused ∧ n.toInt = c.exact := by
  by_cases hz : c.divisor? = some 0
  · cases c with
    | div a b | mod a b =>
      obtain rfl : b = 0 := Option.some.inj hz
      exact ⟨nofun, fun h => absurd hz h.1⟩
    | _ => cases hz
  · rw [result_eq c hz]
    split
    · rename_i hc
      exact ⟨nofun, fun h => absurd hc h.2.1⟩
    · rename_i hc
      rw [Integer.fit_eq_ok_iff]
      exact ⟨fun h => ⟨hz, hc, h⟩, fun h => h.2.2⟩

/-- The faults: each divisor that is zero has its own, and what is left is an overflow. -/
theorem result_eq_error_iff {c : Calculation} {f : Fault} :
    c.result = .error f ↔
      (∃ a, c = div a 0) ∧ f = .divisionByZero ∨ (∃ a, c = mod a 0) ∧ f = .moduloByZero ∨
        (c.divisor? ≠ some 0 ∧ (c = refused ∨ ¬Integer.Fits c.exact)) ∧
          f = .integerOverflow c.label := by
  by_cases hz : c.divisor? = some 0
  · cases c with
    | div a b =>
      obtain rfl : b = 0 := Option.some.inj hz
      show Except.error Fault.divisionByZero = Except.error f ↔ _
      simp [divisor?, eq_comm]
    | mod a b =>
      obtain rfl : b = 0 := Option.some.inj hz
      show Except.error Fault.moduloByZero = Except.error f ↔ _
      simp [divisor?, eq_comm]
    | _ => cases hz
  · have hdiv : ¬∃ a, c = div a 0 := by
      rintro ⟨a, rfl⟩
      exact hz rfl
    have hmod : ¬∃ a, c = mod a 0 := by
      rintro ⟨a, rfl⟩
      exact hz rfl
    rw [result_eq c hz]
    split
    · rename_i hc
      refine ⟨fun h => .inr (.inr ⟨⟨hz, .inl hc⟩, (Except.error.inj h).symm⟩), ?_⟩
      rintro (⟨h, -⟩ | ⟨h, -⟩ | ⟨-, rfl⟩)
      · exact absurd h hdiv
      · exact absurd h hmod
      · rfl
    · rename_i hc
      rw [Integer.fit_eq_error_iff]
      simp [hdiv, hmod, hz, hc]

/-- **The outcome is the exact result or the fault that belongs to it.** There is a result for a
divisor other than zero if it is an integer, one remainder apart; a divisor that is zero has its own
fault, once for quotients and once for remainders; and the rest are overflows, which name the
operation. -/
theorem exact_or_fault (h : IsAbs reg absId) (type : Ty) (c : Calculation) (w : World) :
    (∀ v, ((c.run reg absId type).run w).1 = .ok v ↔
      c.divisor? ≠ some 0 ∧ c ≠ refused ∧ ∃ n : Int64, n.toInt = c.exact ∧ v = .int n) ∧
    ∀ f, ((c.run reg absId type).run w).1 = .error f ↔
      (∃ a, c = div a 0) ∧ f = .divisionByZero ∨ (∃ a, c = mod a 0) ∧ f = .moduloByZero ∨
        (c.divisor? ≠ some 0 ∧ (c = refused ∨ ¬Integer.Fits c.exact)) ∧
          f = .integerOverflow c.label := by
  rw [run_run h]
  constructor
  · intro v
    constructor
    · intro hv
      cases hr : c.result with
      | error f => rw [hr] at hv; cases hv
      | ok n =>
        rw [hr] at hv
        obtain ⟨hz, hc, hn⟩ := result_eq_ok_iff.mp hr
        exact ⟨hz, hc, n, hn, (Except.ok.inj hv).symm⟩
    · rintro ⟨hz, hc, n, hn, rfl⟩
      rw [result_eq_ok_iff.mpr ⟨hz, hc, hn⟩]
      rfl
  · intro f
    rw [← result_eq_error_iff]
    cases c.result with
    | error e =>
      show Except.error e = Except.error f ↔ _
      simp only [Except.error.injEq]
    | ok n => exact ⟨nofun, nofun⟩

/-- It covers `abs` and `Math.Abs` of the standard registry, which overflow at `-2 ^ 63` alone. -/
theorem exact_or_fault_standard :
    (∃ id, ((Registry.declared []).resolveFunction "abs" [] [.int]).map (·.callable) = .ok id ∧
      ∀ w, (((abs Int64.minValue).run (Registry.declared []) id .int).run w).1 =
        .error (.integerOverflow "abs")) ∧
    ∃ id, ((Registry.declared []).resolveMethod (.named 2 []) "Abs" [] [.int] true).map
        (·.callable) = .ok id ∧
      ∀ w, (((abs (-7)).run (Registry.declared []) id .int).run w).1 = .ok (.int 7) := by
  obtain ⟨hmath, habs⟩ := Registry.callable?_declared_abs []
  refine ⟨⟨26, Registry.standard_abs.2.2, fun w => ?_⟩, 12, Registry.standard_abs.2.1, fun w => ?_⟩
  · refine ((exact_or_fault habs .int (abs Int64.minValue) w).2 _).mpr (.inr (.inr ⟨?_, rfl⟩))
    exact ⟨nofun, .inr (by decide)⟩
  · exact ((exact_or_fault hmath .int (abs (-7)) w).1 _).mpr ⟨nofun, nofun, 7, by decide, rfl⟩

/-- The exception: the remainder of `-2 ^ 63` by `-1` is zero, and is refused as an overflow. -/
theorem remainder_refused :
    refused.exact = 0 ∧
      ((refused.run (Registry.declared []) 26 .int).run default).1 =
        .error (.integerOverflow "remainder") :=
  ⟨by decide, rfl⟩

end Calculation

end TypedExpr
