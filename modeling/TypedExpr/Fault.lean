import TypedExpr.Span
/-!
# Faults

What can go wrong while an expression is evaluated. A fault that has reached the expression it
belongs to carries the span of that expression (`EvalError`); the innermost span is kept.
-/

namespace TypedExpr

/-- Why an evaluation fails. -/
inductive Fault where
  | typeMismatch (expected found : String)
  | divisionByZero
  | moduloByZero
  | integerOverflow (operation : String)
  | indexOutOfRange (index : Int) (length : Nat)
  | nullReference (context : String)
  | invalidCast (source target : String)
  | host (function message : String)
  | undefinedVariable (name : String)
  deriving DecidableEq, Repr, Inhabited

/-- What kind of fault it is, in listings. -/
def Fault.kindName : Fault → String
  | .typeMismatch _ _ => "TypeMismatch"
  | .divisionByZero => "DivisionByZero"
  | .moduloByZero => "ModuloByZero"
  | .integerOverflow _ => "IntegerOverflow"
  | .indexOutOfRange _ _ => "IndexOutOfRange"
  | .nullReference _ => "NullReference"
  | .invalidCast _ _ => "InvalidCast"
  | .host _ _ => "Host"
  | .undefinedVariable _ => "UndefinedVariable"

/-- The words in which a fault is reported. -/
def Fault.message : Fault → String
  | .typeMismatch expected found => s!"type mismatch: expected `{expected}`, found `{found}`"
  | .divisionByZero => "division by zero"
  | .moduloByZero => "modulo by zero"
  | .integerOverflow operation => s!"integer overflow in {operation}"
  | .indexOutOfRange index length => s!"index {index} is out of range for length {length}"
  | .nullReference context => s!"null reference in {context}"
  | .invalidCast source target => s!"cannot cast `{source}` to `{target}`"
  | .host function message => s!"{function}: {message}"
  | .undefinedVariable name => s!"undefined variable `{name}`"

/-- A fault and the expression it arose in. -/
structure EvalError where
  fault : Fault
  span : Option Span
  deriving DecidableEq, Repr, Inhabited

/-- A fault that has not yet reached an expression. -/
def Fault.unplaced (f : Fault) : EvalError := ⟨f, none⟩

/-- The error as it leaves an expression: the span that is already known is kept. -/
def EvalError.inside (e : EvalError) (span : Span) : EvalError :=
  { e with span := e.span.or (some span) }

theorem EvalError.inside_inside (e : EvalError) (s t : Span) :
    (e.inside s).inside t = e.inside s := by
  cases h : e.span <;> simp [inside, h]

end TypedExpr
