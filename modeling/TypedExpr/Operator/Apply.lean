import TypedExpr.Coercion
import TypedExpr.Integer
/-!
# Applying operators

An operator is applied to values according to its plan.

* `plainBinary`, `plainUnary`: all plans but the overloads, without effect.
* `Registry.applyBinary`, `Registry.applyUnary`: every plan; concatenation and overloads may call
  the host.
* `stepValue`: the value after a step up or down.
-/

namespace TypedExpr

/-- The fault of an operator that a plan does not know. -/
def unknownToPlan (op : BinaryOp) (operands : String) : Fault :=
  .typeMismatch s!"operands for `{op.symbol}`" operands

/-- A binary operator on integers. A power is computed with doubles and cut off. -/
def intBinary (op : BinaryOp) (a b : Int64) : Except Fault Value :=
  match op with
  | .add => (Integer.add a b).map .int
  | .sub => (Integer.sub a b).map .int
  | .mul => (Integer.mul a b).map .int
  | .div => (Integer.div a b).map .int
  | .mod => (Integer.mod a b).map .int
  | .pow =>
    match Double.toInteger (Float.pow (Double.ofInt a.toInt) (Double.ofInt b.toInt)) with
    | .ok n => .ok (.int n)
    | .error _ => .error (.integerOverflow "power")
  | .shl => .ok (.int (Integer.shl a b))
  | .shr => .ok (.int (Integer.shr a b))
  | .bitAnd => .ok (.int (a &&& b))
  | .bitOr => .ok (.int (a ||| b))
  | .bitXor => .ok (.int (a ^^^ b))
  | .eq => .ok (.bool (a == b))
  | .ne => .ok (.bool (a != b))
  | .lt => .ok (.bool (a < b))
  | .gt => .ok (.bool (b < a))
  | .le => .ok (.bool (a ≤ b))
  | .ge => .ok (.bool (b ≤ a))
  | .and | .or => .error (unknownToPlan op "int")

/-- A binary operator on doubles. Division by zero gives an infinity or no number. -/
def doubleBinary (op : BinaryOp) (a b : Float) : Except Fault Value :=
  match op with
  | .add => .ok (.double (a + b))
  | .sub => .ok (.double (a - b))
  | .mul => .ok (.double (a * b))
  | .div => .ok (.double (a / b))
  | .mod => .ok (.double (Double.remainder a b))
  | .pow => .ok (.double (Float.pow a b))
  | .eq => .ok (.bool (a == b))
  | .ne => .ok (.bool (a != b))
  | .lt => .ok (.bool (a < b))
  | .gt => .ok (.bool (b < a))
  | .le => .ok (.bool (a ≤ b))
  | .ge => .ok (.bool (b ≤ a))
  | _ => .error (unknownToPlan op "double")

/-- A binary operator on truth values. -/
def boolBinary (op : BinaryOp) (a b : Bool) : Except Fault Value :=
  match op with
  | .and | .bitAnd => .ok (.bool (a && b))
  | .or | .bitOr => .ok (.bool (a || b))
  | .bitXor | .ne => .ok (.bool (a != b))
  | .eq => .ok (.bool (a == b))
  | _ => .error (unknownToPlan op "bool")

/-- Equality or its opposite, by a test. -/
def equalityBinary (op : BinaryOp) (operands : String) (equal : Bool) : Except Fault Value :=
  match op with
  | .eq => .ok (.bool equal)
  | .ne => .ok (.bool !equal)
  | _ => .error (unknownToPlan op operands)

/-- A binary operator by a plan that needs no host. Values are concatenated by their plain text. -/
def plainBinary (op : BinaryOp) (plan : BinaryPlan) (left right : Value) : Except Fault Value :=
  match plan with
  | .int => do intBinary op (← left.toInt) (← right.toInt)
  | .double => do doubleBinary op (← left.toDouble) (← right.toDouble)
  | .bool => do boolBinary op (← left.toBool) (← right.toBool)
  | .string => equalityBinary op "string" (left.same right)
  | .reference => equalityBinary op "reference" (left.looseSame right)
  | .concat | .overload _ => .ok (.str (left.text ++ right.text))

/-- A unary operator by a plan that needs no host. -/
def plainUnary (op : UnaryOp) (plan : UnaryPlan) (v : Value) : Except Fault Value :=
  match plan, op with
  | .int, .neg => do return .int (← Integer.neg (← v.toInt))
  | .int, .bitNot => do return .int (~~~(← v.toInt))
  | .double, .neg => do return .double (-(← v.toDouble))
  | .bool, .not => do return .bool (!(← v.toBool))
  | _, _ => .error (.typeMismatch s!"operand for `{op.symbol}`" v.kindName)

/-- The value after a step. -/
def stepValue (op : StepOp) (v : Value) : Except Fault Value :=
  match v, op with
  | .int n, .increment => (Integer.fit "increment" (n.toInt + 1)).map .int
  | .int n, .decrement => (Integer.fit "decrement" (n.toInt - 1)).map .int
  | .double x, .increment => .ok (.double (x + 1))
  | .double x, .decrement => .ok (.double (x - 1))
  | v, _ => .error (.typeMismatch "int or double" v.kindName)

namespace Registry

/-- A binary operator by its plan, both operands having been evaluated. -/
def applyBinary (reg : Registry) (op : BinaryOp) (plan : BinaryPlan) (left right : Value)
    (result : Ty) : Run Value :=
  match plan with
  | .concat => do
    let l ← reg.toText left
    let r ← reg.toText right
    return .str (l ++ r)
  | .overload callable => reg.call callable [left, right] result
  | plan => Run.lift (plainBinary op plan left right)

/-- A unary operator by its plan. -/
def applyUnary (reg : Registry) (op : UnaryOp) (plan : UnaryPlan) (v : Value) (result : Ty) :
    Run Value :=
  match plan with
  | .overload callable => reg.call callable [v] result
  | plan => Run.lift (plainUnary op plan v)

end Registry

end TypedExpr
