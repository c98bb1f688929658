import TypedExpr.Registry.Lookup
/-!
# Typing of operators

Which plan an operator has for its operand types, what the operands are converted to, and what the
result is. Two primitives other than `object` have the built-in plans only; with any other operand
a registered overload comes first, then concatenation, then equality of references.

* `Registry.typeBinary`, `Registry.typeUnary`, `Registry.typeCompound`: the typing of an
  application, or why there is none.
-/

namespace TypedExpr

/-- The typing of a binary application. -/
structure BinaryTyping where
  plan : BinaryPlan
  left : Ty
  right : Ty
  result : Ty
  deriving DecidableEq, Repr, Inhabited

/-- The typing of a unary application. -/
structure UnaryTyping where
  plan : UnaryPlan
  operand : Ty
  result : Ty
  deriving DecidableEq, Repr, Inhabited

/-- Why an operator does not apply. -/
inductive OperatorError where
  | typeMismatch
  | unsupported
  | ambiguous (candidates : List String)
  deriving DecidableEq, Repr, Inhabited

/-- A failed look-up of an overload. -/
def ResolveError.toOperatorError : ResolveError → OperatorError
  | .ambiguous candidates => .ambiguous candidates
  | _ => .unsupported

/-- A primitive that has built-in operators. -/
def Ty.isOperand : Ty → Bool
  | .int | .double | .bool | .string => true
  | _ => false

/-- A typing whose operands and result have one type. -/
def BinaryTyping.uniform (plan : BinaryPlan) (t : Ty) : BinaryTyping := ⟨plan, t, t, t⟩

/-- The plan for two numbers: that of the integers if both are, else that of the doubles. -/
def numericPlan (left right : Ty) : BinaryPlan × Ty :=
  if left = .int ∧ right = .int then (.int, .int) else (.double, .double)

/-- The built-in typing of a binary operator. -/
def builtinBinary (op : BinaryOp) (left right : Ty) : Except OperatorError BinaryTyping :=
  let numeric := left.isNumeric && right.isNumeric
  let both (t : Ty) : Bool := left = t && right = t
  if op = .add ∧ (left = .string ∨ right = .string) then .ok ⟨.concat, left, right, .string⟩
  else
    match op.kind with
    | .arithmetic =>
      let (plan, t) := numericPlan left right
      if numeric then .ok (.uniform plan t) else .error .typeMismatch
    | .shift => if both .int then .ok (.uniform .int .int) else .error .typeMismatch
    | .bitwise =>
      if both .int then .ok (.uniform .int .int)
      else if both .bool then .ok (.uniform .bool .bool)
      else .error .typeMismatch
    | .shortCircuit => if both .bool then .ok (.uniform .bool .bool) else .error .typeMismatch
    | .relational =>
      if numeric then .ok ⟨.double, .double, .double, .bool⟩ else .error .typeMismatch
    | .equality =>
      let (plan, t) := numericPlan left right
      if numeric then .ok ⟨plan, t, t, .bool⟩
      else if both .bool then .ok (.uniform .bool .bool)
      else if both .string then .ok ⟨.string, .string, .string, .bool⟩
      else .error .typeMismatch

namespace Registry

/-- The typing of a binary operator with an operand that is not built in. -/
def userBinary (reg : Registry) (op : BinaryOp) (left right : Ty) :
    Except OperatorError BinaryTyping :=
  match reg.resolveBinaryOperator op left right with
  | .error e => .error e.toOperatorError
  | .ok (some call) =>
    .ok ⟨.overload call.callable, call.params.getD 0 .object, call.params.getD 1 .object,
      call.ret⟩
  | .ok none =>
    if op = .add ∧ (left = .string ∨ right = .string) then .ok ⟨.concat, left, right, .string⟩
    else if op.kind = .equality ∧ (reg.isAssignable left right ∨ reg.isAssignable right left) then
      .ok ⟨.reference, left, right, .bool⟩
    else .error .unsupported

/-- The typing of a binary operator. -/
def typeBinary (reg : Registry) (op : BinaryOp) (left right : Ty) :
    Except OperatorError BinaryTyping :=
  if left = .void ∨ right = .void then .error .typeMismatch
  else if left.isOperand && right.isOperand then builtinBinary op left right
  else reg.userBinary op left right

/-- The types that come up when a binary operator is typed. -/
def mentionedByBinary (reg : Registry) (op : BinaryOp) (left right : Ty) : List Ty :=
  if left = .void ∨ right = .void then []
  else if left.isOperand && right.isOperand then []
  else reg.mentionedByBinaryOperator op left right

/-- The built-in typing of a unary operator. -/
def builtinUnary? : UnaryOp → Ty → Option UnaryPlan
  | .neg, .int | .bitNot, .int => some .int
  | .neg, .double => some .double
  | .not, .bool => some .bool
  | _, _ => none

/-- The typing of a unary operator. -/
def typeUnary (reg : Registry) (op : UnaryOp) (operand : Ty) : Except OperatorError UnaryTyping :=
  match builtinUnary? op operand with
  | some plan => .ok ⟨plan, operand, operand⟩
  | none =>
    if operand.isOperand || operand = .void then .error .typeMismatch
    else
      match reg.resolveUnaryOperator op operand with
      | .error e => .error e.toOperatorError
      | .ok (some call) => .ok ⟨.overload call.callable, call.params.getD 0 .object, call.ret⟩
      | .ok none => .error .unsupported

/-- The types that come up when a unary operator is typed. -/
def mentionedByUnary (reg : Registry) (op : UnaryOp) (operand : Ty) : List Ty :=
  if (builtinUnary? op operand).isSome || operand.isOperand || operand = .void then []
  else reg.mentionedByUnaryOperator op operand

/-- The typing of an assignment with an operation: the result must convert to the target. -/
def typeCompound (reg : Registry) (op : BinaryOp) (target value : Ty) :
    Except OperatorError BinaryTyping :=
  if op.kind = .shortCircuit then .error .unsupported
  else do
    let typing ← reg.typeBinary op target value
    if reg.isAssignable typing.result target then .ok typing else .error .typeMismatch

/-- The types that come up when an assignment with an operation is typed. -/
def mentionedByCompound (reg : Registry) (op : BinaryOp) (target value : Ty) : List Ty :=
  if op.kind = .shortCircuit then [] else reg.mentionedByBinary op target value

end Registry

/-- The plan of a step up or down: only numbers can be stepped. -/
def stepPlan? : Ty → Option UnaryPlan
  | .int => some .int
  | .double => some .double
  | _ => none

end TypedExpr
