/-!
# Operators

The operators of the language, how they are written, the names under which a registry overloads
them, and the plans by which a typed application is carried out.

* `BinaryOp.overloadName`, `UnaryOp.overloadName`: each operator has an overload name of its own.
* `BinaryOp.kind`: every binary operator is of exactly one kind; the kinds decide the built-in
  operand types.
-/

namespace TypedExpr

/-- The place of a callable in the registry. -/
abbrev CallableId := Nat

/-- How a callable is written in listings. -/
def CallableId.label (n : CallableId) : String := s!"#{n}"

/-- A binary operator. -/
inductive BinaryOp where
  | add
  | sub
  | mul
  | div
  | mod
  | pow
  | shl
  | shr
  | lt
  | gt
  | le
  | ge
  | eq
  | ne
  | bitAnd
  | bitOr
  | bitXor
  | and
  | or
  deriving DecidableEq, Repr, Inhabited

/-- What a binary operator computes. -/
inductive BinaryOp.Kind where
  | arithmetic
  | shift
  | relational
  | equality
  | bitwise
  | shortCircuit
  deriving DecidableEq, Repr

namespace BinaryOp

/-- All binary operators. -/
def all : List BinaryOp :=
  [.add, .sub, .mul, .div, .mod, .pow, .shl, .shr, .lt, .gt, .le, .ge, .eq, .ne, .bitAnd, .bitOr,
    .bitXor, .and, .or]

/-- How the operator is written. -/
def symbol : BinaryOp → String
  | .add => "+"
  | .sub => "-"
  | .mul => "*"
  | .div => "/"
  | .mod => "%"
  | .pow => "**"
  | .shl => "<<"
  | .shr => ">>"
  | .lt => "<"
  | .gt => ">"
  | .le => "<="
  | .ge => ">="
  | .eq => "=="
  | .ne => "!="
  | .bitAnd => "&"
  | .bitOr => "|"
  | .bitXor => "^"
  | .and => "&&"
  | .or => "||"

/-- The member name of an overload. -/
def overloadName : BinaryOp → String
  | .add => "op_Addition"
  | .sub => "op_Subtraction"
  | .mul => "op_Multiply"
  | .div => "op_Division"
  | .mod => "op_Modulus"
  | .pow => "op_Power"
  | .shl => "op_LeftShift"
  | .shr => "op_RightShift"
  | .lt => "op_LessThan"
  | .gt => "op_GreaterThan"
  | .le => "op_LessThanOrEqual"
  | .ge => "op_GreaterThanOrEqual"
  | .eq => "op_Equality"
  | .ne => "op_Inequality"
  | .bitAnd => "op_BitwiseAnd"
  | .bitOr => "op_BitwiseOr"
  | .bitXor => "op_ExclusiveOr"
  | .and => "op_LogicalAnd"
  | .or => "op_LogicalOr"

/-- The kind of the operator. -/
def kind : BinaryOp → Kind
  | .add | .sub | .mul | .div | .mod | .pow => .arithmetic
  | .shl | .shr => .shift
  | .lt | .gt | .le | .ge => .relational
  | .eq | .ne => .equality
  | .bitAnd | .bitOr | .bitXor => .bitwise
  | .and | .or => .shortCircuit

/-- The operator written `symbol`. -/
def ofSymbol? (symbol : String) : Option BinaryOp := all.find? (·.symbol == symbol)

theorem mem_all (op : BinaryOp) : op ∈ all := by cases op <;> decide

theorem ofSymbol?_symbol (op : BinaryOp) : ofSymbol? op.symbol = some op := by
  cases op <;> rfl

end BinaryOp

/-- An operator with one operand. -/
inductive UnaryOp where
  | neg
  | bitNot
  | not
  deriving DecidableEq, Repr, Inhabited

namespace UnaryOp

/-- All unary operators. -/
def all : List UnaryOp := [.neg, .bitNot, .not]

/-- How the operator is written. -/
def symbol : UnaryOp → String
  | .neg => "-"
  | .bitNot => "~"
  | .not => "!"

/-- The member name of an overload. -/
def overloadName : UnaryOp → String
  | .neg => "op_UnaryNegation"
  | .bitNot => "op_OnesComplement"
  | .not => "op_LogicalNot"

/-- The operator written `symbol`. -/
def ofSymbol? (symbol : String) : Option UnaryOp := all.find? (·.symbol == symbol)

end UnaryOp

/-- A step up or down by one. -/
inductive StepOp where
  | increment
  | decrement
  deriving DecidableEq, Repr, Inhabited

/-- How the step is written. -/
def StepOp.symbol : StepOp → String
  | .increment => "++"
  | .decrement => "--"

/-- The step written `symbol`. -/
def StepOp.ofSymbol? (symbol : String) : Option StepOp :=
  [.increment, .decrement].find? (·.symbol == symbol)

/-- An assignment, plain or with an operation. -/
inductive AssignOp where
  | plain
  | compound (op : BinaryOp)
  deriving DecidableEq, Repr, Inhabited

/-- How the assignment is written; an operation that has no assignment of its own is shown as
`op=`. -/
def AssignOp.symbol : AssignOp → String
  | .plain => "="
  | .compound op =>
    match op with
    | .add | .sub | .mul | .div | .mod | .bitAnd | .bitOr | .bitXor | .shl | .shr =>
      op.symbol ++ "="
    | _ => "op="

/-- An operator as it stands in a source text, before it is known whether it is binary. -/
inductive Operator where
  | binary (op : BinaryOp)
  | bang
  | tilde
  | step (op : StepOp)
  | assign (op : AssignOp)
  | question
  deriving DecidableEq, Repr, Inhabited

namespace Operator

/-- How the operator is written. -/
def symbol : Operator → String
  | .binary op => op.symbol
  | .bang => "!"
  | .tilde => "~"
  | .step op => op.symbol
  | .assign op => op.symbol
  | .question => "?"

/-- `-` and `~`, which may start an operand. -/
def startsOperand : Operator → Bool
  | .binary .sub | .tilde => true
  | _ => false

/-- What the operator means in front of an operand. -/
def unary? : Operator → Option UnaryOp
  | .binary .sub => some .neg
  | .tilde => some .bitNot
  | .bang => some .not
  | _ => none

end Operator

/-- How a binary application is carried out, once its operands have been converted. -/
inductive BinaryPlan where
  | int
  | double
  | bool
  | string
  | concat
  | reference
  | overload (callable : CallableId)
  deriving DecidableEq, Repr, Inhabited

/-- How a unary application is carried out. -/
inductive UnaryPlan where
  | int
  | double
  | bool
  | overload (callable : CallableId)
  deriving DecidableEq, Repr, Inhabited

/-- The plans that need no registered operator. -/
def BinaryPlan.builtin : List BinaryPlan := [.int, .double, .bool, .string, .concat, .reference]

/-- The plans that need no registered operator. -/
def UnaryPlan.builtin : List UnaryPlan := [.int, .double, .bool]

/-- How a plan is written in listings. -/
def BinaryPlan.text : BinaryPlan → String
  | .int => "Int"
  | .double => "Double"
  | .bool => "Bool"
  | .string => "Str"
  | .concat => "Concat"
  | .reference => "Reference"
  | .overload callable => s!"Overload({CallableId.label callable})"

/-- How a plan is written in listings. -/
def UnaryPlan.text : UnaryPlan → String
  | .int => "Int"
  | .double => "Double"
  | .bool => "Bool"
  | .overload callable => s!"Overload({CallableId.label callable})"

end TypedExpr
