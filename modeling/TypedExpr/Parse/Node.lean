import TypedExpr.Operator.Apply
import TypedExpr.Operator.Typing
import TypedExpr.Parse.State
/-!
# Building nodes

Every node is checked when it is built: its operands have the types that its operator or member
takes, conversions from integers to doubles are inserted as casts, and an operation whose operands
are literals is followed by the literal of its value, if the options ask for that.

* `Expr.fold?`: the value of an operation on literals.
* `Parser.convert`: an expression as one of another type.
* `Parser.buildUnary`, `Parser.buildBinary`, `Parser.buildCast`, …: a node of each form.
-/

namespace TypedExpr

/-- The value of an operation with a built-in plan on literals, if it does not fail. -/
def Expr.fold? (reg : Registry) (e : Expr) : Option Value :=
  match e.form with
  | .unary _ (.overload _) _ | .binary _ (.overload _) _ _ => none
  | .unary op plan e => do
    let v ← e.form.literal?
    (plainUnary op plan v).toOption
  | .binary op plan l r => do
    let left ← l.form.literal?
    let right ← r.form.literal?
    (plainBinary op plan left right).toOption
  | .cast plan e =>
    match plan with
    | .identity | .intToDouble | .doubleToInt => do
      let v ← e.form.literal?
      (reg.castValue plan v).toOption
    | .checked _ | .host _ => none
  | _ => none

/-- The literal that may stand for an operation: of its value, which must have its type. -/
def Expr.folded? (reg : Registry) (e : Expr) : Option (Form Expr) := do
  let v ← e.fold? reg
  if v.type? = some e.type then Form.ofValue? v else none

namespace Parser

/-- An operation, or a new node with the literal of its value. -/
def fold (s : Setting) (e : Expr) : Parser Expr := do
  if s.options.fold then
    match e.folded? s.registry with
    | some form =>
      match form with
      | .str text => noteName text
      | _ => pure ()
      push form e.span e.type
    | none => return e
  else return e

/-- An expression as one of a type it converts to. -/
def convert (s : Setting) (e : Expr) (target : Ty) (context : String) (line : Nat) :
    Parser Expr := do
  if e.type = target then return e
  else
    match s.registry.implicitCost? e.type target with
    | none =>
      let expected := s.registry.typeName target
      refuse (.typeMismatch e.span expected (s.registry.typeName e.type) context) line
    | some _ =>
      if e.type = .int ∧ target = .double then
        fold s (← push (.cast .intToDouble e) e.span .double)
      else return e

/-- Each argument as one of its parameter type. -/
def convertAll (s : Setting) (context : String) (line : Nat) :
    List Expr → List Ty → Parser (List Expr)
  | e :: es, t :: ts => do
    let first ← convert s e t context line
    return first :: (← convertAll s context line es ts)
  | _, _ => return []

/-- Why an operator does not apply to operands of some types. -/
def operatorFailure (reg : Registry) (e : OperatorError) (span : Span) (symbol : String)
    (operands : List Ty) : Diagnostic :=
  let names := operands.map reg.typeName
  let shown := " and ".intercalate (names.map fun name => s!"`{name}`")
  match e with
  | .typeMismatch =>
    let message := s!"type mismatch: `{symbol}` cannot be applied to {shown}"
    (Diagnostic.error .typeMismatch).withMessage message |>.withLabel span "invalid operand types"
  | .unsupported =>
    match names with
    | [left, right] => .unsupportedOperator span symbol left right
    | _ =>
      let message := s!"operator `{symbol}` cannot be applied to {shown}"
      (Diagnostic.error .unsupportedOperator).withMessage message
        |>.withLabel span "no built-in or registered operator"
  | .ambiguous candidates => .ambiguousOverload span symbol candidates

/-- The typing of an operator, or its failure about the item that the operator is. -/
def typed {α : Type} (s : Setting) (result : Except OperatorError α) (operator : Item)
    (symbol : String) (operands : List Ty) : Parser α :=
  match result with
  | .ok typing => return typing
  | .error e =>
    refuse (operatorFailure s.registry e operator.span symbol operands) operator.line

/-- The element of a container at an index. -/
def buildIndex (s : Setting) (container : Item) (i : Expr) (bracket : Item) : Parser Item := do
  match container.value? with
  | none => refuse (.expectedExpression bracket.span "[") bracket.line
  | some e =>
    requireValue e container.line
    noteTypes (s.registry.mentionedByIndexer e.type)
    match s.registry.resolveIndexer e.type with
    | .error _ =>
      let name := s.registry.typeName e.type
      let diagnostic :=
        (Diagnostic.error .noIndexer).withMessage s!"type `{name}` cannot be indexed"
      refuse (diagnostic.withLabel bracket.span "no indexer") bracket.line
    | .ok indexer =>
      let i ← convert s i indexer.index "index" bracket.line
      let span := container.span.merge bracket.span
      let e ← push (.index e i indexer.get indexer.set) span indexer.elem
      return container.withValue e span

/-- A step of a place up or down. -/
def buildStep (s : Setting) (op : StepOp) (before : Bool) (target : Expr) (operator : Item)
    (span : Span) : Parser Expr :=
  match stepPlan? target.type with
  | some _ => push (.step op before target) span target.type
  | none => typed s (.error .typeMismatch) operator op.symbol [target.type]

/-- A unary operation. -/
def buildUnary (s : Setting) (op : UnaryOp) (operand : Expr) (operator : Item) (span : Span) :
    Parser Expr := do
  noteTypes (s.registry.mentionedByUnary op operand.type)
  let typing ← typed s (s.registry.typeUnary op operand.type) operator op.symbol [operand.type]
  let operand ← convert s operand typing.operand "operand" operator.line
  fold s (← push (.unary op typing.plan operand) span typing.result)

/-- A cast that is written out. -/
def buildCast (s : Setting) (operand : Expr) (target : Ty) (operator : Item) (span : Span) :
    Parser Expr := do
  match s.registry.explicitCast? operand.type target with
  | some plan => fold s (← push (.cast plan operand) span target)
  | none =>
    let source := s.registry.typeName operand.type
    let name := s.registry.typeName target
    let diagnostic :=
      (Diagnostic.error .invalidCast).withMessage s!"cannot cast `{source}` to `{name}`"
    refuse (diagnostic.withLabel operator.span "invalid cast") operator.line

/-- A binary operation. -/
def buildBinary (s : Setting) (op : BinaryOp) (left right : Expr) (operator : Item) (span : Span) :
    Parser Expr := do
  let operands := [left.type, right.type]
  noteTypes (s.registry.mentionedByBinary op left.type right.type)
  let typing ← typed s (s.registry.typeBinary op left.type right.type) operator op.symbol operands
  let left ← convert s left typing.left "left operand" operator.line
  let right ← convert s right typing.right "right operand" operator.line
  fold s (← push (.binary op typing.plan left right) span typing.result)

/-- A choice between two expressions. Its type is that of the branch to which the other
converts. -/
def buildTernary (s : Setting) (condition yes no : Expr) (operator : Item) (span : Span) :
    Parser Expr := do
  let condition ← convert s condition .bool "condition" operator.line
  let type ←
    if s.registry.isAssignable no.type yes.type then pure yes.type
    else if s.registry.isAssignable yes.type no.type then pure no.type
    else
      let expected := s.registry.typeName yes.type
      let context := "branches of a conditional must have compatible types"
      refuse (.typeMismatch no.span expected (s.registry.typeName no.type) context) operator.line
  let yes ← convert s yes type "branch" operator.line
  let no ← convert s no type "branch" operator.line
  push (.ternary condition yes no) span type

/-- An assignment. -/
def buildAssign (s : Setting) (target value : Expr) (operator : Item) (span : Span) :
    Parser Expr := do
  let value ← convert s value target.type "assigned value" operator.line
  push (.assign target value) span target.type

/-- An assignment with an operation. -/
def buildCompound (s : Setting) (op : BinaryOp) (target value : Expr) (operator : Item)
    (span : Span) : Parser Expr := do
  let operands := [target.type, value.type]
  let symbol := (AssignOp.compound op).symbol
  noteTypes (s.registry.mentionedByCompound op target.type value.type)
  let typing ← typed s (s.registry.typeCompound op target.type value.type) operator symbol operands
  let value ← convert s value typing.right "right operand" operator.line
  push (.compound op typing.plan target value) span target.type

/-- An assignment, with an operation or without. -/
def buildUpdate (s : Setting) (op : AssignOp) (target value : Expr) (operator : Item)
    (span : Span) : Parser Expr :=
  match op with
  | .plain => buildAssign s target value operator span
  | .compound op => buildCompound s op target value operator span

end Parser

end TypedExpr
