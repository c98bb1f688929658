import TypedExpr.Parse.Node
/-!
# Applying operators by precedence

The operators in a list of items are applied in passes, those that bind tightest first:

1. indexes, 2. `++` and `--` after their operand, 3. before it, 4. `-` and `~`, 5. casts,
6. `**` to the right, 7. `*` `/` `%`, 8. `+` `-`, 9. `<<` `>>`, 10. `!`, 11. `<` `>` `<=` `>=`,
12. `==` `!=`, 13. `&` `|` `^`, 14. `&&` `||`, 15. conditionals, 16. assignments, to the right.

A pass goes over the items in one direction and puts the node it builds in the place of the
operator and its operands. One value must remain, or nothing at all.

* `Parser.applyOperators`: all passes.
-/

namespace TypedExpr

namespace Parser

variable (s : Setting)

/-! ### Operands -/

/-- Fail because an item is not a value. -/
def notAValue {α : Type} (item : Item) : Parser α :=
  let found := match item.kind with
    | .typeName type =>
      let name := s.registry.typeName type
      s!"type `{name}`"
    | _ => "this"
  let diagnostic := (Diagnostic.error .expectedExpression).withMessage
    s!"expected expression, found {found}"
  refuse (diagnostic.withLabel item.span "not a value") item.line

/-- The value of the item on one side of an operator. -/
def operand (item : Option Item) (operator : Item) (side : String) : Parser (Item × Expr) :=
  match item with
  | none => refuse (.missingOperand operator.span operator.symbol side) operator.line
  | some item =>
    match item.kind with
    | .value e => if e.type = .void then noValue item.span item.line else return (item, e)
    | .typeName _ => notAValue s item
    | _ =>
      let message := s!"missing {side} operand for `{operator.symbol}`"
      let diagnostic := (Diagnostic.error .expectedExpression).withMessage message
        |>.withLabel item.span "not a value"
        |>.withSecondaryLabel operator.span "operator here"
      refuse diagnostic item.line

/-- The value of the item on one side of an operator that changes it. -/
def placeOperand (item : Option Item) (operator : Item) (side : String) :
    Parser (Item × Expr) := do
  let (item, e) ← operand s item operator side
  if e.isModifiable then return (item, e)
  else refuse (.notModifiable item.span operator.symbol) item.line

/-- The item before an operator leaves it without a left operand. -/
def isPrefixPosition (before : Option Item) : Bool := !(before.any (·.endsOperand))

/-! ### Operators with one operand -/

/-- Attach indexes to their containers. The items done come latest first. -/
def applyIndexes (done : List Item) : List Item → Parser (List Item)
  | [] => return done.reverse
  | item :: rest =>
    match item.kind, done with
    | .index i, container :: done => do
      let element ← buildIndex s container i item
      applyIndexes (element :: done) rest
    | .index _, [] => refuse (.expectedExpression item.span "[") item.line
    | _, done => applyIndexes (item :: done) rest

/-- Apply steps to the operand before them, where there is one that can be changed. The items done
come latest first. -/
def applyStepsAfter (done : List Item) : List Item → Parser (List Item)
  | [] => return done.reverse
  | item :: rest =>
    match item.operator?, done with
    | some (.step op), target :: below =>
      if target.isModifiable then do
        let (_, e) ← operand s (some target) item "left"
        let span := target.span.merge item.span
        let e ← buildStep s op true e item span
        applyStepsAfter (target.withValue e span :: below) rest
      else applyStepsAfter (item :: done) rest
    | _, _ => applyStepsAfter (item :: done) rest

/-- Fail if there is nothing that a step could change after it, but an operand before it. -/
def checkStep (op : StepOp) (before next : Option Item) (line : Nat) : Parser Unit :=
  match next, before with
  | none, some left =>
    if left.endsOperand then refuse (.notModifiable left.span op.symbol) line else return ()
  | _, _ => return ()

/-- Apply a step to the first of the items after it. -/
def applyStepBefore (op : StepOp) (before : Option Item) (operator : Item) (rest : List Item) :
    Parser (List Item) := do
  let next := rest.head?.filter (·.value?.isSome)
  checkStep op before next operator.line
  let (target, e) ← placeOperand s next operator "right"
  let span := operator.span.merge target.span
  let e ← buildStep s op false e operator span
  return operator.withValue e span :: rest.tail

/-- Apply steps to the operand after them, the last one first. -/
def applyStepsBefore (before : Option Item) : List Item → Parser (List Item)
  | [] => return []
  | item :: rest => do
    let rest ← applyStepsBefore (some item) rest
    match item.operator? with
    | some (.step op) => applyStepBefore s op before item rest
    | _ => return item :: rest

/-- Apply an operator to the first of the items after it. -/
def applyUnary (op : UnaryOp) (operator : Item) (rest : List Item) : Parser (List Item) := do
  let (target, e) ← operand s rest.head? operator "right"
  let span := operator.span.merge target.span
  let e ← buildUnary s op e operator span
  return operator.withValue e span :: rest.tail

/-- The item is `-` or `~` in front of an operand: the operator. -/
def prefixOperator? (before : Option Item) (item : Item) : Option UnaryOp := do
  let op ← item.operator?
  if op.startsOperand && isPrefixPosition before then op.unary? else none

/-- The item is a cast, or `-` or `~`, so an operator in front of it has to wait. -/
def isWaiting (item : Item) : Bool :=
  match item.kind with
  | .cast _ => true
  | .operator op => op.startsOperand
  | _ => false

/-- Apply `-` and `~` in front of an operand, the last one first. One that is in front of a cast
waits. -/
def applyPrefixes (before : Option Item) : List Item → Parser (List Item)
  | [] => return []
  | item :: rest => do
    let rest ← applyPrefixes (some item) rest
    match prefixOperator? before item with
    | some op => if rest.head?.any isWaiting then return item :: rest else applyUnary s op item rest
    | none => return item :: rest

/-- Apply the operator that the item is if it has waited for a cast. -/
def applyWaiting (before : Option Item) (item : Item) (isCast : Bool) (rest : List Item) :
    Parser (List Item × Bool) :=
  match isCast, prefixOperator? before item with
  | true, some op => return (← applyUnary s op item rest, true)
  | _, _ => return (item :: rest, false)

/-- Apply casts, the last one first, and to each the operators that wait for it. The result also
says whether the first item comes from a cast. -/
def applyCastsFrom (before : Option Item) : List Item → Parser (List Item × Bool)
  | [] => return ([], false)
  | item :: rest => do
    let (rest, isCast) ← applyCastsFrom (some item) rest
    match item.kind with
    | .cast type =>
      let (target, e) ← operand s rest.head? item "right"
      let span := item.span.merge target.span
      let e ← buildCast s e type item span
      return (item.withValue e span :: rest.tail, true)
    | _ => applyWaiting s before item isCast rest

/-- Apply casts. -/
def applyCasts (items : List Item) : Parser (List Item) :=
  return (← applyCastsFrom s none items).1

/-- Apply `!`, the last one first. -/
def applyNot : List Item → Parser (List Item)
  | [] => return []
  | item :: rest => do
    let rest ← applyNot rest
    if item.operator? = some .bang then applyUnary s .not item rest else return item :: rest

/-! ### Operators with two operands -/

/-- Apply a binary operator to the items on both sides. -/
def applyBinary (op : BinaryOp) (left : Option Item) (operator : Item) (right : Option Item) :
    Parser Item := do
  let (left, l) ← operand s left operator "left"
  let (right, r) ← operand s right operator "right"
  let span := left.span.merge right.span
  let e ← buildBinary s op l r operator span
  return left.withValue e span

/-- The item is one of some binary operators. -/
def isOneOf? (ops : List BinaryOp) (item : Item) : Option BinaryOp :=
  match item.operator? with
  | some (.binary op) => if op ∈ ops then some op else none
  | _ => none

/-- Apply some binary operators, the first one first. The items done come latest first. -/
def applyLeftward (ops : List BinaryOp) (done : List Item) : List Item → Parser (List Item)
  | [] => return done.reverse
  | item :: rest =>
    match isOneOf? ops item, rest with
    | some op, right :: rest => do
      let e ← applyBinary s op done.head? item (some right)
      applyLeftward ops (e :: done.tail) rest
    | some op, [] => do
      let e ← applyBinary s op done.head? item none
      return (e :: done.tail).reverse
    | none, rest => applyLeftward ops (item :: done) rest

/-- Apply some binary operators, the last one first. The items to come are the latest first, those
done are not. -/
def applyRightward (ops : List BinaryOp) (done : List Item) : List Item → Parser (List Item)
  | [] => return done
  | item :: rest =>
    match isOneOf? ops item, rest with
    | some op, left :: rest => do
      let e ← applyBinary s op (some left) item done.head?
      applyRightward ops (e :: done.tail) rest
    | some op, [] => do
      let e ← applyBinary s op none item done.head?
      return e :: done.tail
    | none, rest => applyRightward ops (item :: done) rest

/-! ### Conditionals and assignments -/

/-- Apply `?` to the item before it and the two after it. -/
def applyTernary (condition : Option Item) (operator : Item) (done : List Item) :
    Parser (List Item) := do
  let (first, c) ← operand s condition operator "left"
  let (_, yes) ← operand s done[0]? operator "right"
  let (last, no) ← operand s done[1]? operator "right"
  let span := first.span.merge last.span
  let e ← buildTernary s c yes no operator span
  return first.withValue e span :: done.drop 2

/-- Apply every `?`, the last one first. The items to come are the latest first, those done are
not. -/
def applyTernaries (done : List Item) : List Item → Parser (List Item)
  | [] => return done
  | item :: rest =>
    if item.operator? = some .question then
      match rest with
      | condition :: rest => do applyTernaries (← applyTernary s (some condition) item done) rest
      | [] => applyTernary s none item done
    else applyTernaries (item :: done) rest

/-- Apply an assignment to the items on both sides. -/
def applyAssign (op : AssignOp) (target : Option Item) (operator : Item) (value : Option Item) :
    Parser Item := do
  let (target, t) ← placeOperand s target operator "left"
  let (last, v) ← operand s value operator "right"
  let span := target.span.merge last.span
  let e ← buildUpdate s op t v operator span
  return target.withValue e span

/-- Apply every assignment, the last one first. The items to come are the latest first, those done
are not. -/
def applyAssignments (done : List Item) : List Item → Parser (List Item)
  | [] => return done
  | item :: rest =>
    match item.operator?, rest with
    | some (.assign op), target :: rest => do
      let e ← applyAssign s op (some target) item done.head?
      applyAssignments (e :: done.tail) rest
    | some (.assign op), [] => do
      let e ← applyAssign s op none item done.head?
      return e :: done.tail
    | _, rest => applyAssignments (item :: done) rest

/-! ### All passes -/

/-- The item is an operator or a cast that has not been applied. -/
def isUnapplied (item : Item) : Bool :=
  match item.kind with
  | .operator _ | .cast _ => true
  | _ => false

/-- What remains when all operators have been applied. -/
def remaining (items : List Item) : Parser (Option Expr) :=
  match items.find? isUnapplied with
  | some item =>
    let side := if (items.dropWhile fun i => !isUnapplied i).length = 1 then "right" else "left"
    refuse (.missingOperand item.span item.symbol side) item.line
  | none =>
    match items with
    | [] => return none
    | [item] =>
      match item.kind with
      | .value e => return some e
      | _ => notAValue s item
    | first :: second :: _ =>
      let diagnostic := (Diagnostic.error .missingOperator).withMessage
        "expected an operator between operands"
      refuse (diagnostic.withLabel second.span "unexpected operand"
        |>.withSecondaryLabel first.span "after this operand") second.line

/-- All passes over the items. -/
def applyPasses (items : List Item) : Parser (List Item) := do
  let items ← applyIndexes s [] items
  let items ← applyStepsAfter s [] items
  let items ← applyStepsBefore s none items
  let items ← applyPrefixes s none items
  let items ← applyCasts s items
  let items ← applyRightward s [.pow] [] items.reverse
  let items ← applyLeftward s [.mul, .div, .mod] [] items
  let items ← applyLeftward s [.add, .sub] [] items
  let items ← applyLeftward s [.shl, .shr] [] items
  let items ← applyNot s items
  let items ← applyLeftward s [.lt, .gt, .le, .ge] [] items
  let items ← applyLeftward s [.eq, .ne] [] items
  let items ← applyLeftward s [.bitAnd, .bitOr, .bitXor] [] items
  let items ← applyLeftward s [.and, .or] [] items
  let items ← applyTernaries s [] items.reverse
  applyAssignments s [] items.reverse

/-- Apply all operators. -/
def applyOperators (items : List Item) : Parser (Option Expr) := do
  remaining s (← applyPasses s items)

end Parser

end TypedExpr
