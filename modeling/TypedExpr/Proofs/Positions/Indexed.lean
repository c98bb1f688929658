import TypedExpr.Parse
import TypedExpr.Proofs.Positions.Order
/-!
# Passes that count

Here the passes over the items of an expression go through one list with an index, as a loop does
that changes the list in place: they read an item at an index, and put a node in the place of some
items. The parameter `amiss` is what happens when an index is out of bounds, or when the items are
not in order any more. That it makes no difference means that this never happens.

* `Parser.Indexed.itemAt`, `Parser.Indexed.splice`: how items are read and replaced.
* `Parser.Indexed.forward`, `Parser.Indexed.backward`: loops over the indexes.
* `Parser.Indexed.passes`: all passes in order.
* `Parser.Indexed.expression`: expressions that are parsed so, at every level of nesting.
-/

namespace TypedExpr

namespace Parser.Indexed

variable (s : Setting) (amiss : (α : Type) → Parser α) (sub : Parser (Option Expr))

/-! ### Reading and replacing items -/

/-- The item at an index. -/
def itemAt (items : List Item) (i : Nat) : Parser Item :=
  match items[i]? with
  | some item => return item
  | none => amiss Item

/-- The index before. -/
def previous : Nat → Parser Nat
  | 0 => amiss Nat
  | i + 1 => return i

/-- The item before an index; there is none before the first one. -/
def itemBefore (items : List Item) : Nat → Parser (Option Item)
  | 0 => return none
  | i + 1 => return some (← itemAt amiss items i)

/-- The items, if they are in order. -/
def inOrder (items : List Item) : Parser (List Item) :=
  if Item.Orderly items then return items else amiss (List Item)

/-- One item in the place of those from one index to another. -/
def splice (items : List Item) (first last : Nat) (item : Item) : Parser (List Item) :=
  if first ≤ last ∧ last < items.length then
    inOrder amiss (items.take first ++ item :: items.drop (last + 1))
  else amiss (List Item)

/-- A node in the place of the items from one index to another, built with their span. -/
def merge (items : List Item) (first last : Nat) (build : Span → Parser Expr) :
    Parser (List Item) := do
  let a ← itemAt amiss items first
  let b ← itemAt amiss items last
  let span := a.span.merge b.span
  let e ← build span
  splice amiss items first last (a.withValue e span)

/-! ### Loops -/

/-- Go on from an index to the end of the items. A round says what the items are and where to go on.
The number bounds the rounds. -/
def forward (round : List Item → Nat → Parser (List Item × Nat)) :
    Nat → List Item → Nat → Parser (List Item)
  | 0, items, i => if i < items.length then amiss (List Item) else return items
  | n + 1, items, i => do
    if i < items.length then
      let (items, i) ← round items i
      forward round n items i
    else return items

/-- Go back from before an index to the first of the items. A round says what the items are and
before which index to go on. The number bounds the rounds. -/
def backward (round : List Item → Nat → Parser (List Item × Nat)) :
    Nat → List Item → Nat → Parser (List Item)
  | _, items, 0 => return items
  | 0, _, _ + 1 => amiss (List Item)
  | n + 1, items, i + 1 => do
    let (items, i) ← round items i
    backward round n items i

/-! ### Operators with one operand -/

/-- Attach an index to its container. -/
def indexRound (items : List Item) (i : Nat) : Parser (List Item × Nat) := do
  let item ← itemAt amiss items i
  match item.kind with
  | .index e =>
    let j ← previous amiss i
    let container ← itemAt amiss items j
    let element ← buildIndex s container e item
    return (← splice amiss items j i element, i)
  | _ => return (items, i + 1)

/-- Apply a step to the operand before it. -/
def stepAfterRound (items : List Item) (i : Nat) : Parser (List Item × Nat) := do
  let item ← itemAt amiss items i
  match item.operator? with
  | some (.step op) =>
    let j ← previous amiss i
    let target ← itemAt amiss items j
    if target.isModifiable then
      let (_, e) ← operand s (some target) item "left"
      return (← merge amiss items j i (buildStep s op true e item), i)
    else return (items, i + 1)
  | _ => return (items, i + 1)

/-- Apply a step to the operand after it. -/
def stepBeforeRound (items : List Item) (i : Nat) : Parser (List Item × Nat) := do
  let item ← itemAt amiss items i
  match item.operator? with
  | some (.step op) =>
    let next := items[i + 1]?.filter (·.value?.isSome)
    checkStep op (← itemBefore amiss items i) next item.line
    let (_, e) ← placeOperand s next item "right"
    return (← merge amiss items i (i + 1) (buildStep s op false e item), i)
  | _ => return (items, i)

/-- Apply the operator at an index to the item after it. -/
def unaryAt (op : UnaryOp) (items : List Item) (i : Nat) : Parser (List Item) := do
  let operator ← itemAt amiss items i
  let (_, e) ← operand s items[i + 1]? operator "right"
  merge amiss items i (i + 1) (buildUnary s op e operator)

/-- The operator `-` or `~` at an index, if it is in front of an operand. -/
def prefixAt (items : List Item) (i : Nat) : Parser (Option UnaryOp) := do
  let item ← itemAt amiss items i
  return prefixOperator? (← itemBefore amiss items i) item

/-- Apply `-` or `~` unless it waits. -/
def prefixRound (items : List Item) (i : Nat) : Parser (List Item × Nat) := do
  match ← prefixAt amiss items i with
  | some op =>
    if items[i + 1]?.any isWaiting then return (items, i)
    else return (← unaryAt s amiss op items i, i)
  | none => return (items, i)

/-- Apply the operators before an index that have waited. -/
def applyWaiting : Nat → List Item → Parser (List Item × Nat)
  | 0, items => return (items, 0)
  | i + 1, items => do
    match ← prefixAt amiss items i with
    | some op => applyWaiting i (← unaryAt s amiss op items i)
    | none => return (items, i + 1)

/-- Apply a cast, and then the operators that have waited for it. -/
def castRound (items : List Item) (i : Nat) : Parser (List Item × Nat) := do
  let item ← itemAt amiss items i
  match item.kind with
  | .cast type =>
    let (_, e) ← operand s items[i + 1]? item "right"
    applyWaiting s amiss i (← merge amiss items i (i + 1) (buildCast s e type item))
  | _ => return (items, i)

/-- Apply `!`. -/
def notRound (items : List Item) (i : Nat) : Parser (List Item × Nat) := do
  let item ← itemAt amiss items i
  if item.operator? = some .bang then return (← unaryAt s amiss .not items i, i)
  else return (items, i)

/-! ### Operators with several operands -/

/-- Apply the binary operator at an index to the items on both sides. -/
def binaryAt (op : BinaryOp) (items : List Item) (i : Nat) : Parser (List Item) := do
  let operator ← itemAt amiss items i
  let (_, l) ← operand s (← itemBefore amiss items i) operator "left"
  let (_, r) ← operand s items[i + 1]? operator "right"
  merge amiss items (← previous amiss i) (i + 1) (buildBinary s op l r operator)

/-- Apply an operator to the left. -/
def leftwardRound (ops : List BinaryOp) (items : List Item) (i : Nat) :
    Parser (List Item × Nat) := do
  match isOneOf? ops (← itemAt amiss items i) with
  | some op => return (← binaryAt s amiss op items i, i)
  | none => return (items, i + 1)

/-- Apply an operator to the right. -/
def rightwardRound (ops : List BinaryOp) (items : List Item) (i : Nat) :
    Parser (List Item × Nat) := do
  match isOneOf? ops (← itemAt amiss items i) with
  | some op => return (← binaryAt s amiss op items i, ← previous amiss i)
  | none => return (items, i)

/-- Apply `?` to the item before it and the two after it. -/
def ternaryRound (items : List Item) (i : Nat) : Parser (List Item × Nat) := do
  let operator ← itemAt amiss items i
  if operator.operator? = some .question then
    let (_, c) ← operand s (← itemBefore amiss items i) operator "left"
    let (_, yes) ← operand s items[i + 1]? operator "right"
    let (_, no) ← operand s items[i + 2]? operator "right"
    let j ← previous amiss i
    return (← merge amiss items j (i + 2) (buildTernary s c yes no operator), j)
  else return (items, i)

/-- Apply an assignment to the items on both sides. -/
def assignRound (items : List Item) (i : Nat) : Parser (List Item × Nat) := do
  let operator ← itemAt amiss items i
  match operator.operator? with
  | some (.assign op) =>
    let (_, t) ← placeOperand s (← itemBefore amiss items i) operator "left"
    let (_, v) ← operand s items[i + 1]? operator "right"
    let j ← previous amiss i
    return (← merge amiss items j (i + 1) (buildUpdate s op t v operator), j)
  | _ => return (items, i)

/-! ### All passes -/

/-- A pass from an index on. -/
def pass (round : List Item → Nat → Parser (List Item × Nat)) (i : Nat) (items : List Item) :
    Parser (List Item) := forward amiss round items.length items i

/-- A pass back from the end. -/
def passBack (round : List Item → Nat → Parser (List Item × Nat)) (items : List Item) :
    Parser (List Item) := backward amiss round items.length items items.length

/-- All passes in order. -/
def passes : List (List Item → Parser (List Item)) := [
  pass amiss (indexRound s amiss) 0,
  pass amiss (stepAfterRound s amiss) 1,
  passBack amiss (stepBeforeRound s amiss),
  passBack amiss (prefixRound s amiss),
  passBack amiss (castRound s amiss),
  passBack amiss (rightwardRound s amiss [.pow]),
  pass amiss (leftwardRound s amiss [.mul, .div, .mod]) 0,
  pass amiss (leftwardRound s amiss [.add, .sub]) 0,
  pass amiss (leftwardRound s amiss [.shl, .shr]) 0,
  passBack amiss (notRound s amiss),
  pass amiss (leftwardRound s amiss [.lt, .gt, .le, .ge]) 0,
  pass amiss (leftwardRound s amiss [.eq, .ne]) 0,
  pass amiss (leftwardRound s amiss [.bitAnd, .bitOr, .bitXor]) 0,
  pass amiss (leftwardRound s amiss [.and, .or]) 0,
  passBack amiss (ternaryRound s amiss),
  passBack amiss (assignRound s amiss)]

/-! ### Collecting items -/

/-- Attach the indexes that the items end with to their container. -/
def attachIndexes (items : List Item) : Parser (List Item) :=
  let start := items.length - (items.reverse.takeWhile (·.isIndex)).length
  let brackets := items.drop start
  if start = items.length then return items
  else
    match (items.take start).getLast? with
    | none => do
      let bracket ← itemAt amiss brackets 0
      refuse (.expectedExpression bracket.span "[") bracket.line
    | some container => do
      let attach (container bracket : Item) : Parser Item :=
        match bracket.kind with
        | .index i => buildIndex s container i bracket
        | _ => return container
      let element ← brackets.foldlM attach container
      inOrder amiss ((items.take start).dropLast ++ [element])

/-- A member of the last item. -/
def collectMember (items : List Item) : Parser (List Item) := do
  let dot ← advance s
  let items ← attachIndexes s amiss items.reverse
  let (owner, below) ← ownerOf dot items.reverse
  return (← member s sub owner) :: below

/-- What begins at the token at hand, which does not end the expression. -/
def collectNext (items : List Item) : Parser (List Item) := do
  if (← current s).kind = .dot then collectMember s amiss sub items
  else Parser.collectNext s sub items

/-- The items up to a token that ends the expression, in order after every step. -/
def collectFrom : Nat → List Item → Parser (List Item)
  | 0, items => return items.reverse
  | n + 1, items => do
    if (← current s).kind.isTerminator then return items.reverse
    else
      let items ← collectNext s amiss sub items
      let _ ← inOrder amiss items.reverse
      collectFrom n items

/-! ### Expressions -/

/-- The expression at the token at hand, with at most so many levels of nesting. -/
def expression : Nat → Parser (Option Expr)
  | 0 => Parser.expression s 0
  | levels + 1 => fun p =>
    (do
      let items ← collectFrom s amiss (expression levels) s.tokens.size []
      remaining s (← (passes s amiss).foldlM (fun items pass => pass items) items) :
      Parser (Option Expr)) p

end Parser.Indexed

end TypedExpr
