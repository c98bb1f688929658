import TypedExpr.Parse
import TypedExpr.Proofs.Steps
/-!
# Trees of applied operators

How the operators among some items are applied is a tree over the values among them. It can be built
if every node has a type, which depends on the types of its operands alone, and a node that changes
its operand has one that can be changed. What is then built has the shape of the tree, but for the
casts that convert operands.

* `Tree.type?`, `Tree.isModifiable`: the type of a tree, and whether it can be assigned to.
* `Tree.Shapes`: an expression has the shape of a tree.
* `Derives`: the trees over some items that precedence allows.
-/

namespace TypedExpr

/-- Operators applied to values. An index and the branches of a conditional have been parsed by
themselves. -/
inductive Tree where
  | operand (e : Expr)
  | index (t : Tree) (i : Expr)
  /-- A step after its operand, or else before it. -/
  | step (op : StepOp) (after : Bool) (t : Tree)
  | unary (op : UnaryOp) (t : Tree)
  | cast (type : Ty) (t : Tree)
  | binary (op : BinaryOp) (l r : Tree)
  | ternary (c : Tree) (yes no : Expr)
  | assign (op : AssignOp) (target value : Tree)

/-- An expression of a type may stand where another is asked for. -/
def Registry.accepts (reg : Registry) (source target : Ty) : Bool :=
  source = target || reg.isAssignable source target

namespace Tree

variable (reg : Registry)

/-- The type of an operand, which must have a value. -/
def valueType? (t : Option Ty) : Option Ty := t.filter (· ≠ .void)

/-- The type of an element of a container of a type. -/
def elementType? (container index : Ty) : Option Ty := do
  let indexer ← (reg.resolveIndexer container).toOption
  if reg.accepts index indexer.index then some indexer.elem else none

/-- The type of a unary operation. -/
def unaryType? (op : UnaryOp) (operand : Ty) : Option Ty := do
  let typing ← (reg.typeUnary op operand).toOption
  if reg.accepts operand typing.operand then some typing.result else none

/-- The type of a binary operation. -/
def binaryType? (op : BinaryOp) (left right : Ty) : Option Ty := do
  let typing ← (reg.typeBinary op left right).toOption
  if reg.accepts left typing.left && reg.accepts right typing.right then some typing.result
  else none

/-- The type of a choice between branches of some types. -/
def branchType? (yes no : Ty) : Option Ty :=
  if reg.isAssignable no yes then some yes else if reg.isAssignable yes no then some no else none

/-- The type of a conditional. -/
def ternaryType? (condition yes no : Ty) : Option Ty := do
  let t ← branchType? reg yes no
  if reg.accepts condition .bool && reg.accepts yes t && reg.accepts no t then some t else none

/-- The type of an assignment. -/
def assignType? (op : AssignOp) (target value : Ty) : Option Ty :=
  match op with
  | .plain => if reg.accepts value target then some target else none
  | .compound op => do
    let typing ← (reg.typeCompound op target value).toOption
    if reg.accepts value typing.right then some target else none

mutual

/-- The type of the tree, if every node has one. -/
def type? : Tree → Option Ty
  | operand e => some e.type
  | index t i => do elementType? reg (← valueType? (type? t)) i.type
  | step _ _ t =>
    if isModifiable t then (type? t).filter fun type => (stepPlan? type).isSome else none
  | unary op t => do unaryType? reg op (← valueType? (type? t))
  | cast type t => do
    let source ← valueType? (type? t)
    if (reg.explicitCast? source type).isSome then some type else none
  | binary op l r => do
    let left ← valueType? (type? l)
    binaryType? reg op left (← valueType? (type? r))
  | ternary c yes no => do
    let condition ← valueType? (type? c)
    if yes.type = .void ∨ no.type = .void then none
    else ternaryType? reg condition yes.type no.type
  | assign op target value => do
    if isModifiable target then
      let left ← type? target
      assignType? reg op left (← valueType? (type? value))
    else none

/-- The tree stands for a place that has a value and can be assigned to. -/
def isModifiable : Tree → Bool
  | operand e => e.isModifiable
  | index t _ =>
    match (type? t).bind fun container => (reg.resolveIndexer container).toOption with
    | some indexer => indexer.elem ≠ .void && indexer.set.isSome
    | none => false
  | _ => false

end

end Tree

/-- The expression, as it is passed where an integer or a double is asked for. -/
inductive Expr.Passed : Expr → Expr → Prop where
  | same (e : Expr) : Passed e e
  | cast (e : Expr) (number : Nat) (span : Span) :
    Passed e (.node number span .double (.cast .intToDouble e))

/-- The expression has the shape of the tree, but for the casts that convert its operands. -/
inductive Tree.Shapes : Tree → Expr → Prop where
  | operand (e : Expr) : Shapes (.operand e) e
  | index {t : Tree} {c i a : Expr} {number : Nat} {span : Span} {type : Ty} {get : CallableId}
    {set : Option CallableId} (h : Shapes t c) (hi : i.Passed a) :
    Shapes (.index t i) (.node number span type (.index c a get set))
  | step {t : Tree} {e : Expr} {op : StepOp} {after : Bool} {number : Nat} {span : Span} {type : Ty}
    (h : Shapes t e) : Shapes (.step op after t) (.node number span type (.step op after e))
  | unary {t : Tree} {e a : Expr} {op : UnaryOp} {plan : UnaryPlan} {number : Nat} {span : Span}
    {type : Ty} (h : Shapes t e) (ha : e.Passed a) :
    Shapes (.unary op t) (.node number span type (.unary op plan a))
  | cast {t : Tree} {e : Expr} {plan : CastPlan} {number : Nat} {span : Span} {type : Ty}
    (h : Shapes t e) : Shapes (.cast type t) (.node number span type (.cast plan e))
  | binary {l r : Tree} {e e' a a' : Expr} {op : BinaryOp} {plan : BinaryPlan} {number : Nat}
    {span : Span} {type : Ty} (hl : Shapes l e) (ha : e.Passed a) (hr : Shapes r e')
    (ha' : e'.Passed a') :
    Shapes (.binary op l r) (.node number span type (.binary op plan a a'))
  | ternary {t : Tree} {e a yes no y n : Expr} {number : Nat} {span : Span} {type : Ty}
    (h : Shapes t e) (ha : e.Passed a) (hy : yes.Passed y) (hn : no.Passed n) :
    Shapes (.ternary t yes no) (.node number span type (.ternary a y n))
  | assign {l r : Tree} {e e' a : Expr} {number : Nat} {span : Span} {type : Ty}
    (hl : Shapes l e) (hr : Shapes r e') (ha : e'.Passed a) :
    Shapes (.assign .plain l r) (.node number span type (.assign e a))
  | compound {l r : Tree} {e e' a : Expr} {op : BinaryOp} {plan : BinaryPlan} {number : Nat}
    {span : Span} {type : Ty} (hl : Shapes l e) (hr : Shapes r e') (ha : e'.Passed a) :
    Shapes (.assign (.compound op) l r) (.node number span type (.compound op plan e a))

/-- How tight a binary operator binds; the least binds tightest. -/
def BinaryOp.level : BinaryOp → Nat
  | .pow => 6
  | .mul | .div | .mod => 7
  | .add | .sub => 8
  | .shl | .shr => 9
  | .lt | .gt | .le | .ge => 11
  | .eq | .ne => 12
  | .bitAnd | .bitOr | .bitXor => 13
  | .and | .or => 14

/-- The trees over some items that precedence allows, by level, the tightest first: 1 indexes,
2 steps after their operand, 3 before it, 5 chains of `-`, `~` and casts, 6 to 9 and 11 to 14 binary
operators, 10 `!`, 15 conditionals, 16 assignments. What stands behind `!` is of level `bang`. -/
inductive Derives (bang : Nat) : Nat → List Item → Tree → Prop where
  | operand {i : Item} {e : Expr} (hi : i.kind = .value e) : Derives bang 0 [i] (.operand e)
  | looser {n m : Nat} {xs : List Item} {t : Tree} (h : Derives bang n xs t) (hn : n ≤ m) :
    Derives bang m xs t
  | index {i : Item} {e : Expr} {xs : List Item} {t : Tree} (h : Derives bang 1 xs t)
    (hi : i.kind = .index e) : Derives bang 1 (xs ++ [i]) (.index t e)
  | stepAfter {i : Item} {op : StepOp} {xs : List Item} {t : Tree} (h : Derives bang 2 xs t)
    (hi : i.kind = .operator (.step op)) : Derives bang 2 (xs ++ [i]) (.step op true t)
  | stepBefore {i : Item} {op : StepOp} {xs : List Item} {t : Tree} (h : Derives bang 3 xs t)
    (hi : i.kind = .operator (.step op)) : Derives bang 3 (i :: xs) (.step op false t)
  | minus {i : Item} {xs : List Item} {t : Tree} (h : Derives bang 5 xs t)
    (hi : i.kind = .operator (.binary .sub)) : Derives bang 5 (i :: xs) (.unary .neg t)
  | tilde {i : Item} {xs : List Item} {t : Tree} (h : Derives bang 5 xs t)
    (hi : i.kind = .operator .tilde) : Derives bang 5 (i :: xs) (.unary .bitNot t)
  | cast {i : Item} {type : Ty} {xs : List Item} {t : Tree} (h : Derives bang 5 xs t)
    (hi : i.kind = .cast type) : Derives bang 5 (i :: xs) (.cast type t)
  | power {i : Item} {ls rs : List Item} {l r : Tree} (hl : Derives bang 5 ls l)
    (hr : Derives bang 6 rs r) (hi : i.kind = .operator (.binary .pow)) :
    Derives bang 6 (ls ++ i :: rs) (.binary .pow l r)
  | binary {i : Item} {op : BinaryOp} {ls rs : List Item} {l r : Tree} (hop : op ≠ .pow)
    (hl : Derives bang op.level ls l) (hr : Derives bang (op.level - 1) rs r)
    (hi : i.kind = .operator (.binary op)) : Derives bang op.level (ls ++ i :: rs) (.binary op l r)
  | not {i : Item} {xs : List Item} {t : Tree} (h : Derives bang bang xs t)
    (hi : i.kind = .operator .bang) : Derives bang 10 (i :: xs) (.unary .not t)
  | ternary {q y n : Item} {yes no : Expr} {xs : List Item} {c : Tree} (h : Derives bang 14 xs c)
    (hq : q.kind = .operator .question) (hy : y.kind = .value yes) (hn : n.kind = .value no) :
    Derives bang 15 (xs ++ [q, y, n]) (.ternary c yes no)
  | assign {i : Item} {op : AssignOp} {ls rs : List Item} {l r : Tree} (hl : Derives bang 15 ls l)
    (hr : Derives bang 16 rs r) (hi : i.kind = .operator (.assign op)) :
    Derives bang 16 (ls ++ i :: rs) (.assign op l r)

end TypedExpr
