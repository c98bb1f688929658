import TypedExpr.Expr
/-!
# Items

Parsing an expression first turns its tokens into a list of items, in which everything that binds
tighter than any operator is already put together. The operators are applied afterwards.

* `Item.endsOperand`: whether an operator after the item has the item as its left operand.
-/

namespace TypedExpr

/-- What an item is: an operator, a finished value, a type name in front of a dot, an index whose
container is the item before, or a cast in front of its operand. -/
inductive ItemKind where
  | operator (op : Operator)
  | value (e : Expr)
  | typeName (type : Ty)
  | index (e : Expr)
  | cast (type : Ty)

/-- An item and where it stands. -/
structure Item where
  kind : ItemKind
  span : Span
  line : Nat

namespace Item

instance : Inhabited Item := ⟨⟨.operator .question, .nowhere, 1⟩⟩

/-- The operator that the item is. -/
def operator? (i : Item) : Option Operator :=
  match i.kind with
  | .operator op => some op
  | _ => none

/-- The value that the item is. -/
def value? (i : Item) : Option Expr :=
  match i.kind with
  | .value e => some e
  | _ => none

/-- The item is an index whose container has not been attached. -/
def isIndex (i : Item) : Bool :=
  match i.kind with
  | .index _ => true
  | _ => false

/-- A value, a type name or an index: a `-` after it has a left operand. -/
def endsOperand (i : Item) : Bool :=
  match i.kind with
  | .value _ | .typeName _ | .index _ => true
  | .operator _ | .cast _ => false

/-- A value that can be read and assigned to. -/
def isModifiable (i : Item) : Bool :=
  match i.kind with
  | .value e => e.isModifiable
  | _ => false

/-- The operator of the item in messages. -/
def symbol (i : Item) : String :=
  match i.kind with
  | .operator op => op.symbol
  | .cast _ => "cast"
  | _ => ""

/-- A value in the place of an item. -/
def withValue (i : Item) (e : Expr) (span : Span) : Item := ⟨.value e, span, i.line⟩

end Item

end TypedExpr
