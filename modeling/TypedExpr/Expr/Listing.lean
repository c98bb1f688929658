import TypedExpr.Expr
/-!
# Listings of nodes

A node is listed as a row of fields: what kind of node it is, its operators, plans and callables,
and its parts by number. A literal is listed by its value.

* `Row.fields`: the fields of a row, without its span and its type.
* `Form.capabilities`: what a node can be used for, by name.
-/

namespace TypedExpr

/-- What stands in one column of a listing. -/
inductive Field where
  | text (s : String)
  | flag (b : Bool)
  | number (n : Nat)
  | numbers (ns : List Nat)
  | absent
  deriving DecidableEq, Repr, Inhabited

/-- A number that may be absent. -/
def Field.ofNumber? : Option Nat → Field
  | some n => .number n
  | none => .absent

/-- The fields of a row. -/
def Row.fields (reg : Registry) (c : Catalog) (row : Row) : List Field :=
  match row.form with
  | .int n => [.text "int", .text (toString n)]
  | .double x => [.text "double", .text (Double.listing x)]
  | .bool b => [.text "bool", .flag b]
  | .str s => [.text "str", .text s]
  | .var name => [.text "ident", .text name]
  | .unary op plan e => [.text "unary", .text op.symbol, .text plan.text, .number e]
  | .binary op plan l r =>
    [.text "binary", .text op.symbol, .text plan.text, .number l, .number r]
  | .ternary q y n => [.text "ternary", .number q, .number y, .number n]
  | .assign target value => [.text "assign", .number target, .number value]
  | .compound op plan target value =>
    [.text "compound", .text op.symbol, .text plan.text, .number target, .number value]
  | .step op before target => [.text "incdec", .text op.symbol, .flag before, .number target]
  | .cast plan e => [.text "cast", .text (plan.text c), .number e]
  | .index e i get set => [.text "index", .number e, .number i, .number get, .ofNumber? set]
  | .property receiver get set =>
    [.text "property", .ofNumber? receiver, .number get, .ofNumber? set]
  | .method receiver callable args =>
    [.text "method", .number receiver, .number callable, .numbers args]
  | .call callable args => [.text "call", .number callable, .numbers args]
  | .new constructor args items insert =>
    [.text "new", .number constructor, .numbers args, .numbers items, .ofNumber? insert]
  | .newArray elem count items =>
    [.text "newarray", .text (reg.typeName elem), .ofNumber? count, .numbers items]

/-- What a node of some type can be used for: it yields a value, it can be assigned to, both, and it
is evaluated for its effect. -/
def Form.capabilities {α : Type} (form : Form α) (type : Ty) : List String :=
  let named (holds : Bool) (name : String) : List String := if holds then [name] else []
  let isGettable := type ≠ .void
  named isGettable "get" ++ named form.isSettable "set" ++
    named (isGettable && form.isSettable) "modify" ++ named (form.isExecutable type) "exec"

/-- What an expression can be used for. -/
def Expr.capabilities (e : Expr) : List String := e.form.capabilities e.type

end TypedExpr
