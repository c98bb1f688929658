import TypedExpr.Expr
/-!
# Expressions as text

An expression is listed in prefix form, with every conversion that was inserted. Callables are shown
by number, and types other than primitives too.
-/

namespace TypedExpr

/-- The type of a cast as a listing shows it. -/
def castLabel (c : Catalog) (t : Ty) : String := t.primitiveName?.getD (c.typeLabel t)

/-- Items in braces, if there are any. -/
def bracedItems (items : String) : String :=
  if items.isEmpty then "" else s!" \x7b{items} \x7d"

/-- Several texts, each after a blank. -/
def spaced (texts : List String) : String := String.join (texts.map (" " ++ ·))

/-- A node of some type in prefix form, given its parts in that form. -/
def Form.text (c : Catalog) (type : Ty) : Form String → String
  | .int n => toString n
  | .double x => Double.listing x
  | .bool b => toString b
  | .str s => Text.quote s
  | .var name => name
  | .unary op _ e => s!"({op.symbol} {e})"
  | .binary op _ l r => s!"({op.symbol} {l} {r})"
  | .ternary q y n => s!"(? {q} {y} {n})"
  | .assign target value => s!"(= {target} {value})"
  | .compound op _ target value => s!"({op.symbol}= {target} {value})"
  | .step op before target =>
    let place := if before then "post" else "pre"
    s!"({place}{op.symbol} {target})"
  | .cast _ e => s!"(as {castLabel c type} {e})"
  | .index e i _ _ => s!"(index {e} {i})"
  | .property receiver get _ => s!"(prop {CallableId.label get}{spaced receiver.toList})"
  | .method receiver callable args =>
    s!"(call {CallableId.label callable}{spaced (receiver :: args)})"
  | .call callable args => s!"(call {CallableId.label callable}{spaced args})"
  | .new _ args items _ => s!"(new {c.typeLabel type}{spaced args}{bracedItems (spaced items)})"
  | .newArray elem count items =>
    s!"(new-array {c.typeLabel elem}{spaced count.toList}{bracedItems (spaced items)})"

/-- The expression in prefix form. -/
def Expr.text (c : Catalog) (e : Expr) : String := e.fold fun _ _ type form => form.text c type

end TypedExpr
