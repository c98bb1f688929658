import TypedExpr.Coercion
/-!
# Typed expressions

An expression whose operators, members, conversions and types have all been decided. Its nodes are
numbered in the order in which they were built, and each has the span and the type it was built
with.

* `Form`: the form of a node over whatever stands for its parts, which is the parts themselves in a
  tree (`Expr`) and their numbers in a listing (`Row`).
* `Form.literal?`: the value of a literal.
* `Form.isSettable`, `Form.isExecutable`: what a node can be used for.
* `Expr.fold`: combines an expression from its leaves up; `Expr.fold_node` is its only equation.
* `Expr.ofRows?`: the tree that a listing describes.
-/

namespace TypedExpr

/-- The form of a node. `α` is what stands for its parts. -/
inductive Form (α : Type) where
  | int (value : Int64)
  | double (value : Float)
  | bool (value : Bool)
  | str (value : String)
  | var (name : String)
  | unary (op : UnaryOp) (plan : UnaryPlan) (operand : α)
  | binary (op : BinaryOp) (plan : BinaryPlan) (left right : α)
  | ternary (condition yes no : α)
  | assign (target value : α)
  | compound (op : BinaryOp) (plan : BinaryPlan) (target value : α)
  /-- A step whose result is the value before it, or else the value after it. -/
  | step (op : StepOp) (before : Bool) (target : α)
  | cast (plan : CastPlan) (operand : α)
  | index (container index : α) (get : CallableId) (set : Option CallableId)
  | property (receiver : Option α) (get : CallableId) (set : Option CallableId)
  | method (receiver : α) (callable : CallableId) (args : List α)
  | call (callable : CallableId) (args : List α)
  | new (constructor : CallableId) (args items : List α) (insert : Option CallableId)
  | newArray (elem : Ty) (count : Option α) (items : List α)

namespace Form

variable {α β : Type}

/-- The value of a literal. -/
def literal? : Form α → Option Value
  | .int n => some (.int n)
  | .double x => some (.double x)
  | .bool b => some (.bool b)
  | .str s => some (.str s)
  | _ => none

/-- The node is a literal. -/
def isLiteral (form : Form α) : Bool := form.literal?.isSome

/-- The literal of a value of a primitive type. -/
def ofValue? : Value → Option (Form α)
  | .int n => some (.int n)
  | .double x => some (.double x)
  | .bool b => some (.bool b)
  | .str s => some (.str s)
  | _ => none

/-- The node stands for a place that can be stored to. -/
def isSettable : Form α → Bool
  | .var _ => true
  | .index _ _ _ set | .property _ _ set => set.isSome
  | _ => false

/-- The node is evaluated for its effect: an assignment, a step or a construction, or a call that
yields no value. The type is that of the node. -/
def isExecutable (type : Ty) : Form α → Bool
  | .assign _ _ | .compound _ _ _ _ | .step _ _ _ | .new _ _ _ _ => true
  | .method _ _ _ | .call _ _ => type = .void
  | _ => false

/-- The parts from left to right. -/
def parts : Form α → List α
  | .int _ | .double _ | .bool _ | .str _ | .var _ => []
  | .unary _ _ e | .step _ _ e | .cast _ e => [e]
  | .binary _ _ l r | .assign l r | .compound _ _ l r | .index l r _ _ => [l, r]
  | .ternary c y n => [c, y, n]
  | .property receiver _ _ => receiver.toList
  | .method receiver _ args => receiver :: args
  | .call _ args => args
  | .new _ args items _ => args ++ items
  | .newArray _ count items => count.toList ++ items

/-- The form with its parts replaced. -/
def map (f : α → β) : Form α → Form β
  | .int n => .int n
  | .double x => .double x
  | .bool b => .bool b
  | .str s => .str s
  | .var name => .var name
  | .unary op plan e => .unary op plan (f e)
  | .binary op plan l r => .binary op plan (f l) (f r)
  | .ternary c y n => .ternary (f c) (f y) (f n)
  | .assign target value => .assign (f target) (f value)
  | .compound op plan target value => .compound op plan (f target) (f value)
  | .step op before target => .step op before (f target)
  | .cast plan e => .cast plan (f e)
  | .index e i get set => .index (f e) (f i) get set
  | .property receiver get set => .property (receiver.map f) get set
  | .method receiver callable args => .method (f receiver) callable (args.map f)
  | .call callable args => .call callable (args.map f)
  | .new constructor args items insert => .new constructor (args.map f) (items.map f) insert
  | .newArray elem count items => .newArray elem (count.map f) (items.map f)

/-- The form with its parts replaced, if all of them can be. -/
def map? (f : α → Option β) : Form α → Option (Form β)
  | .int n => some (.int n)
  | .double x => some (.double x)
  | .bool b => some (.bool b)
  | .str s => some (.str s)
  | .var name => some (.var name)
  | .unary op plan e => do return .unary op plan (← f e)
  | .binary op plan l r => do return .binary op plan (← f l) (← f r)
  | .ternary c y n => do return .ternary (← f c) (← f y) (← f n)
  | .assign target value => do return .assign (← f target) (← f value)
  | .compound op plan target value => do return .compound op plan (← f target) (← f value)
  | .step op before target => do return .step op before (← f target)
  | .cast plan e => do return .cast plan (← f e)
  | .index e i get set => do return .index (← f e) (← f i) get set
  | .property receiver get set => do return .property (← receiver.mapM f) get set
  | .method receiver callable args => do return .method (← f receiver) callable (← args.mapM f)
  | .call callable args => do return .call callable (← args.mapM f)
  | .new constructor args items insert => do
    return .new constructor (← args.mapM f) (← items.mapM f) insert
  | .newArray elem count items => do return .newArray elem (← count.mapM f) (← items.mapM f)

@[simp] theorem literal?_map (f : α → β) (form : Form α) :
    (form.map f).literal? = form.literal? := by
  cases form <;> rfl

@[simp] theorem isSettable_map (f : α → β) (form : Form α) :
    (form.map f).isSettable = form.isSettable := by
  cases form <;> rfl

@[simp] theorem parts_map (f : α → β) (form : Form α) :
    (form.map f).parts = form.parts.map f := by
  cases form with
  | property receiver _ _ => cases receiver <;> rfl
  | newArray _ count _ => cases count <;> simp [map, parts]
  | new => simp [map, parts]
  | _ => rfl

end Form

/-- A typed expression: its number, its span, its type and its form. -/
inductive Expr where
  | node (number : Nat) (span : Span) (type : Ty) (form : Form Expr)

namespace Expr

instance : Inhabited Expr := ⟨.node 0 .nowhere .void (.bool false)⟩

/-- The number of the node. -/
def number : Expr → Nat
  | .node number _ _ _ => number

/-- The span of the node. -/
def span : Expr → Span
  | .node _ span _ _ => span

/-- The type of the value. -/
def type : Expr → Ty
  | .node _ _ type _ => type

/-- The form of the node. -/
def form : Expr → Form Expr
  | .node _ _ _ form => form

/-! ### What an expression can be used for -/

/-- The expression yields a value. -/
def isGettable (e : Expr) : Bool := e.type ≠ .void

/-- The expression can be assigned to. -/
def isSettable (e : Expr) : Bool := e.form.isSettable

/-- The expression yields a value and can be assigned to. -/
def isModifiable (e : Expr) : Bool := e.isGettable && e.isSettable

theorem isModifiable_iff {e : Expr} :
    e.isModifiable = true ↔ e.type ≠ .void ∧ e.isSettable = true := by
  simp [isModifiable, isGettable]

/-- The expression is evaluated for its effect. -/
def isExecutable (e : Expr) : Bool := e.form.isExecutable e.type

/-! ### Folding -/

section Fold

variable {β : Type} (f : Nat → Span → Ty → Form β → β)

mutual

/-- Combine an expression from its leaves up: `f` is given a node with its parts combined. -/
def fold : Expr → β
  | .node number span type form => f number span type (foldForm form)
  termination_by structural e => e

/-- The form with its parts combined. -/
def foldForm : Form Expr → Form β
  | .int n => .int n
  | .double x => .double x
  | .bool b => .bool b
  | .str s => .str s
  | .var name => .var name
  | .unary op plan e => .unary op plan (fold e)
  | .binary op plan l r => .binary op plan (fold l) (fold r)
  | .ternary c y n => .ternary (fold c) (fold y) (fold n)
  | .assign target value => .assign (fold target) (fold value)
  | .compound op plan target value => .compound op plan (fold target) (fold value)
  | .step op before target => .step op before (fold target)
  | .cast plan e => .cast plan (fold e)
  | .index e i get set => .index (fold e) (fold i) get set
  | .property receiver get set => .property (foldOption receiver) get set
  | .method receiver callable args => .method (fold receiver) callable (foldAll args)
  | .call callable args => .call callable (foldAll args)
  | .new constructor args items insert => .new constructor (foldAll args) (foldAll items) insert
  | .newArray elem count items => .newArray elem (foldOption count) (foldAll items)
  termination_by structural form => form

/-- Each of several expressions, combined. -/
def foldAll : List Expr → List β
  | [] => []
  | e :: es => fold e :: foldAll es
  termination_by structural es => es

/-- An expression that may be absent, combined. -/
def foldOption : Option Expr → Option β
  | none => none
  | some e => some (fold e)
  termination_by structural e => e

end

theorem foldAll_eq_map (es : List Expr) : foldAll f es = es.map (fold f) := by
  induction es with
  | nil => rfl
  | cons e es ih => rw [foldAll, ih, List.map_cons]

theorem foldOption_eq_map (e : Option Expr) : foldOption f e = e.map (fold f) := by
  cases e <;> rfl

theorem foldForm_eq_map (form : Form Expr) : foldForm f form = form.map (fold f) := by
  cases form <;> simp only [foldForm, Form.map, foldAll_eq_map, foldOption_eq_map]

@[simp] theorem fold_node (number : Nat) (span : Span) (type : Ty) (form : Form Expr) :
    fold f (.node number span type form) = f number span type (form.map (fold f)) := by
  rw [fold, foldForm_eq_map]

end Fold

end Expr

/-- A node in a listing, with the numbers of its parts. -/
structure Row where
  span : Span
  type : Ty
  form : Form Nat

/-- The node as a row. -/
def Expr.row (e : Expr) : Row := ⟨e.span, e.type, e.form.map number⟩

/-- The tree below a row of a listing, down to a depth. -/
def Expr.ofRowsUpTo? (rows : Array Row) : Nat → Nat → Option Expr
  | 0, _ => none
  | depth + 1, i => do
    let row ← rows[i]?
    return .node i row.span row.type (← row.form.map? (ofRowsUpTo? rows depth))

/-- The tree below a row of a listing; there is none if a row is missing or is part of itself. -/
def Expr.ofRows? (rows : Array Row) (i : Nat) : Option Expr := ofRowsUpTo? rows rows.size i

end TypedExpr
