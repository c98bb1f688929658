import TypedExpr.Environment
import TypedExpr.Expr
import TypedExpr.Operator.Apply
/-!
# Evaluation

An expression is evaluated as it was built: operators by their plans, conversions and members as
they were chosen. What is left to check are the faults that only values show, and that what comes
back from the host has the type that was expected.

* `Denoted`: what an expression denotes, the evaluations of its value and of its place.
* `Form.value`, `Form.place`: what a node denotes, given what its parts denote. What is inside a
  place is evaluated once, also when the place is both read and stored to.
* `Expr.denote`: what an expression denotes, node by node (`Expr.denote_node`).
* `Denoted.valueAs`, `Denoted.store`, `Denoted.execute`: a value of a given type, storing to an
  expression, and evaluation for the effect alone.
-/

namespace TypedExpr

/-- What an evaluation changes: variables, and the world. -/
structure EvalState where
  context : Context
  world : World

/-- An evaluation. What was done before a failure stays done. -/
abbrev Eval := ExceptT EvalError (StateM EvalState)

/-- Where a value can be read and stored. -/
inductive Place where
  | var (name : String) (type : Ty)
  | element (container index : Value) (get set : CallableId) (type : Ty)
  | property (receiver : Option Value) (get set : CallableId) (type : Ty)

/-- The type of what is stored at a place. -/
def Place.type : Place → Ty
  | .var _ type | .element _ _ _ _ type | .property _ _ _ type => type

namespace Eval

/-- A step that has failed or succeeded already. -/
def lift {α : Type} (x : Except Fault α) : Eval α :=
  ExceptT.mk (pure (x.mapError Fault.unplaced))

/-- A step in the world. -/
def inWorld {α : Type} (x : Run α) : Eval α :=
  ExceptT.mk fun s =>
    let (result, world) := x.run s.world
    (result.mapError Fault.unplaced, { s with world := world })

theorem run_inWorld {α : Type} (x : Run α) (s : EvalState) :
    (inWorld x).run s = ((x.run s.world).1.mapError Fault.unplaced,
      { s with world := (x.run s.world).2 }) := rfl

/-- A failure inside an expression carries the span of it, if it has none yet. -/
def inside {α : Type} (span : Span) (x : Eval α) : Eval α :=
  ExceptT.mk fun s =>
    let (result, s) := x.run s
    (result.mapError (·.inside span), s)

theorem run_inside {α : Type} (span : Span) (x : Eval α) (s : EvalState) :
    (inside span x).run s = ((x.run s).1.mapError (·.inside span), (x.run s).2) := rfl

/-- The value of a variable. -/
def read (name : String) (type : Ty) : Eval Value :=
  ExceptT.mk fun s =>
    ((s.context.read s.world.catalog name type).mapError Fault.unplaced, s)

/-- Store to a variable. -/
def write (name : String) (type : Ty) (v : Value) : Eval Unit :=
  ExceptT.mk fun s =>
    match s.context.write s.world.catalog name type v with
    | .ok context => (.ok (), { s with context := context })
    | .error fault => (.error fault.unplaced, s)

section

variable {name : String} {type : Ty} {v : Value} {s : EvalState}

theorem run_read_ok (h : s.context.read s.world.catalog name type = .ok v) :
    (read name type).run s = (.ok v, s) := by
  unfold read
  rw [ExceptT.run_mk, h]
  rfl

theorem run_write_ok {context : Context}
    (h : s.context.write s.world.catalog name type v = .ok context) :
    (write name type v).run s = (.ok (), { s with context := context }) := by
  unfold write
  rw [ExceptT.run_mk]
  simp only [h]

theorem run_write_error {fault : Fault}
    (h : s.context.write s.world.catalog name type v = .error fault) :
    (write name type v).run s = (.error fault.unplaced, s) := by
  unfold write
  rw [ExceptT.run_mk]
  simp only [h]

end

/-- What a member is taken of: anything but null. -/
def notNull (span : Span) (use : String) (x : Eval Value) : Eval Value := do
  match ← x with
  | .null => throw ⟨.nullReference use, some span⟩
  | v => return v

/-- The length of a new array: that of its items, or a number that is not negative and not less. -/
def arrayLength (count : Option Value) (items : Nat) : Except Fault Nat :=
  match count with
  | none => .ok items
  | some v => do
    let n ← v.toInt
    if n < 0 then throw (.indexOutOfRange n.toInt 0)
    else if n.toInt.toNat < items then throw (.indexOutOfRange items n.toInt.toNat)
    else return n.toInt.toNat

end Eval

namespace Registry

/-- A value as one of the type expected, or the mismatch. -/
def conform (reg : Registry) (v : Value) (type : Ty) : Except Fault Value :=
  let v := v.promote type
  if reg.conforms v type then .ok v
  else .error (.typeMismatch (reg.typeName type) (reg.valueTypeName v))

/-- Call the host for a value of a type; where nothing is expected anything may come back. -/
def callFor (reg : Registry) (id : CallableId) (args : List Value) (type : Ty) : Run Value := do
  let v ← reg.call id args type
  if type = .void then return v else Run.lift (reg.conform v type)

/-- Read a place. -/
def load (reg : Registry) : Place → Eval Value
  | .var name type => Eval.read name type
  | .element container index get _ type => Eval.inWorld (reg.callFor get [container, index] type)
  | .property receiver get _ type => Eval.inWorld (reg.callFor get receiver.toList type)

/-- Store to a place. -/
def store (reg : Registry) (place : Place) (v : Value) : Eval Unit :=
  match place with
  | .var name type => Eval.write name type v
  | .element container index _ set _ => do
    let _ ← Eval.inWorld (reg.call set [container, index, v] .void)
  | .property receiver _ set _ => do
    let _ ← Eval.inWorld (reg.call set (receiver.toList ++ [v]) .void)

end Registry

/-- What an expression denotes: its span and type, and how its value and the place it stands for are
evaluated. -/
structure Denoted where
  span : Span
  type : Ty
  value : Eval Value
  place : Eval Place

namespace Denoted

/-- The values of several expressions, from left to right. -/
def values : List Denoted → Eval (List Value)
  | [] => return []
  | e :: es => do
    let v ← e.value
    return v :: (← values es)

/-- The value of an expression that may be absent. -/
def value? : Option Denoted → Eval (Option Value)
  | none => return none
  | some e => do return some (← e.value)

/-- Evaluate items and insert each into a collection before the next is evaluated. -/
def insertAll (reg : Registry) (insert : CallableId) (collection : Value) :
    List Denoted → Eval Unit
  | [] => return ()
  | e :: es => do
    let item ← e.value
    let _ ← Eval.inWorld (reg.call insert [collection, item] .void)
    insertAll reg insert collection es

end Denoted

namespace Form

/-- The value of a node of some type, given what its parts denote. -/
def value (reg : Registry) (type : Ty) : Form Denoted → Eval Value
  | .int n => return .int n
  | .double x => return .double x
  | .bool b => return .bool b
  | .str s => return .str s
  | .var name => Eval.read name type
  | .unary op plan e => do
    let v ← e.value
    Eval.inWorld (reg.applyUnary op plan v type)
  | .binary op plan l r => do
    let left ← l.value
    if op.kind = .shortCircuit ∧ plan = .bool then
      let decided ← Eval.lift left.toBool
      if decided = (op = .or) then return .bool decided
      else
        let right ← r.value
        return .bool (← Eval.lift right.toBool)
    else
      let right ← r.value
      Eval.inWorld (reg.applyBinary op plan left right type)
  | .ternary c y n => do
    let condition ← c.value
    if ← Eval.lift condition.toBool then y.value else n.value
  | .assign target value => do
    let place ← target.place
    let v ← value.value
    reg.store place v
    return v
  | .compound op plan target value => do
    let place ← target.place
    let current ← reg.load place
    let v ← value.value
    let result ← Eval.inWorld (reg.applyBinary op plan current v type)
    let result := result.promote place.type
    reg.store place result
    return result
  | .step op before target => do
    let place ← target.place
    let old ← reg.load place
    let stepped ← Eval.lift (stepValue op old)
    reg.store place stepped
    return if before then old else stepped
  | .cast plan e => do
    let v ← e.value
    Eval.inWorld (reg.applyCast plan v type)
  | .index e i get _ => do
    let container ← Eval.notNull e.span "indexer" e.value
    let index ← i.value
    Eval.inWorld (reg.callFor get [container, index] type)
  | .property (some e) get _ => do
    let receiver ← Eval.notNull e.span "property access" e.value
    Eval.inWorld (reg.callFor get [receiver] type)
  | .property none get _ => Eval.inWorld (reg.callFor get [] type)
  | .method e callable args => do
    let receiver ← Eval.notNull e.span "method call" e.value
    let args ← Denoted.values args
    Eval.inWorld (reg.callFor callable (receiver :: args) type)
  | .call callable args => do
    let args ← Denoted.values args
    Eval.inWorld (reg.callFor callable args type)
  | .new constructor args items insert => do
    let args ← Denoted.values args
    let object ← Eval.inWorld (reg.callFor constructor args type)
    match insert with
    | some insert => Denoted.insertAll reg insert object items
    | none => pure ()
    return object
  | .newArray elem count items => do
    let count ← Denoted.value? count
    let length ← Eval.lift (Eval.arrayLength count items.length)
    let values ← Denoted.values items
    let rest := List.replicate (length - values.length) (Value.default elem)
    Eval.inWorld (Run.newArray type (values ++ rest).toArray)

/-- The place a node stands for, given what its parts denote. -/
def place (span : Span) (type : Ty) : Form Denoted → Eval Place
  | .var name => return .var name type
  | .index e i get (some set) => do
    let container ← Eval.notNull e.span "indexer" e.value
    let index ← i.value
    return .element container index get set type
  | .property (some e) get (some set) => do
    let receiver ← Eval.notNull e.span "property access" e.value
    return .property (some receiver) get set type
  | .property none get (some set) => return .property none get set type
  | _ => throw ⟨.typeMismatch "settable expression" "value", some span⟩

end Form

namespace Denoted

/-- What a node denotes, given what its parts denote. -/
def ofForm (reg : Registry) (span : Span) (type : Ty) (form : Form Denoted) : Denoted where
  span := span
  type := type
  value := Eval.inside span (form.value reg type)
  place := form.place span type

/-- The value at a type it converts to. -/
def valueAs (reg : Registry) (e : Denoted) (type : Ty) : Eval Value := do
  if reg.isAssignable e.type type then return (← e.value).promote type
  else throw ⟨.typeMismatch (reg.typeName type) (reg.typeName e.type), some e.span⟩

/-- Store a value to an expression. The result is what was stored. -/
def store (reg : Registry) (e : Denoted) (v : Value) : Eval Value := do
  let v ← Eval.lift (reg.conform v e.type)
  let place ← e.place
  Eval.inside e.span (reg.store place v)
  return v

/-- Evaluate for the effect alone. -/
def execute (e : Denoted) : Eval Unit := do
  let _ ← e.value

end Denoted

namespace Expr

/-- What the expression denotes. -/
def denote (reg : Registry) (e : Expr) : Denoted :=
  e.fold fun _ span type form => .ofForm reg span type form

@[simp] theorem denote_node (reg : Registry) (number : Nat) (span : Span) (type : Ty)
    (form : Form Expr) :
    (Expr.node number span type form).denote reg =
      .ofForm reg span type (form.map (denote reg)) :=
  fold_node _ number span type form

end Expr

end TypedExpr
