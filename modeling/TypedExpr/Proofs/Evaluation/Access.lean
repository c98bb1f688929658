import TypedExpr.Eval
/-!
# Other ways to read and store variables

An evaluation reads and stores variables where it comes to a variable, and nowhere else. So another
way to do this can be put in place of the usual one.

* `Access`: how variables are read and stored; `Access.usual` is how an evaluation does it.
* `Expr.denoteBy`: what an expression denotes where variables are read and stored in another way;
  in the usual way this is what it denotes (`Expr.denoteBy_usual`).
-/

namespace TypedExpr

/-- How variables are read and stored. -/
structure Access where
  read (name : String) (type : Ty) : Eval Value
  write (name : String) (type : Ty) (v : Value) : Eval Unit

/-- How an evaluation reads and stores variables. -/
def Access.usual : Access := ⟨Eval.read, Eval.write⟩

namespace Registry

variable (reg : Registry) (a : Access)

/-- Read a place. -/
def loadBy : Place → Eval Value
  | .var name type => a.read name type
  | place => reg.load place

/-- Store to a place. -/
def storeBy (place : Place) (v : Value) : Eval Unit :=
  match place with
  | .var name type => a.write name type v
  | place => reg.store place v

theorem loadBy_usual : reg.loadBy .usual = reg.load := by
  funext place
  cases place <;> rfl

theorem storeBy_usual : reg.storeBy .usual = reg.store := by
  funext place v
  cases place <;> rfl

end Registry

variable (reg : Registry) (a : Access)

/-- The value of a node of some type, given what its parts denote. -/
def Form.valueBy (type : Ty) : Form Denoted → Eval Value
  | .var name => a.read name type
  | .assign target value => do
    let place ← target.place
    let v ← value.value
    reg.storeBy a place v
    return v
  | .compound op plan target value => do
    let place ← target.place
    let current ← reg.loadBy a place
    let v ← value.value
    let result ← Eval.inWorld (reg.applyBinary op plan current v type)
    let result := result.promote place.type
    reg.storeBy a place result
    return result
  | .step op before target => do
    let place ← target.place
    let old ← reg.loadBy a place
    let stepped ← Eval.lift (stepValue op old)
    reg.storeBy a place stepped
    return if before then old else stepped
  | form => form.value reg type

theorem Form.valueBy_usual (type : Ty) (form : Form Denoted) :
    form.valueBy reg .usual type = form.value reg type := by
  cases form with
  | var => rfl
  | assign | compound | step =>
    unfold valueBy value
    simp only [Registry.loadBy_usual, Registry.storeBy_usual]
  | _ => rfl

namespace Denoted

/-- What a node denotes, given what its parts denote. -/
def ofFormBy (span : Span) (type : Ty) (form : Form Denoted) : Denoted :=
  { ofForm reg span type form with value := Eval.inside span (form.valueBy reg a type) }

/-- Store a value to an expression. The result is what was stored. -/
def storeBy (e : Denoted) (v : Value) : Eval Value := do
  let v ← Eval.lift (reg.conform v e.type)
  let place ← e.place
  Eval.inside e.span (reg.storeBy a place v)
  return v

theorem storeBy_usual (e : Denoted) (v : Value) : e.storeBy reg .usual v = e.store reg v := by
  unfold storeBy store
  rw [Registry.storeBy_usual]

end Denoted

namespace Expr

/-- What the expression denotes where variables are read and stored in another way. -/
def denoteBy (e : Expr) : Denoted := e.fold fun _ span type form => .ofFormBy reg a span type form

@[simp] theorem denoteBy_node (number : Nat) (span : Span) (type : Ty) (form : Form Expr) :
    (Expr.node number span type form).denoteBy reg a =
      .ofFormBy reg a span type (form.map (denoteBy reg a)) :=
  fold_node _ number span type form

theorem denoteBy_usual (e : Expr) : e.denoteBy reg .usual = e.denote reg := by
  unfold denoteBy denote Denoted.ofFormBy
  simp only [Form.valueBy_usual]
  rfl

@[simp] theorem denoteBy_span (e : Expr) : (e.denoteBy reg a).span = e.span := by
  obtain ⟨number, span, t, form⟩ := e
  rw [denoteBy_node]
  rfl

@[simp] theorem denoteBy_type (e : Expr) : (e.denoteBy reg a).type = e.type := by
  obtain ⟨number, span, t, form⟩ := e
  rw [denoteBy_node]
  rfl

end Expr

end TypedExpr
