import TypedExpr.Operator.Typing
import TypedExpr.Proofs.Form
import TypedExpr.Scope
/-!
# Typing rules

Which type a node of each form has. A part has been converted to the type that the node asks for,
so its own type is the type it was written with, or `double` where that is `int`.

* `Registry.Passes`: a type, as an expression of another type is passed for it.
* `Use`: a callable, as a node uses it.
* `Expr.Rule`: the rule for each form of node, and what it uses.
* `Expr.WellTyped`: every node of an expression obeys its rule.
* `Expr.Uses`: some node of an expression uses a callable.
-/

namespace TypedExpr

/-! ### Uses -/

/-- What is done with the result of a call: it is checked, it is taken as it is, or it is taken as
it is and promoted to the type of what it is stored to. -/
inductive Reception where
  | checked
  | trusted
  | stored

/-- A callable as a node uses it, called with arguments of these types for this result type. -/
structure Use extends ResolvedCall where
  reception : Reception

/-- The use of an operator: that of an overload. -/
def UnaryTyping.uses (typing : UnaryTyping) : List Use :=
  match typing.plan with
  | .overload id => [⟨⟨id, [typing.operand], typing.result⟩, .trusted⟩]
  | _ => []

/-- The use of an operator, for a result type of which something is made. -/
def BinaryTyping.uses (typing : BinaryTyping) (t : Ty) (reception : Reception) : List Use :=
  match typing.plan with
  | .overload id => [⟨⟨id, [typing.left, typing.right], t⟩, reception⟩]
  | _ => []

/-- The use of a cast: that of a host. -/
def CastPlan.uses (plan : CastPlan) (source target : Ty) : List Use :=
  match plan with
  | .host id => [⟨⟨id, [source], target⟩, .trusted⟩]
  | _ => []

/-- The uses of a property of a receiver. -/
def ResolvedProperty.uses (p : ResolvedProperty) (receiver : List Ty) : List Use :=
  ⟨⟨p.get, receiver, p.type⟩, .checked⟩ ::
    p.set.toList.map fun set => ⟨⟨set, receiver ++ [p.type], .void⟩, .checked⟩

/-- The uses of an indexer of a container. -/
def ResolvedIndexer.uses (i : ResolvedIndexer) (container : Ty) : List Use :=
  ⟨⟨i.get, [container, i.index], i.elem⟩, .checked⟩ ::
    i.set.toList.map fun set => ⟨⟨set, [container, i.index, i.elem], .void⟩, .checked⟩

/-! ### Rules -/

/-- An expression of type `source` may stand where `target` is asked for, and is passed there as
one of type `actual`. -/
structure Registry.Passes (reg : Registry) (source target actual : Ty) : Prop where
  assignable : reg.isAssignable source target = true
  actual_eq : actual = if source = .int ∧ target = .double then .double else source

/-- Arguments are passed for parameters one to one. -/
def Registry.PassesAll (reg : Registry) (sources targets : List Ty) (args : List Expr) : Prop :=
  List.Forall₂ (fun (t : Ty × Ty) e => reg.Passes t.1 t.2 e.type) (sources.zip targets) args

namespace Expr

/-- The rule for a node of a type, where names mean what the scope says, and what it uses. -/
inductive Rule (reg : Registry) (scope : Scope) : Ty → Form Expr → List Use → Prop
  | int (n : Int64) : Rule reg scope .int (.int n) []
  | double (x : Float) : Rule reg scope .double (.double x) []
  | bool (b : Bool) : Rule reg scope .bool (.bool b) []
  | str (s : String) : Rule reg scope .string (.str s) []
  | var {name : String} {t : Ty} (h : scope.get? name = some (.var t)) :
    Rule reg scope t (.var name) []
  | unary {op : UnaryOp} {source : Ty} {typing : UnaryTyping} {e : Expr}
    (h : reg.typeUnary op source = .ok typing) (he : reg.Passes source typing.operand e.type) :
    Rule reg scope typing.result (.unary op typing.plan e) typing.uses
  | binary {op : BinaryOp} {left right : Ty} {typing : BinaryTyping} {l r : Expr}
    (h : reg.typeBinary op left right = .ok typing) (hl : reg.Passes left typing.left l.type)
    (hr : reg.Passes right typing.right r.type) :
    Rule reg scope typing.result (.binary op typing.plan l r) (typing.uses typing.result .trusted)
  | ternary {condition yes no t : Ty} {c y n : Expr}
    (ht : t = if reg.isAssignable no yes then yes else no)
    (hc : reg.Passes condition .bool c.type) (hy : reg.Passes yes t y.type)
    (hn : reg.Passes no t n.type) : Rule reg scope t (.ternary c y n) []
  | assign {source : Ty} {target value : Expr} (ht : target.isModifiable = true)
    (hv : reg.Passes source target.type value.type) :
    Rule reg scope target.type (.assign target value) []
  | compound {op : BinaryOp} {source : Ty} {typing : BinaryTyping} {target value : Expr}
    (ht : target.isModifiable = true)
    (h : reg.typeCompound op target.type source = .ok typing)
    (hv : reg.Passes source typing.right value.type) :
    Rule reg scope target.type (.compound op typing.plan target value)
      (typing.uses target.type .stored)
  | step {op : StepOp} {before : Bool} {target : Expr} {plan : UnaryPlan}
    (ht : target.isModifiable = true) (h : stepPlan? target.type = some plan) :
    Rule reg scope target.type (.step op before target) []
  | cast {t : Ty} {plan : CastPlan} {e : Expr} (h : reg.explicitCast? e.type t = some plan)
    (he : e.type ≠ .void) : Rule reg scope t (.cast plan e) (plan.uses e.type t)
  | index {source : Ty} {container i : Expr} {indexer : ResolvedIndexer}
    (h : reg.resolveIndexer container.type = .ok indexer) (hc : container.type ≠ .void)
    (hi : reg.Passes source indexer.index i.type) :
    Rule reg scope indexer.elem (.index container i indexer.get indexer.set)
      (indexer.uses container.type)
  | property {receiver : Expr} {name : String} {p : ResolvedProperty}
    (h : reg.resolveProperty receiver.type name false = .ok p) (hr : receiver.type ≠ .void) :
    Rule reg scope p.type (.property (some receiver) p.get p.set) (p.uses [receiver.type])
  | staticProperty {owner : Ty} {name : String} {p : ResolvedProperty}
    (h : reg.resolveProperty owner name true = .ok p) :
    Rule reg scope p.type (.property none p.get p.set) (p.uses [])
  | method {receiver : Expr} {name : String} {typeArgs sources : List Ty} {call : ResolvedCall}
    {args : List Expr} (hr : receiver.type ≠ .void)
    (h : reg.resolveMethod receiver.type name typeArgs sources false = .ok call)
    (ha : reg.PassesAll sources call.params args) :
    Rule reg scope call.ret (.method receiver call.callable args)
      [⟨⟨call.callable, receiver.type :: call.params, call.ret⟩, .checked⟩]
  | staticMethod {owner : Ty} {name : String} {typeArgs sources : List Ty} {call : ResolvedCall}
    {args : List Expr} (h : reg.resolveMethod owner name typeArgs sources true = .ok call)
    (ha : reg.PassesAll sources call.params args) :
    Rule reg scope call.ret (.call call.callable args) [⟨call, .checked⟩]
  | function {name : String} {typeArgs sources : List Ty} {call : ResolvedCall} {args : List Expr}
    (h : reg.resolveFunction name typeArgs sources = .ok call)
    (ha : reg.PassesAll sources call.params args) :
    Rule reg scope call.ret (.call call.callable args) [⟨call, .checked⟩]
  | new {t : Ty} {sources : List Ty} {call : ResolvedCall} {args : List Expr}
    (h : reg.resolveConstructor t sources = .ok call)
    (ha : reg.PassesAll sources call.params args) :
    Rule reg scope t (.new call.callable args [] none) [⟨⟨call.callable, call.params, t⟩, .checked⟩]
  | newItems {t : Ty} {sources itemSources : List Ty} {call : ResolvedCall}
    {insertion : ResolvedInsertion} {args items : List Expr}
    (h : reg.resolveConstructor t sources = .ok call)
    (ha : reg.PassesAll sources call.params args)
    (hi : reg.resolveInsertion t = .ok insertion)
    (hs : List.Forall₂ (fun source e => reg.Passes source insertion.elem e.type) itemSources
      items) :
    Rule reg scope t (.new call.callable args items (some insertion.callable))
      [⟨⟨call.callable, call.params, t⟩, .checked⟩,
        ⟨⟨insertion.callable, [t, insertion.elem], .void⟩, .checked⟩]
  | newArray {elem : Ty} {itemSources : List Ty} {count : Option Expr} {items : List Expr}
    (hc : ∀ c ∈ count, ∃ source, reg.Passes source .int c.type)
    (hs : List.Forall₂ (fun source e => reg.Passes source elem e.type) itemSources items) :
    Rule reg scope (.array elem) (.newArray elem count items) []

/-- Every node of the expression obeys its rule. -/
inductive WellTyped (reg : Registry) (scope : Scope) : Expr → Prop
  | node {number : Nat} {span : Span} {t : Ty} {form : Form Expr} {uses : List Use}
    (h : Rule reg scope t form uses) (hp : ∀ e ∈ form.parts, WellTyped reg scope e) :
    WellTyped reg scope (.node number span t form)

/-- Some node of the expression uses a callable so, by the rule that it obeys. -/
inductive Uses (reg : Registry) (scope : Scope) : Expr → Use → Prop
  | here {number : Nat} {span : Span} {t : Ty} {form : Form Expr} {uses : List Use} {use : Use}
    (h : Rule reg scope t form uses) (hu : use ∈ uses) :
    Uses reg scope (.node number span t form) use
  | part {number : Nat} {span : Span} {t : Ty} {form : Form Expr} {e : Expr} {use : Use}
    (he : e ∈ form.parts) (h : Uses reg scope e use) : Uses reg scope (.node number span t form) use

/-- The literal of a value of a primitive type obeys its rule. -/
theorem Rule.ofValue {reg : Registry} {scope : Scope} {v : Value} {form : Form Expr} {t : Ty}
    (hv : v.type? = some t) (h : Form.ofValue? v = some form) : Rule reg scope t form [] := by
  cases v <;> simp only [Form.ofValue?, Option.some.injEq, reduceCtorEq] at h <;>
    simp only [Value.type?, Option.some.injEq] at hv <;> subst h hv <;> constructor

end Expr

end TypedExpr
