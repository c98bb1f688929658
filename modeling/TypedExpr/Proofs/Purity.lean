import TypedExpr.Engine
import TypedExpr.Proofs.Folding
import TypedExpr.Proofs.Hosts.Parse
import TypedExpr.Proofs.Typing.Settled
/-!
# Compiling has no effects

Parsing looks callables up and does not call them, and folding carries out operations on literals
only. If folding is taken for what it stands for, the evaluation of an operation that has just been
built, then it may be carried out in any state, with any variables and any host: it does not depend
on the state, and leaves it as it is.

* `Expr.isFoldable`: the operations that are carried out when they are built.
* `Parser.foldIn`: folding as evaluation in a state.
* `Engine.Outside`: what an engine has besides what it compiles by.
* `Parser.next_effectless`: **compiling has no effects.**
-/

namespace TypedExpr

/-! ### Operations on literals -/

/-- The operation has a plan that needs no host, and its operands are literals. -/
def Expr.isFoldable (e : Expr) : Bool :=
  match e.form with
  | .unary _ (.overload _) _ | .binary _ (.overload _) _ _ => false
  | .unary _ _ a => a.form.isLiteral
  | .binary _ _ l r => l.form.isLiteral && r.form.isLiteral
  | .cast .identity a | .cast .intToDouble a | .cast .doubleToInt a => a.form.isLiteral
  | _ => false

namespace Expr

variable {reg : Registry} {scope : Scope} {e : Expr}

theorem fold?_of_not_isFoldable (h : e.isFoldable = false) : e.fold? reg = none := by
  obtain ⟨number, span, t, form⟩ := e
  cases form with
  | unary op plan a => cases plan <;> simp_all [isFoldable, fold?, Expr.form, Form.isLiteral]
  | binary op plan l r => cases plan <;> simp_all [isFoldable, fold?, Expr.form, Form.isLiteral]
  | cast plan a => cases plan <;> simp_all [isFoldable, fold?, Expr.form, Form.isLiteral]
  | _ => rfl

/-- The three kinds of operations on literals, and what they are folded to. -/
inductive Operation (reg : Registry) (e : Expr) : Prop where
  | unary {op : UnaryOp} {plan : UnaryPlan} {a : Expr} {v : Value}
    (form : e.form = .unary op plan a) (hp : ∀ callable, plan ≠ .overload callable)
    (ha : a.form.literal? = some v) (fold : e.fold? reg = (plainUnary op plan v).toOption)
  | binary {op : BinaryOp} {plan : BinaryPlan} {l r : Expr} {v w : Value}
    (form : e.form = .binary op plan l r) (hp : ∀ callable, plan ≠ .overload callable)
    (hl : l.form.literal? = some v) (hr : r.form.literal? = some w)
    (fold : e.fold? reg = (plainBinary op plan v w).toOption)
  | cast {plan : CastPlan} {a : Expr} {v : Value} (form : e.form = .cast plan a)
    (hp : ∀ callable, plan ≠ .host callable) (ha : a.form.literal? = some v)
    (fold : e.fold? reg = (reg.castValue plan v).toOption)

theorem operation_of_isFoldable (reg : Registry) (h : e.isFoldable = true) : Operation reg e := by
  obtain ⟨number, span, t, form⟩ := e
  cases form with
  | unary op plan a =>
    cases plan with
    | overload _ => cases h
    | _ =>
      obtain ⟨v, ha⟩ := Option.isSome_iff_exists.1 h
      exact .unary rfl (by simp) ha (congrArg (Option.bind · _) ha)
  | binary op plan l r =>
    cases plan with
    | overload _ => cases h
    | _ =>
      obtain ⟨hl, hr⟩ := Bool.and_eq_true_iff.1 h
      obtain ⟨v, hl⟩ := Option.isSome_iff_exists.1 hl
      obtain ⟨w, hr⟩ := Option.isSome_iff_exists.1 hr
      refine .binary rfl (by simp) hl hr ?_
      show (l.form.literal?.bind fun _ => r.form.literal?.bind _) = _
      rw [hl, hr]
      rfl
  | cast plan a =>
    cases plan with
    | checked _ | host _ => cases h
    | _ =>
      obtain ⟨v, ha⟩ := Option.isSome_iff_exists.1 h
      exact .cast rfl (by simp) ha (congrArg (Option.bind · _) ha)
  | _ => cases h

theorem value_of_form (e : Expr) (reg : Registry) : (e.denote reg).value =
    Eval.inside e.span ((e.form.map (denote reg)).value reg e.type) := by
  rw [denote_eq]
  rfl

/-- The right operand may be something else than a truth value, where the left one decides. -/
theorem exists_value_binary {op : BinaryOp} {plan : BinaryPlan} {l r : Expr} {a b : Value}
    (reg : Registry) (hp : ∀ callable, plan ≠ .overload callable)
    (ha : l.form.literal? = some a) (hb : r.form.literal? = some b) (t : Ty) :
    ∃ x : Except Fault Value,
      (Form.binary op plan (l.denote reg) (r.denote reg)).value reg t = Eval.lift x := by
  by_cases hs : op.kind = .shortCircuit ∧ plan = .bool
  · rw [Form.value, value_literal ha, value_literal hb, pure_bind, if_pos hs]
    cases a.toBool with
    | error fault => exact ⟨.error fault, rfl⟩
    | ok decided =>
      show ∃ x, (if decided = (op = .or) then pure (Value.bool decided)
        else pure b >>= fun right => _ : Eval Value) = _
      split
      · exact ⟨.ok (.bool decided), rfl⟩
      · refine ⟨b.toBool.map .bool, ?_⟩
        rw [pure_bind]
        cases b.toBool <;> rfl
  · exact ⟨_, value_binary_eager reg hp ha hb hs t⟩

/-- An operation on literals comes to the same in every state, and leaves the state as it is. -/
theorem value_of_isFoldable (reg : Registry) (h : e.isFoldable = true) :
    ∃ x, ∀ st, (e.denote reg).value.run st = (x, st) := by
  have hvalue : ∃ x : Except Fault Value,
      (e.form.map (denote reg)).value reg e.type = Eval.lift x := by
    cases operation_of_isFoldable reg h with
    | unary form hp ha => exact ⟨_, by rw [form]; exact value_unary reg hp ha e.type⟩
    | binary form hp hl hr =>
      rw [form]
      exact exists_value_binary reg hp hl hr e.type
    | cast form hp ha => exact ⟨_, by rw [form]; exact value_cast reg hp ha e.type⟩
  obtain ⟨x, hx⟩ := hvalue
  rw [value_of_form, hx]
  exact ⟨_, fun st => rfl⟩

/-- A literal of the type of truth values is one. -/
theorem WellTyped.toBool_literal (h : WellTyped reg scope e) (ht : e.type = .bool) {v : Value}
    (hv : e.form.literal? = some v) : ∃ x, v.toBool = .ok x := by
  cases h with
  | node rule =>
    cases rule <;> simp only [Expr.form, Form.literal?, Option.some.injEq, reduceCtorEq] at hv <;>
      subst hv
    case bool => exact ⟨_, rfl⟩
    all_goals cases ht

/-- The operands of an operation by the plan of truth values are truth values. -/
theorem Rule.operands_bool {t : Ty} {op : BinaryOp} {plan : BinaryPlan} {l r : Expr}
    {uses : List Use} (h : Rule reg scope t (.binary op plan l r) uses) (hp : plan = .bool) :
    l.type = .bool ∧ r.type = .bool := by
  cases h with
  | binary h hl hr =>
    have hsuits := Registry.typeBinary_suits h hl hr
    rw [hp] at hsuits
    exact ⟨hsuits.1, hsuits.2.1⟩

/-- What an operation on literals comes to is what it is folded to, if it does not fail. -/
theorem WellTyped.value_of_isFoldable (h : WellTyped reg scope e) (hf : e.isFoldable = true) :
    ∃ x : Except Fault Value, (e.denote reg).value = Eval.inside e.span (Eval.lift x) ∧
      e.fold? reg = x.toOption := by
  rw [value_of_form]
  cases operation_of_isFoldable reg hf with
  | unary form hp ha fold =>
    rw [form]
    exact ⟨_, congrArg _ (value_unary reg hp ha e.type), fold⟩
  | @binary op plan l r v w form hp hl hr fold =>
    cases h with
    | node rule hparts =>
      cases form
      refine ⟨_, congrArg _ (value_binary reg hp hl hr (fun hplan => ?_) _), fold⟩
      obtain ⟨hlt, hrt⟩ := rule.operands_bool hplan
      exact ⟨(hparts l (.head _)).toBool_literal hlt hl,
        (hparts r (.tail _ (.head _))).toBool_literal hrt hr⟩
  | cast form hp ha fold =>
    rw [form]
    exact ⟨_, congrArg _ (value_cast reg hp ha e.type), fold⟩

end Expr

/-! ### Folding as evaluation -/

namespace Parser

/-- A literal of the value in place of an operation, if the value has the type of the operation. -/
def replace (e : Expr) (v : Value) : Parser Expr := do
  match if v.type? = some e.type then Form.ofValue? v else none with
  | some form =>
    match form with
    | .str text => noteName text
    | _ => pure ()
    push form e.span e.type
  | none => return e

/-- Folding as evaluation in a state: an operation on literals is evaluated, and where that succeeds
a literal is put in its place. -/
def foldIn (s : Setting) (e : Expr) : StateT EvalState Parser Expr := fun st =>
  if s.options.fold && e.isFoldable then
    match (e.denote s.registry).value.run st with
    | (.ok v, st) => return (← replace e v, st)
    | (.error _, st) => return (e, st)
  else return (e, st)

theorem fold_of_fold? {s : Setting} {e : Expr} {v : Value} (hs : s.options.fold = true)
    (h : e.fold? s.registry = some v) : Parser.fold s e = replace e v := by
  unfold Parser.fold Expr.folded?
  rw [h, if_pos hs]
  rfl

theorem fold_of_fold?_eq_none {s : Setting} {e : Expr} (h : e.fold? s.registry = none) :
    Parser.fold s e = pure e := by
  unfold Parser.fold Expr.folded?
  rw [h]
  exact ite_self _

/-- Whatever the state is in which an operation that has been built is evaluated, folding does not
depend on it and leaves it as it is. -/
theorem foldIn_eq {s : Setting} {e : Expr} (h : e.WellTyped s.registry s.scope) :
    foldIn s e = StateT.lift (Parser.fold s e) := by
  funext st
  show foldIn s e st = do return (← Parser.fold s e, st)
  unfold foldIn
  cases hs : s.options.fold with
  | false =>
    unfold Parser.fold
    rw [hs]
    rfl
  | true =>
    cases hf : e.isFoldable with
    | false =>
      rw [fold_of_fold?_eq_none (Expr.fold?_of_not_isFoldable hf)]
      rfl
    | true =>
      obtain ⟨x, hvalue, hx⟩ := h.value_of_isFoldable hf
      rw [hvalue]
      cases x with
      | error fault =>
        rw [fold_of_fold?_eq_none hx]
        rfl
      | ok v =>
        rw [fold_of_fold? hs hx]
        rfl

end Parser

/-! ### Compiling -/

namespace Engine

/-- What an engine has besides what it compiles by: what its callables do, the values of its
variables, the heap, and the record of calls. -/
structure Outside where
  hosts : CallableId → HostFunction → HostFunction
  environment : Environment
  heap : Heap
  calls : Array CallRecord

/-- The engine with another outside. -/
def withOutside (engine : Engine) (outside : Outside) : Engine :=
  { engine with
    registry := engine.registry.withHosts outside.hosts
    environment := outside.environment
    world := { engine.world with heap := outside.heap, calls := outside.calls } }

/-- Compiling does not depend on the outside, and leaves it as it is. -/
theorem compile_withOutside (tokens : TokenList) (engine : Engine) (outside : Outside) :
    (compile tokens).run (engine.withOutside outside) =
      (((compile tokens).run engine).1,
        ((compile tokens).run engine).2.withOutside outside) := by
  have hparse : ((engine.withOutside outside).setting tokens).parse engine.world.catalog =
      (engine.setting tokens).parse engine.world.catalog :=
    Setting.parse_withHosts (engine.setting tokens) outside.hosts _
  rw [run_compile, run_compile, show (engine.withOutside outside).world.catalog =
    engine.world.catalog from rfl, hparse]
  rfl

end Engine

/-- **Compiling has no effects.** Parsing does the same, whether it succeeds or fails, whatever the
callables would do. The operations that are carried out when they are built come to the same in
every state, and leave the variables, the heap and the record of calls as they are; to fold is to
evaluate these. So an engine compiles the same whatever is outside of the compiler, and leaves it
as it is. -/
theorem Parser.next_effectless (s : Setting) (hosts : CallableId → HostFunction → HostFunction) :
    next (s.withHosts hosts) = next s ∧
    (∀ e : Expr, e.isFoldable = true →
      ∃ result, ∀ st, (e.denote s.registry).value.run st = (result, st)) ∧
    (∀ e, e.WellTyped s.registry s.scope → foldIn s e = StateT.lift (Parser.fold s e)) ∧
    ∀ (engine : Engine) (tokens : TokenList) (outside : Engine.Outside),
      (Engine.compile tokens).run (engine.withOutside outside) =
        (((Engine.compile tokens).run engine).1,
          ((Engine.compile tokens).run engine).2.withOutside outside) :=
  ⟨next_withHosts, fun _ => Expr.value_of_isFoldable s.registry, fun _ => foldIn_eq,
    fun engine tokens outside => Engine.compile_withOutside tokens engine outside⟩

/-- The expression that `1 + 2` is before it is folded. -/
def Expr.sum : Expr :=
  .node 2 .nowhere .int (.binary .add .int (.node 0 .nowhere .int (.int 1))
    (.node 1 .nowhere .int (.int 2)))

theorem Expr.wellTyped_sum : WellTyped .primitive .empty sum := by
  have hplan : Registry.typeBinary .primitive .add .int .int = .ok (.uniform .int .int) := rfl
  have hpasses : Registry.Passes .primitive .int .int .int := ⟨rfl, rfl⟩
  refine .node (.binary hplan hpasses hpasses) fun part hpart => ?_
  obtain rfl | hpart := List.mem_cons.1 hpart
  · exact .node (.int 1) (by simp [Form.parts])
  · obtain rfl := List.mem_singleton.1 hpart
    exact .node (.int 2) (by simp [Form.parts])

theorem Parser.next_effectless_sum : Expr.sum.isFoldable = true ∧
    Expr.sum.WellTyped Setting.sum.registry Setting.sum.scope ∧
    (∀ st, (Expr.sum.denote .primitive).value.run st = (.ok (.int 3), st)) ∧
    foldIn .sum .sum = StateT.lift (Parser.fold .sum .sum) := by
  obtain ⟨-, hvalue, hfold, -⟩ := next_effectless .sum fun _ f => f
  refine ⟨rfl, Expr.wellTyped_sum, fun st => ?_, hfold _ Expr.wellTyped_sum⟩
  obtain ⟨result, hresult⟩ := hvalue .sum rfl
  obtain rfl : result = .ok (.int 3) := congrArg Prod.fst (hresult st).symm
  exact hresult st

end TypedExpr
