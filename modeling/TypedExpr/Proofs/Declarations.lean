import TypedExpr.Engine
import TypedExpr.Proofs.Evaluation.Alongside
import TypedExpr.Proofs.Evaluation.Moves
import TypedExpr.Proofs.Typing.Accepted
/-!
# Declarations

What names mean and the values of the variables are two tables of an engine. Expressions are
compiled by the first and evaluated on the second. Declarations change both, and nothing else
changes more than values. So the tables agree, and an expression finds its variables as it was
compiled, as long as nothing is declared anew.

* `Engine.Step`, `Engine.after`: what is done with an engine, and one thing after the other.
* `Engine.Agrees`: the variables in scope are those that have a value, at the same types.
* `Engine.Kept`: what is left by all that declares nothing.
* `Access.Lenient`: other ways to read and store variables, for where the environment refuses to.
* `Engine.Unrefused`: it never comes to that.
* `Engine.declarations_agree`: **the tables agree, and no variable is ever refused.**
-/

namespace TypedExpr

namespace Engine

/-! ### Steps -/

/-- What is done with an engine. The world may change otherwise, as when a text is scanned. -/
inductive Step where
  | declare (name : String) (type : Ty) (v : Value)
  | declareConstant (name : String) (c : Constant)
  | undeclare (name : String)
  | compile (tokens : TokenList)
  | evaluate (parsed : Parsed)
  | execute (parsed : Parsed)
  | assign (parsed : Parsed) (v : Value)
  | run (tokens : TokenList)
  | outside (world : World)

/-- The step changes what a name means. -/
def Step.Declares : Step → Prop
  | .declare .. | .declareConstant .. | .undeclare .. => True
  | _ => False

/-- The engine after a step, whether it fails or not. -/
def step (engine : Engine) : Step → Engine
  | .declare name type v => engine.declare name type v
  | .declareConstant name c => engine.declareConstant name c
  | .undeclare name => (engine.undeclare name).2
  | .compile tokens => ((Engine.compile tokens).run engine).2
  | .evaluate parsed => ((Engine.evaluate parsed).run engine).2
  | .execute parsed => ((Engine.execute parsed).run engine).2
  | .assign parsed v => ((Engine.assign parsed v).run engine).2
  | .run tokens => ((Engine.run tokens).run engine).2
  | .outside world => { engine with world := world }

/-- The engine after one step after the other. -/
def after (engine : Engine) (steps : List Step) : Engine := steps.foldl step engine

/-! ### What declares nothing -/

/-- What is left of an engine when nothing is declared: the registry, what names mean, and the types
of the variables. -/
structure Kept (engine engine' : Engine) : Prop where
  registry : engine'.registry = engine.registry
  scope : engine'.scope = engine.scope
  types (name : String) : (engine'.environment.get? name).map (·.type) =
    (engine.environment.get? name).map (·.type)

namespace Kept

theorem refl (engine : Engine) : Kept engine engine := ⟨rfl, rfl, fun _ => rfl⟩

theorem trans {a b c : Engine} (h : Kept a b) (h' : Kept b c) : Kept a c :=
  ⟨h'.registry.trans h.registry, h'.scope.trans h.scope, fun name => (h'.types name).trans
    (h.types name)⟩

theorem compile (tokens : TokenList) (engine : Engine) :
    Kept engine ((compile tokens).run engine).2 := by
  rw [run_compile]
  exact ⟨rfl, rfl, fun _ => rfl⟩

theorem eval {α : Type} {x : Eval α} (hx : Eval.Moves SameTypes x) (engine : Engine) :
    Kept engine ((eval x).run engine).2 := by
  rw [run_eval]
  refine ⟨rfl, rfl, fun name => ?_⟩
  have hname := hx ⟨.of engine.environment, engine.world⟩ name
  dsimp only
  cases hc : (x.run ⟨.of engine.environment, engine.world⟩).2.context with
  | of env =>
    rw [hc] at hname
    exact hname
  | empty => rfl

theorem evaluate (parsed : Parsed) (engine : Engine) :
    Kept engine ((evaluate parsed).run engine).2 := by
  obtain ⟨_ | e, nodes⟩ := parsed
  · exact refl engine
  · rw [run_evaluate]
    exact eval (e.moves sameTypes_stepwise engine.registry).1 engine

theorem execute (parsed : Parsed) (engine : Engine) :
    Kept engine ((execute parsed).run engine).2 := by
  obtain ⟨_ | e, nodes⟩ := parsed
  · exact refl engine
  · rw [run_execute]
    exact eval (e.execute_moves sameTypes_stepwise engine.registry) engine

theorem assign (parsed : Parsed) (v : Value) (engine : Engine) :
    Kept engine ((assign parsed v).run engine).2 := by
  obtain ⟨_ | e, nodes⟩ := parsed
  · exact refl engine
  · rw [run_assign]
    exact eval (e.store_moves sameTypes_stepwise engine.registry v) engine

theorem run (tokens : TokenList) (engine : Engine) : Kept engine ((run tokens).run engine).2 := by
  have hcompile := compile tokens engine
  unfold Engine.run
  rw [run_bind, run_adapt]
  rcases hrun : (Engine.compile tokens).run engine with ⟨_ | parsed, compiled⟩ <;>
    rw [hrun] at hcompile
  · exact hcompile
  · exact hcompile.trans (evaluate parsed compiled)

theorem step {s : Step} (hs : ¬ s.Declares) (engine : Engine) : Kept engine (engine.step s) := by
  cases s with
  | declare | declareConstant | undeclare => exact absurd trivial hs
  | compile tokens => exact compile tokens engine
  | evaluate parsed => exact evaluate parsed engine
  | execute parsed => exact execute parsed engine
  | assign parsed v => exact assign parsed v engine
  | run tokens => exact run tokens engine
  | outside world => exact ⟨rfl, rfl, fun _ => rfl⟩

theorem after {steps : List Step} (hs : ∀ s ∈ steps, ¬ s.Declares) (engine : Engine) :
    Kept engine (engine.after steps) := by
  induction steps generalizing engine with
  | nil => exact refl engine
  | cons s steps ih =>
    have hstep := step (hs s List.mem_cons_self) engine
    exact hstep.trans (ih (fun s h => hs s (List.mem_cons_of_mem _ h)) (engine.step s))

end Kept

/-! ### The two tables -/

/-- The variables in scope are those that have a value, at the same types. -/
def Agrees (engine : Engine) : Prop :=
  ∀ name t, engine.scope.get? name = some (.var t) ↔
    ∃ v, engine.environment.get? name = some ⟨t, v⟩

/-- A variable has a value at a type if the type of its binding is that. -/
theorem exists_binding_iff {env : Environment} {name : String} {t : Ty} :
    (∃ v, env.get? name = some ⟨t, v⟩) ↔ (env.get? name).map (·.type) = some t := by
  rw [Option.map_eq_some_iff]
  constructor
  · rintro ⟨v, h⟩
    exact ⟨_, h, rfl⟩
  · rintro ⟨⟨_, v⟩, h, rfl⟩
    exact ⟨v, h⟩

namespace Agrees

variable {engine engine' : Engine}

theorem ofBuilder (b : Builder) (options : ParseOptions) : Agrees (.ofBuilder b options) :=
  fun _ _ => ⟨nofun, nofun⟩

theorem kept (h : Agrees engine) (hk : Kept engine engine') : Agrees engine' := by
  intro name t
  rw [hk.scope, exists_binding_iff, hk.types, ← exists_binding_iff]
  exact h name t

theorem declare (h : Agrees engine) (name : String) (type : Ty) (v : Value) :
    Agrees (engine.declare name type v) := by
  intro x t
  show (engine.scope.insert name (.var type)).get? x = some (.var t) ↔
    ∃ v', (engine.environment.insert name ⟨type, v⟩).get? x = some ⟨t, v'⟩
  rw [NameMap.get?_insert, NameMap.get?_insert]
  split
  · simp
  · exact h x t

theorem declareConstant (h : Agrees engine) (name : String) (c : Constant) :
    Agrees (engine.declareConstant name c) := by
  intro x t
  show (engine.scope.insert name (.constant c)).get? x = some (.var t) ↔
    ∃ v, (engine.environment.erase name).get? x = some ⟨t, v⟩
  rw [NameMap.get?_insert, NameMap.get?_erase]
  split
  · simp
  · exact h x t

theorem undeclare (h : Agrees engine) (name : String) : Agrees (engine.undeclare name).2 := by
  intro x t
  show (engine.scope.erase name).get? x = some (.var t) ↔
    ∃ v, (engine.environment.erase name).get? x = some ⟨t, v⟩
  rw [NameMap.get?_erase, NameMap.get?_erase]
  split
  · simp
  · exact h x t

theorem step (h : Agrees engine) (s : Step) : Agrees (engine.step s) := by
  cases s with
  | declare name type v => exact h.declare name type v
  | declareConstant name c => exact h.declareConstant name c
  | undeclare name => exact h.undeclare name
  | _ => exact h.kept (.step (by simp [Step.Declares]) engine)

theorem after (h : Agrees engine) (steps : List Step) : Agrees (engine.after steps) := by
  induction steps generalizing engine with
  | nil => exact h
  | cons s steps ih => exact ih (h.step s)

end Agrees

end Engine

/-! ### Variables of what is accepted -/

/-- The variables of a well-typed expression are variables in scope, at the types they have there. -/
theorem Expr.WellTyped.scope_of_mem_vars {reg : Registry} {scope : Scope} {e : Expr}
    (h : e.WellTyped reg scope) : ∀ x ∈ e.vars, scope.get? x.1 = some (.var x.2) := by
  induction e using Expr.induct with
  | h number span t form ih =>
    obtain ⟨hrule, hparts⟩ := h
    intro x hx
    rw [vars_node] at hx
    rcases List.mem_append.1 hx with hx | hx
    · cases hrule with
      | var hname =>
        obtain rfl := List.mem_singleton.1 hx
        exact hname
      | _ => cases hx
    · obtain ⟨e, he, hx⟩ := List.mem_flatMap.1 hx
      exact ih e he (hparts e he) x hx

/-- What is compiled is well typed. -/
theorem Setting.parse_wellTyped {s : Setting} {c : Catalog} {parsed : Parsed}
    (h : (s.parse c).1 = .ok parsed) : ∀ e ∈ parsed.root, e.WellTyped s.registry s.scope := by
  rcases hrun : (Parser.whole s).run (.start c) with ⟨_ | root, p⟩
  · unfold parse at h
    rw [hrun] at h
    cases h
  · have hroot : parsed.root = root := by
      unfold parse at h
      rw [hrun] at h
      cases h
      rfl
    rw [hroot]
    rintro e rfl
    obtain ⟨root, q, hnext, hend⟩ := run_bind_ok.1 hrun
    obtain ⟨_, _, -, hreturn⟩ := run_bind_ok.1 hend
    cases hreturn
    exact Parser.next_wellTyped hnext

/-! ### Access -/

/-- A variable is read and stored as usual wherever that succeeds. Where the environment refuses,
since the variable is undefined or has another type, anything may be done. -/
structure Access.Lenient (a : Access) : Prop where
  read {name : String} {t : Ty} {v : Value} {st : EvalState}
    (h : st.context.read st.world.catalog name t = .ok v) :
    (a.read name t).run st = (.ok v, st)
  write {name : String} {t : Ty} {v : Value} {st : EvalState} {context : Context}
    (h : st.context.write st.world.catalog name t v = .ok context) :
    (a.write name t v).run st = (.ok (), { st with context := context })

/-- Where a variable is refused it is read as null, and nothing is stored. -/
def Access.forgiving : Access where
  read name t := ExceptT.mk fun st =>
    (.ok ((st.context.read st.world.catalog name t).toOption.getD .null), st)
  write name t v := ExceptT.mk fun st =>
    let context := (st.context.write st.world.catalog name t v).toOption.getD st.context
    (.ok (), { st with context := context })

theorem Access.lenient_forgiving : forgiving.Lenient where
  read {name t _ st} h := by
    show (_, st) = _
    rw [h]
    rfl
  write {name t v st _} h := by
    show (_, { st with context := _ }) = _
    rw [h]
    rfl

/-- Two evaluations on variables that are declared as the scope says, where variables are accessed
in another way and in the usual one. -/
def Access.Lenient.coupling {a : Access} (ha : a.Lenient) (scope : Scope) :
    Access.Coupling a .usual where
  holds st st' := st = st' ∧
    ∀ name t, scope.get? name = some (.var t) → st.context.declared? name = some t
  world h := congrArg EvalState.world h.1
  move := by
    rintro st _ ⟨rfl, h⟩ world
    exact ⟨rfl, h⟩
  reads name t := scope.get? name = some (.var t)
  writes name t := scope.get? name = some (.var t)
  read {name t} hname := by
    rintro st _ ⟨rfl, h⟩
    obtain ⟨v, hv⟩ := Context.exists_read (h name t hname) st.world.catalog
    unfold usual
    rw [ha.read hv, Eval.run_read_ok hv]
    exact ⟨rfl, ⟨rfl, h⟩, fun _ _ => trivial⟩
  write {name t} hname v := by
    rintro st _ ⟨rfl, h⟩
    obtain ⟨context, hw⟩ := Context.exists_write (h name t hname) st.world.catalog v
    have hkept := sameTypes_stepwise.write name t v st
    rw [Eval.run_write_ok hw] at hkept
    unfold usual
    rw [ha.write hw, Eval.run_write_ok hw]
    exact ⟨rfl, ⟨rfl, fun x t hx => (hkept x).trans (h x t hx)⟩, fun _ _ => trivial⟩

/-- What is evaluated alike from states in which all that is in scope is declared comes to the
same. -/
theorem Access.Lenient.run_eq {a : Access} (ha : a.Lenient) {scope : Scope} {α : Type}
    {x y : Eval α} (h : Eval.Alike (ha.coupling scope).holds x y) {st : EvalState}
    (hst : ∀ name t, scope.get? name = some (.var t) → st.context.declared? name = some t) :
    x.run st = y.run st := by
  obtain ⟨hresult, ⟨hnext, -⟩, -⟩ := h st st ⟨rfl, hst⟩
  exact Prod.ext hresult hnext

/-! ### Engines -/

namespace Engine

/-- Evaluate an expression with variables accessed in another way. -/
def evaluateBy (a : Access) (parsed : Parsed) : EngineM EvalError Value := do
  match parsed.root with
  | some e => eval (e.denoteBy (← get).registry a).value
  | none => return .void

/-- Evaluate an expression for its effect, with variables accessed in another way. -/
def executeBy (a : Access) (parsed : Parsed) : EngineM EvalError Unit := do
  match parsed.root with
  | some e => eval (e.denoteBy (← get).registry a).execute
  | none => return ()

/-- Store a value to an expression, with variables accessed in another way. -/
def assignBy (a : Access) (parsed : Parsed) (v : Value) : EngineM EvalError Value := do
  match parsed.root with
  | some e =>
    let reg := (← get).registry
    eval ((e.denoteBy reg a).storeBy reg a v)
  | none => return .void

/-- No variable of the expression is refused: the environment has them at their types, and it makes
no difference what is done where it refuses one, be it to fail in another way. -/
structure Unrefused (parsed : Parsed) (engine : Engine) : Prop where
  bound : ∀ e ∈ parsed.root, ∀ x ∈ e.vars, ∃ v, engine.environment.get? x.1 = some ⟨x.2, v⟩
  evaluate {a : Access} (ha : a.Lenient) :
    (evaluateBy a parsed).run engine = (evaluate parsed).run engine
  execute {a : Access} (ha : a.Lenient) :
    (executeBy a parsed).run engine = (execute parsed).run engine
  assign {a : Access} (ha : a.Lenient) (v : Value) :
    (assignBy a parsed v).run engine = (assign parsed v).run engine

/-- In an engine in which nothing is declared a variable is refused. -/
example :
    let parsed : Parsed := ⟨some (.node 0 .nowhere .int (.var "n")), #[]⟩
    let engine := ofBuilder .primitive .standard
    ((evaluateBy .forgiving parsed).run engine).1 = .ok .null ∧
      ((evaluate parsed).run engine).1 =
        .error ⟨.undefinedVariable "n", some .nowhere⟩ := ⟨rfl, rfl⟩

theorem run_eval_congr {α : Type} {x y : Eval α} {engine : Engine}
    (h : x.run ⟨.of engine.environment, engine.world⟩ =
      y.run ⟨.of engine.environment, engine.world⟩) :
    (eval x).run engine = (eval y).run engine := by
  rw [run_eval, run_eval, h]

theorem Agrees.unrefused {engine : Engine} (h : Agrees engine) {parsed : Parsed}
    (hp : ∀ e ∈ parsed.root, e.WellTyped engine.registry engine.scope) :
    Unrefused parsed engine := by
  obtain ⟨_ | e, nodes⟩ := parsed
  · exact ⟨nofun, fun _ => rfl, fun _ => rfl, fun _ _ => rfl⟩
  have hvars := (hp e rfl).scope_of_mem_vars
  have htargets : ∀ x ∈ e.targets, engine.scope.get? x.1 = some (.var x.2) :=
    fun x hx => hvars x (e.targets_subset_vars hx)
  have hvar : ∀ x ∈ e.var?, engine.scope.get? x.1 = some (.var x.2) :=
    fun x hx => hvars x (e.var?_subset_vars (Option.mem_toList.2 hx))
  have hst (name : String) (t : Ty) (hname : engine.scope.get? name = some (.var t)) :
      Context.declared? (.of engine.environment) name = some t :=
    exists_binding_iff.1 ((h name t).1 hname)
  refine ⟨fun _ he x hx => (h x.1 x.2).1 (hvars x (Option.some.inj he ▸ hx)), fun ha => ?_,
    fun ha => ?_, fun ha v => ?_⟩
  · have halike := (e.alongside engine.registry (C := ha.coupling engine.scope) hvars htargets).1
    rw [Expr.denoteBy_usual] at halike
    rw [run_evaluate]
    exact (run_get_bind _ engine).trans (run_eval_congr (ha.run_eq halike hst))
  · have halike := e.execute_alike engine.registry (C := ha.coupling engine.scope) hvars htargets
    rw [Expr.denoteBy_usual] at halike
    rw [run_execute]
    exact (run_get_bind _ engine).trans (run_eval_congr (ha.run_eq halike hst))
  · have halike := e.store_alike engine.registry (C := ha.coupling engine.scope) hvars htargets
      hvar v
    rw [Expr.denoteBy_usual, Denoted.storeBy_usual] at halike
    rw [run_assign]
    exact (run_get_bind _ engine).trans (run_eval_congr (ha.run_eq halike hst))

/-- **The two tables agree, and no variable is ever refused.** After any steps from an engine in
which nothing is declared, whether they fail or not, the variables in scope are those that have a
value, at the same types. So the variables of what is compiled then have values at the types they
were compiled with, as long as nothing is declared; and it is evaluated, executed and assigned to
in the same way whatever would be done where the environment refuses a variable, which therefore it
never does. -/
theorem declarations_agree (b : Builder) (options : ParseOptions) (steps : List Step) :
    let engine := (Engine.ofBuilder b options).after steps
    Agrees engine ∧
      ∀ tokens parsed compiled, (compile tokens).run engine = (.ok parsed, compiled) →
        ∀ later : List Step, (∀ s ∈ later, ¬ s.Declares) →
          Unrefused parsed (compiled.after later) := by
  intro engine
  have hagrees : Agrees engine := (Agrees.ofBuilder b options).after steps
  refine ⟨hagrees, fun tokens parsed compiled hcompile later hlater => ?_⟩
  have hkept : Kept engine (compiled.after later) := by
    have h := Kept.compile tokens engine
    rw [hcompile] at h
    exact h.trans (.after hlater compiled)
  refine (hagrees.kept hkept).unrefused fun e he => ?_
  rw [hkept.registry, hkept.scope]
  rw [run_compile] at hcompile
  exact Setting.parse_wellTyped (congrArg Prod.fst hcompile) e he

end Engine

/-- `n += m`. -/
def TokenList.increase : TokenList :=
  .ofTokens (#[.ident "n" [], .operator (.assign (.compound .add)), .ident "m" []].map .unplaced)

namespace Engine

/-- `n` is a constant before it is a variable, and `m` a variable before it is a constant. -/
def Step.redeclarations : List Step :=
  [.declareConstant "n" (.int 1), .declare "m" .string (.str "old"), .declare "n" .int (.int 5),
    .declareConstant "m" (.int 2), .undeclare "k"]

/-- The engine in which `n` is a variable and `m` a constant. -/
def redeclared : Engine := (ofBuilder .primitive .standard).after Step.redeclarations

theorem declarations_agree_redeclared :
    let later : List Step := [.run .increase, .outside default]
    redeclared.scope.get? "n" = some (.var .int) ∧ redeclared.environment.get? "m" = none ∧
      Agrees redeclared ∧ (∀ s ∈ later, ¬ s.Declares) ∧
      ∃ parsed compiled, (compile .increase).run redeclared = (.ok parsed, compiled) ∧
        parsed.type = .int ∧
        (evaluateBy .forgiving parsed).run (compiled.after later) =
          (evaluate parsed).run (compiled.after later) := by
  intro later
  have hlater : ∀ s ∈ later, ¬ s.Declares := by simp [later, Step.Declares]
  have htype : ((compile .increase).run redeclared).1.toOption.map Parsed.type = some .int := by
    decide +kernel
  rcases hrun : (compile .increase).run redeclared with ⟨_ | parsed, compiled⟩ <;>
    rw [hrun] at htype
  · cases htype
  · obtain ⟨hagrees, hunrefused⟩ :=
      declarations_agree .primitive .standard Step.redeclarations
    exact ⟨rfl, rfl, hagrees, hlater, parsed, compiled, rfl, Option.some.inj htype,
      (hunrefused _ _ _ hrun later hlater).evaluate Access.lenient_forgiving⟩

end Engine

end TypedExpr
