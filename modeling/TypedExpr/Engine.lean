import TypedExpr.Eval
import TypedExpr.Parse
import TypedExpr.Registry.Builder
import TypedExpr.Token.TypeName
/-!
# The engine

An engine has a registry, the names declared so far, and the values of the variables. It compiles
expressions and evaluates them; declaring a variable makes it known for both.

* `Engine.declare`, `Engine.declareConstant`, `Engine.undeclare`: what a name means from now on.
* `Engine.compile`, `Engine.evaluate`, `Engine.execute`, `Engine.assign`, `Engine.run`: what is done
  with an expression.
-/

namespace TypedExpr

/-- An engine. -/
structure Engine where
  registry : Registry
  options : ParseOptions
  scope : Scope
  environment : Environment
  world : World

/-- A step of an engine. What was done before a failure stays done. -/
abbrev EngineM (ε : Type) := ExceptT ε (StateM Engine)

/-- Why an expression cannot be run: it is refused, or its evaluation fails. -/
inductive EngineError where
  | parse (error : ParseError)
  | eval (error : EvalError)
  deriving DecidableEq, Repr, Inhabited

/-- The words in which an error is reported. -/
def EngineError.message : EngineError → String
  | .parse e => e.diagnostic.text
  | .eval e => e.fault.message

namespace Engine

/-- An engine in which nothing is declared. -/
def ofBuilder (b : Builder) (options : ParseOptions) : Engine where
  registry := b.registry
  options := options
  scope := .empty
  environment := .empty
  world := ⟨.empty, b.catalog, #[]⟩

/-- Mention a name. -/
def noteName (engine : Engine) (name : String) : Engine :=
  { engine with world := { engine.world with catalog := engine.world.catalog.noteName name } }

/-- Declare a variable, in place of what the name meant before. -/
def declare (engine : Engine) (name : String) (type : Ty) (v : Value) : Engine :=
  { engine.noteName name with
    scope := engine.scope.insert name (.var type)
    environment := engine.environment.insert name ⟨type, v⟩ }

/-- Declare a constant, in place of what the name meant before. -/
def declareConstant (engine : Engine) (name : String) (c : Constant) : Engine :=
  { engine.noteName name with
    scope := engine.scope.insert name (.constant c)
    environment := engine.environment.erase name }

/-- Forget what a name means. The result says whether it meant anything. -/
def undeclare (engine : Engine) (name : String) : Bool × Engine :=
  (engine.scope.contains name,
    { engine.noteName name with
      scope := engine.scope.erase name
      environment := engine.environment.erase name })

/-- Mention names in order. -/
def noteNames (engine : Engine) (names : List String) : Engine := names.foldl noteName engine

/-- The tokens of a text. -/
def scan (text : String) : EngineM LexError TokenList :=
  ExceptT.mk fun engine =>
    match TokenList.ofText engine.registry text engine.world.catalog with
    | .ok (tokens, c) => (.ok tokens, { engine with world := { engine.world with catalog := c } })
    | .error e => (.error e, engine)

/-- The value of a variable. -/
def valueOf? (engine : Engine) (name : String) : Option Value :=
  (engine.environment.get? name).map (·.value)

/-- What parsing tokens under the declarations depends on. -/
def setting (engine : Engine) (tokens : TokenList) : Setting where
  registry := engine.registry
  scope := engine.scope
  options := engine.options
  tokens := tokens

/-- Compile tokens to an expression. -/
def compile (tokens : TokenList) : EngineM ParseError Parsed :=
  ExceptT.mk fun engine =>
    let (result, catalog) := (engine.setting tokens).parse engine.world.catalog
    (result, { engine with world := { engine.world with catalog := catalog } })

theorem run_compile (tokens : TokenList) (engine : Engine) :
    (compile tokens).run engine =
      (((engine.setting tokens).parse engine.world.catalog).1,
        { engine with
          world := { engine.world with
            catalog := ((engine.setting tokens).parse engine.world.catalog).2 } }) := rfl

/-- Parse the expressions in tokens one after the other, under declarations other than those of the
engine. The result also says how many nodes were built. -/
def parseSequence (scope : Scope) (tokens : TokenList) :
    EngineM ParseError (List ParsedNext × Option ParseError × Nat) :=
  ExceptT.mk fun engine =>
    let s := { engine.setting tokens with scope := scope }
    let (result, p) := (Parser.sequence s tokens.size).run (.start engine.world.catalog)
    (result.map fun (parsed, refusal) => (parsed, refusal, p.nodes.size),
      { engine with world := { engine.world with catalog := p.catalog } })

/-- A step in the world of the engine. -/
def inWorld {α : Type} (x : Run α) : EngineM Fault α :=
  ExceptT.mk fun engine =>
    let (result, world) := x.run engine.world
    (result, { engine with world := world })

/-- Carry out an evaluation without variables. -/
def evalWithoutVariables {α : Type} (x : Eval α) : EngineM EvalError α :=
  ExceptT.mk fun engine =>
    let (result, s) := x.run ⟨.empty, engine.world⟩
    (result, { engine with world := s.world })

/-- Carry out an evaluation on the variables of the engine. -/
def eval {α : Type} (x : Eval α) : EngineM EvalError α :=
  ExceptT.mk fun engine =>
    let (result, s) := x.run ⟨.of engine.environment, engine.world⟩
    let environment := match s.context with
      | .of env => env
      | .empty => engine.environment
    (result, { engine with environment := environment, world := s.world })

theorem run_eval {α : Type} (x : Eval α) (engine : Engine) :
    (eval x).run engine =
      ((x.run ⟨.of engine.environment, engine.world⟩).1,
        { engine with
          environment := match (x.run ⟨.of engine.environment, engine.world⟩).2.context with
            | .of env => env
            | .empty => engine.environment
          world := (x.run ⟨.of engine.environment, engine.world⟩).2.world }) := rfl

theorem run_get_bind {ε α : Type} (f : Engine → EngineM ε α) (engine : Engine) :
    (get >>= f : EngineM ε α).run engine = (f engine).run engine := rfl

/-- Evaluate an expression; an empty one yields nothing. -/
def evaluate (parsed : Parsed) : EngineM EvalError Value := do
  match parsed.root with
  | some e => eval (e.denote (← get).registry).value
  | none => return .void

/-- Evaluate an expression for its effect alone. -/
def execute (parsed : Parsed) : EngineM EvalError Unit := do
  match parsed.root with
  | some e => eval (e.denote (← get).registry).execute
  | none => return ()

/-- Store a value to an expression; storing to an empty one does nothing. -/
def assign (parsed : Parsed) (v : Value) : EngineM EvalError Value := do
  match parsed.root with
  | some e =>
    let reg := (← get).registry
    eval ((e.denote reg).store reg v)
  | none => return .void

section

variable (e : Expr) (nodes : Array Expr) (engine : Engine)

theorem run_evaluate :
    (evaluate ⟨some e, nodes⟩).run engine = (eval (e.denote engine.registry).value).run engine :=
  run_get_bind _ engine

theorem run_execute :
    (execute ⟨some e, nodes⟩).run engine = (eval (e.denote engine.registry).execute).run engine :=
  run_get_bind _ engine

theorem run_assign (v : Value) :
    (assign ⟨some e, nodes⟩ v).run engine =
      (eval ((e.denote engine.registry).store engine.registry v)).run engine :=
  run_get_bind _ engine

end

/-- Compile and evaluate. -/
def run (tokens : TokenList) : EngineM EngineError Value := do
  let parsed ← ExceptT.adapt EngineError.parse (compile tokens)
  ExceptT.adapt EngineError.eval (evaluate parsed)

theorem run_adapt {ε ε' α : Type} (f : ε → ε') (x : EngineM ε α) (engine : Engine) :
    (ExceptT.adapt f x).run engine = ((x.run engine).1.mapError f, (x.run engine).2) := rfl

/-! ### Listings -/

/-- The options as an engine shows them. -/
def configText (engine : Engine) : String :=
  s!"EngineConfig \x7b parse: {engine.options.text} \x7d"

/-- An engine in a listing. -/
def text (engine : Engine) : String :=
  let count := engine.environment.size
  let declarations := engine.scope.size
  s!"Engine \x7b variables: {count}, declarations: {declarations}, " ++
    s!"config: {engine.configText}, .. \x7d"

/-- A registry in a listing, with how many types have a number. -/
def registryText (engine : Engine) : String :=
  let types := engine.registry.definitions.size
  let callables := engine.registry.callables.size
  let functions := engine.registry.functions.size
  let pool := engine.world.catalog.types.size
  s!"TypeRegistry \x7b types: {types}, callables: {callables}, functions: {functions}, " ++
    s!"pool: TypePool \x7b types: {pool} \x7d, .. \x7d"

end Engine

end TypedExpr
