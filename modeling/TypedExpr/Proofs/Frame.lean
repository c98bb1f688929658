import TypedExpr.Proofs.Evaluation.Alongside
import TypedExpr.Proofs.Evaluation.Moves
/-!
# What an evaluation depends on and what it changes

The evaluation of an expression depends on the variables that occur in it and on the world, and it
changes the variables that it stores to and the world.

* `Environment.Agree`: two environments have the same bindings of some variables.
* `Environment.Framed`: what is left of an environment when only some variables are stored to.
* `Environment.beside`: two evaluations from environments that agree.
* `Expr.evaluation_local`: **an evaluation touches only the variables that it names.**
-/

namespace TypedExpr

namespace Environment

variable {xs : List (String × Ty)} {env env' env₀ : Environment} {c : Catalog} {name : String}
  {t : Ty} {v : Value}

/-- The environments have the same bindings of the variables. -/
def Agree (xs : List (String × Ty)) (env env' : Environment) : Prop :=
  ∀ x ∈ xs, env.get? x.1 = env'.get? x.1

/-- What is left of an environment when only the variables of a list are stored to: the same
variables, at the same types, and the values of all others. -/
structure Framed (xs : List (String × Ty)) (env env' : Environment) : Prop where
  types (name : String) : (env'.get? name).map (·.type) = (env.get? name).map (·.type)
  others {name : String} (h : ∀ x ∈ xs, x.1 ≠ name) : env'.get? name = env.get? name

theorem Framed.refl (xs : List (String × Ty)) (env : Environment) : Framed xs env env :=
  ⟨fun _ => rfl, fun _ => rfl⟩

theorem Framed.write (h : Framed xs env₀ env) (hx : ∃ x ∈ xs, x.1 = name)
    (hw : env.write c name t v = .ok env') : Framed xs env₀ env' := by
  obtain ⟨htype, rfl⟩ := write_eq_ok_iff.1 hw
  refine ⟨fun x => ?_, fun {x} ho => ?_⟩
  · rw [NameMap.get?_insert]
    split
    · rename_i hname
      rw [← h.types, hname, htype]
      rfl
    · exact h.types x
  · obtain ⟨y, hy, rfl⟩ := hx
    rw [NameMap.get?_insert, if_neg (ho y hy).symm]
    exact h.others ho

/-- Whether a variable can be read or stored to is read off its binding. -/
theorem binding_congr (h : env.get? name = env'.get? name) (c : Catalog) (t : Ty) :
    env.binding c name t = env'.binding c name t := by
  unfold binding
  rw [h]

/-- Environments that agree refuse to store with the same fault, or are stored to and agree. -/
theorem Agree.write (h : Agree xs env env') (hx : ∃ x ∈ xs, x.1 = name) (c : Catalog) (t : Ty)
    (v : Value) :
    (∃ fault, env.write c name t v = .error fault ∧ env'.write c name t v = .error fault) ∨
      ∃ next next', env.write c name t v = .ok next ∧ env'.write c name t v = .ok next' ∧
        Agree xs next next' := by
  obtain ⟨x, hx, rfl⟩ := hx
  have hb := binding_congr (h x hx) c t
  unfold Environment.write
  cases he : env.binding c x.1 t with
  | error fault =>
    rw [← hb, he]
    exact .inl ⟨fault, rfl, rfl⟩
  | ok b =>
    rw [← hb, he]
    refine .inr ⟨_, _, rfl, rfl, fun y hy => ?_⟩
    rw [NameMap.get?_insert, NameMap.get?_insert, h y hy]

variable {world : World}

theorem run_write_ok (h : env.write world.catalog name t v = .ok env') :
    (Eval.write name t v).run ⟨.of env, world⟩ = (.ok (), ⟨.of env', world⟩) := by
  refine Eval.run_write_ok (s := ⟨.of env, world⟩) ?_
  show (env.write world.catalog name t v).map Context.of = .ok (.of env')
  rw [h]
  rfl

theorem run_write_error {fault : Fault} (h : env.write world.catalog name t v = .error fault) :
    (Eval.write name t v).run ⟨.of env, world⟩ = (.error fault.unplaced, ⟨.of env, world⟩) := by
  refine Eval.run_write_error (s := ⟨.of env, world⟩) ?_
  show (env.write world.catalog name t v).map Context.of = .error fault
  rw [h]
  rfl

/-- Two evaluations from environments that agree on variables `xs`, of which `ys` may be stored
to. -/
def beside (xs ys : List (String × Ty)) (env₁ env₂ : Environment) :
    Access.Coupling .usual .usual where
  holds st st' := ∃ env env' world, st = ⟨.of env, world⟩ ∧ st' = ⟨.of env', world⟩ ∧
    Agree xs env env' ∧ Framed ys env₁ env ∧ Framed ys env₂ env'
  world := by
    rintro _ _ ⟨env, env', world, rfl, rfl, -⟩
    rfl
  move := by
    rintro _ _ ⟨env, env', -, rfl, rfl, h⟩ world
    exact ⟨env, env', world, rfl, rfl, h⟩
  reads name _ := ∃ x ∈ xs, x.1 = name
  writes name _ := (∃ x ∈ xs, x.1 = name) ∧ ∃ y ∈ ys, y.1 = name
  read := by
    rintro _ t ⟨x, hx, rfl⟩ _ _ ⟨env, env', world, rfl, rfl, h, hframed⟩
    refine ⟨?_, ⟨env, env', world, rfl, rfl, h, hframed⟩, fun _ _ => trivial⟩
    show ((env.binding world.catalog x.1 t).map _).mapError _ =
      ((env'.binding world.catalog x.1 t).map _).mapError _
    rw [binding_congr (h x hx)]
  write := by
    rintro name t ⟨hx, hy⟩ v _ _ ⟨env, env', world, rfl, rfl, h, hf, hf'⟩
    unfold Access.usual
    obtain ⟨fault, hw, hw'⟩ | ⟨next, next', hw, hw', hnext⟩ := h.write hx world.catalog t v
    · rw [run_write_error hw, run_write_error hw']
      exact ⟨rfl, ⟨env, env', world, rfl, rfl, h, hf, hf'⟩, fun _ _ => trivial⟩
    · rw [run_write_ok hw, run_write_ok hw']
      exact ⟨rfl, ⟨next, next', world, rfl, rfl, hnext, hf.write hy hw, hf'.write hy hw'⟩,
        fun _ _ => trivial⟩

end Environment

open TypedExpr.Environment

/-- **An evaluation touches only the variables that it names.** From the same world, and two
environments that agree on the variables of an expression, its evaluation has the same result,
succeeding or not, and ends in the same world, so in the same heap and with the same calls made of
the host. The environments agree on the variables of the expression again. In both of them the same
variables are declared as before, at the same types; and those that the expression does not assign
to or step have the values they had. -/
theorem Expr.evaluation_local (reg : Registry) (e : Expr) (world : World) {env₁ env₂ : Environment}
    (h : Agree e.vars env₁ env₂) :
    ∃ result world' env₁' env₂',
      (e.denote reg).value.run ⟨.of env₁, world⟩ = (result, ⟨.of env₁', world'⟩) ∧
      (e.denote reg).value.run ⟨.of env₂, world⟩ = (result, ⟨.of env₂', world'⟩) ∧
      Agree e.vars env₁' env₂' ∧ Framed e.targets env₁ env₁' ∧ Framed e.targets env₂ env₂' := by
  have hstart : (beside e.vars e.targets env₁ env₂).holds ⟨.of env₁, world⟩ ⟨.of env₂, world⟩ :=
    ⟨env₁, env₂, world, rfl, rfl, h, .refl _ _, .refl _ _⟩
  have halike := (e.alongside reg (C := beside e.vars e.targets env₁ env₂)
    (fun x hx => ⟨x, hx, rfl⟩)
    fun x hx => ⟨⟨x, e.targets_subset_vars hx, rfl⟩, ⟨x, hx, rfl⟩⟩).1
  rw [denoteBy_usual] at halike
  obtain ⟨hresult, ⟨env₁', env₂', world', h₁, h₂, hagree, hf₁, hf₂⟩, -⟩ := halike _ _ hstart
  refine ⟨_, world', env₁', env₂', Prod.ext rfl h₁, Prod.ext hresult.symm h₂, hagree, hf₁, hf₂⟩

/-- `share = 10 / n++`. -/
def Expr.share : Expr :=
  .node 5 .nowhere .int (.assign (.node 0 .nowhere .int (.var "share"))
    (.node 4 .nowhere .int (.binary .div .int (.node 1 .nowhere .int (.int 10))
      (.node 3 .nowhere .int (.step .increment true (.node 2 .nowhere .int (.var "n")))))))

/-- The variables of `share = 10 / n++`, `n` being zero, and others. -/
def Environment.shared (others : List (String × Binding)) : Environment :=
  ⟨("share", ⟨.int, .int 7⟩) :: ("n", ⟨.int, .int 0⟩) :: others⟩

theorem Expr.evaluation_local_share :
    let env₁ := shared [("x", ⟨.bool, .bool true⟩)]
    let env₂ := shared []
    share.targets = [("share", .int), ("n", .int)] ∧ Agree share.vars env₁ env₂ ∧
      ∃ error world' env₁' env₂', error.fault = .divisionByZero ∧
        (share.denote .primitive).value.run ⟨.of env₁, default⟩ =
          (.error error, ⟨.of env₁', world'⟩) ∧
        (share.denote .primitive).value.run ⟨.of env₂, default⟩ =
          (.error error, ⟨.of env₂', world'⟩) ∧
        env₁'.get? "n" = some ⟨.int, .int 1⟩ ∧ env₂'.get? "n" = some ⟨.int, .int 1⟩ ∧
        env₁'.get? "x" = some ⟨.bool, .bool true⟩ ∧ env₂'.get? "x" = none := by
  intro env₁ env₂
  have htargets : share.targets = [("share", .int), ("n", .int)] := rfl
  have hagree : Agree share.vars env₁ env₂ := by
    unfold Agree
    decide
  have hfault : ((share.denote .primitive).value.run ⟨.of env₁, default⟩).1 =
      .error ⟨.divisionByZero, some .nowhere⟩ := rfl
  have hn : ((share.denote .primitive).value.run ⟨.of env₁, default⟩).2.context.binding? "n" =
      some ⟨.int, .int 1⟩ := rfl
  obtain ⟨result, world', env₁', env₂', h₁, h₂, hagree', hf₁, hf₂⟩ :=
    evaluation_local .primitive share default hagree
  rw [h₁] at hfault hn
  obtain rfl := hfault
  have hx : ∀ x ∈ share.targets, x.1 ≠ "x" := by decide
  have hn' : env₁'.get? "n" = env₂'.get? "n" := hagree' ("n", .int) (by decide)
  exact ⟨htargets, hagree, _, world', env₁', env₂', rfl, h₁, h₂, hn, hn' ▸ hn, hf₁.others hx,
    hf₂.others hx⟩

end TypedExpr
