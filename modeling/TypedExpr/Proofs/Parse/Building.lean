import TypedExpr.Proofs.Parse.Simulation
/-!
# Building nodes side by side

Every builder of nodes respects a simulation: what it builds from related operands is related.

* `Simulation.buildUnary`, `Simulation.buildBinary`, …: one statement for each builder.
-/

namespace TypedExpr.Parser.Simulation

variable {s : Setting} {fold : Bool} (m : Simulation s fold)

theorem modifiable {e e' : Expr} (h : m.expr e e') : e'.isModifiable = e.isModifiable := by
  unfold Expr.isModifiable Expr.isGettable
  rw [m.type h, m.settable h]

theorem typed {α : Type} (result : Except OperatorError α) (operator operator' : Item)
    (symbol : String) (operands operands' : List Ty) :
    Simulates m.state (fun a b => a = b ∧ result = .ok a) (typed s result operator symbol operands)
      (typed (s.withFold fold) result operator' symbol operands') := by
  cases result with
  | ok a => exact .pure ⟨rfl, rfl⟩
  | error _ => exact .refuse

theorem buildIndex {container container' bracket bracket' : Item} {i i' : Expr}
    (hc : Item.Rel m.expr container container') (hi : m.expr i i') (hv : i.type ≠ .void)
    (hb : Item.Rel m.expr bracket bracket') :
    Simulates m.state (Item.Rel m.expr) (buildIndex s container i bracket)
      (buildIndex (s.withFold fold) container' i' bracket') := by
  cases hc with
  | @value e e' h span line =>
    refine (m.requireValue h line).bind fun _ _ hne => ?_
    rw [hb.span, hb.line, m.type h]
    refine (m.noteTypes _).bind fun _ _ _ => ?_
    dsimp only
    cases hx : s.registry.resolveIndexer e.type with
    | error _ => exact .refuse
    | ok indexer =>
      refine (m.convert hi hv indexer.index "index" bracket.line).bind fun a a' ha => ?_
      have hr : Expr.Rule s.registry s.scope _ _ _ := .index hx hne ha.2
      exact (m.push _ hr (.index _ _ h ha.1)).bind fun e e' he => .pure (.value he _ _)
  | _ => exact .refuse

theorem buildStep (op : StepOp) (before : Bool) {target target' : Expr} (h : m.expr target target')
    (ht : target.isModifiable = true) (operator operator' : Item) (span : Span) :
    Simulates m.state m.expr (buildStep s op before target operator span)
      (buildStep (s.withFold fold) op before target' operator' span) := by
  unfold Parser.buildStep
  rw [m.type h]
  cases hp : stepPlan? target.type with
  | none => exact .refuse
  | some plan => exact m.push span (.step ht hp) (.step op before h)

theorem buildUnary (op : UnaryOp) {e e' : Expr} (h : m.expr e e') (hv : e.type ≠ .void)
    {operator operator' : Item} (ho : Item.Rel m.expr operator operator') (span : Span) :
    Simulates m.state m.expr (buildUnary s op e operator span)
      (buildUnary (s.withFold fold) op e' operator' span) := by
  unfold Parser.buildUnary
  rw [m.type h, ho.line]
  refine (m.noteTypes _).bind fun _ _ _ => ?_
  refine (m.typed _ _ _ _ _ _).bind ?_
  rintro typing _ ⟨rfl, ht⟩
  refine (m.convert h hv typing.operand "operand" operator.line).bind fun a a' ha => ?_
  exact (m.pushFolded span (.unary ht ha.2) (.unary op _ ha.1)).mono fun _ _ h => h.1

theorem buildCast {e e' : Expr} (h : m.expr e e') (hv : e.type ≠ .void) (target : Ty)
    (operator operator' : Item) (span : Span) :
    Simulates m.state m.expr (buildCast s e target operator span)
      (buildCast (s.withFold fold) e' target operator' span) := by
  unfold Parser.buildCast
  rw [m.type h]
  cases hc : s.registry.explicitCast? e.type target with
  | none => exact .refuse
  | some plan => exact (m.pushFolded span (.cast hc hv) (.cast plan h)).mono fun _ _ h => h.1

theorem buildBinary (op : BinaryOp) {l l' r r' : Expr} (hl : m.expr l l') (hr : m.expr r r')
    (hlv : l.type ≠ .void) (hrv : r.type ≠ .void) {operator operator' : Item}
    (ho : Item.Rel m.expr operator operator') (span : Span) :
    Simulates m.state m.expr (buildBinary s op l r operator span)
      (buildBinary (s.withFold fold) op l' r' operator' span) := by
  unfold Parser.buildBinary
  rw [m.type hl, m.type hr, ho.line]
  refine (m.noteTypes _).bind fun _ _ _ => ?_
  refine (m.typed _ _ _ _ _ _).bind ?_
  rintro typing _ ⟨rfl, ht⟩
  refine (m.convert hl hlv typing.left _ _).bind fun a a' ha => ?_
  refine (m.convert hr hrv typing.right _ _).bind fun b b' hb => ?_
  have rule : Expr.Rule s.registry s.scope _ _ _ := .binary ht ha.2 hb.2
  exact (m.pushFolded span rule (.binary op _ ha.1 hb.1)).mono fun _ _ h => h.1

theorem buildTernary {c c' y y' n n' : Expr} (hc : m.expr c c') (hy : m.expr y y')
    (hn : m.expr n n') (hcv : c.type ≠ .void) (hyv : y.type ≠ .void) (hnv : n.type ≠ .void)
    {operator operator' : Item} (ho : Item.Rel m.expr operator operator') (span : Span) :
    Simulates m.state m.expr (buildTernary s c y n operator span)
      (buildTernary (s.withFold fold) c' y' n' operator' span) := by
  unfold Parser.buildTernary
  rw [m.type hy, m.type hn, ho.line]
  refine (m.convert hc hcv .bool _ _).bind fun a a' ha => ?_
  have branches (t : Ty)
      (ht : t = if s.registry.isAssignable n.type y.type then y.type else n.type) :
      Simulates m.state m.expr
        (do
          let yes ← Parser.convert s y t "branch" operator.line
          let no ← Parser.convert s n t "branch" operator.line
          Parser.push (.ternary a yes no) span t)
        (do
          let yes ← Parser.convert (s.withFold fold) y' t "branch" operator.line
          let no ← Parser.convert (s.withFold fold) n' t "branch" operator.line
          Parser.push (.ternary a' yes no) span t) := by
    refine (m.convert hy hyv t _ _).bind fun b b' hb => ?_
    refine (m.convert hn hnv t _ _).bind fun d d' hd => ?_
    exact m.push span (.ternary ht ha.2 hb.2 hd.2) (.ternary ha.1 hb.1 hd.1)
  refine .ite (fun h => branches _ (if_pos h).symm) fun h => ?_
  exact .ite (fun _ => branches _ (if_neg h).symm) fun _ => .refuse_bind

theorem buildAssign {target target' value value' : Expr} (ht : m.expr target target')
    (hv : m.expr value value') (hm : target.isModifiable = true) (hvv : value.type ≠ .void)
    {operator operator' : Item} (ho : Item.Rel m.expr operator operator') (span : Span) :
    Simulates m.state m.expr (buildAssign s target value operator span)
      (buildAssign (s.withFold fold) target' value' operator' span) := by
  unfold Parser.buildAssign
  rw [m.type ht, ho.line]
  refine (m.convert hv hvv target.type _ _).bind fun a a' ha => ?_
  exact m.push span (.assign hm ha.2) (.assign ht ha.1)

theorem buildCompound (op : BinaryOp) {target target' value value' : Expr}
    (ht : m.expr target target') (hv : m.expr value value') (hm : target.isModifiable = true)
    (hvv : value.type ≠ .void) {operator operator' : Item}
    (ho : Item.Rel m.expr operator operator') (span : Span) :
    Simulates m.state m.expr (buildCompound s op target value operator span)
      (buildCompound (s.withFold fold) op target' value' operator' span) := by
  unfold Parser.buildCompound
  rw [m.type ht, m.type hv, ho.line]
  refine (m.noteTypes _).bind fun _ _ _ => ?_
  refine (m.typed _ _ _ _ _ _).bind ?_
  rintro typing _ ⟨rfl, hty⟩
  refine (m.convert hv hvv typing.right _ _).bind fun a a' ha => ?_
  exact m.push span (.compound hm hty ha.2) (.compound op _ ht ha.1)

theorem buildUpdate (op : AssignOp) {target target' value value' : Expr}
    (ht : m.expr target target') (hv : m.expr value value') (hm : target.isModifiable = true)
    (hvv : value.type ≠ .void) {operator operator' : Item}
    (ho : Item.Rel m.expr operator operator') (span : Span) :
    Simulates m.state m.expr (buildUpdate s op target value operator span)
      (buildUpdate (s.withFold fold) op target' value' operator' span) := by
  cases op with
  | plain => exact m.buildAssign ht hv hm hvv ho span
  | compound op => exact m.buildCompound op ht hv hm hvv ho span

end TypedExpr.Parser.Simulation
