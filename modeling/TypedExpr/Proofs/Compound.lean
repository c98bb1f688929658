import TypedExpr.Proofs.Parse.Pair
import TypedExpr.Sample.Addable
/-!
# Assignment with an operation

`x op= e` is accepted just when `x = x op (e)` is. The two come to the same unless the operator is
an overload to which the long form passes another argument or another result type, or whose result
the short form promotes: the short form neither converts the variable to the type of the parameter
nor calls the overload for the type of its result.

* `Update`: an assignment with an operation to a variable, in its short and its long form.
* `Update.Differs`: what tells the two forms apart.
* `Update.forms`: **the short form stands for the long one just where nothing tells them apart.**
-/

namespace TypedExpr

/-- Where something is written: the number of its node if it is one, its span and its line. -/
structure Spot where
  number : Nat
  span : Span
  line : Nat

/-- An assignment with an operation to a variable, and where its parts are written: the variable,
the assignment, and in the long form the variable once more, the operator and the group. -/
structure Update where
  name : String
  type : Ty
  op : BinaryOp
  eager : op.kind ≠ .shortCircuit
  target : Spot
  assign : Spot
  again : Spot
  operator : Spot
  group : Spot

namespace Update

variable (u : Update)

/-- The variable as it is written at a place. -/
def variableAt (spot : Spot) : Expr := .node spot.number spot.span u.type (.var u.name)

/-- The target and an assignment. -/
def front (op : AssignOp) : Parser.Front where
  target := u.variableAt u.target
  op := op
  targetSpan := u.target.span
  opSpan := u.assign.span
  targetLine := u.target.line
  opLine := u.assign.line

/-- `x op= e`, the value being still to be put together from items. -/
def short (items : List Item) : List Item := (u.front (.compound u.op)).before items

/-- `x = x op (e)`. -/
def long (e : Expr) : List Item :=
  (u.front .plain).before [⟨.value (u.variableAt u.again), u.again.span, u.again.line⟩,
    ⟨.operator (.binary u.op), u.operator.span, u.operator.line⟩,
    ⟨.value e, u.group.span, u.group.line⟩]

/-- What the variable denotes. -/
def operand (reg : Registry) (span : Span) : Denoted := .ofForm reg span u.type (.var u.name)

theorem denote_variableAt (reg : Registry) (spot : Spot) :
    (u.variableAt spot).denote reg = u.operand reg spot.span :=
  Expr.denote_node reg _ _ _ _

theorem denote_target (reg : Registry) (op : AssignOp) :
    (u.front op).target.denote reg = u.operand reg u.target.span :=
  u.denote_variableAt reg u.target

/-- What the short form denotes. -/
def shortForm (reg : Registry) (typing : BinaryTyping) (e : Denoted) (span : Span) : Denoted :=
  .ofForm reg span u.type (.compound u.op typing.plan (u.operand reg u.target.span)
    (e.converted reg typing.right))

/-- What the operation in the long form denotes. -/
def operation (reg : Registry) (typing : BinaryTyping) (e : Denoted) (span : Span) : Denoted :=
  .ofForm reg span typing.result (.binary u.op typing.plan
    ((u.operand reg u.again.span).converted reg typing.left) (e.converted reg typing.right))

/-- What the long form denotes. -/
def longForm (reg : Registry) (typing : BinaryTyping) (e : Denoted) (inner span : Span) : Denoted :=
  .ofForm reg span u.type (.assign (u.operand reg u.target.span)
    ((u.operation reg typing e inner).converted reg u.type))

/-! ### When the forms are accepted -/

/-- The operation on the variable and the value has a typing whose result converts back. -/
structure Typed (reg : Registry) (value : Ty) (typing : BinaryTyping) : Prop where
  rule : reg.typeBinary u.op u.type value = .ok typing
  back : reg.isAssignable typing.result u.type = true

section Accepted

variable {u} {s : Setting} {items : List Item} {p q : ParseState} {c e : Expr}

theorem Typed.ne_void {reg : Registry} {value : Ty} {typing : BinaryTyping}
    (h : u.Typed reg value typing) : u.type ≠ .void ∧ value ≠ .void := by
  obtain ⟨hl, hr⟩ := Registry.typeBinary_assignable h.rule
  exact ⟨(Registry.ne_void_of_isAssignable hl).1, (Registry.ne_void_of_isAssignable hr).1⟩

theorem isModifiable_variableAt {spot : Spot} :
    (u.variableAt spot).isModifiable = true ↔ u.type ≠ .void := by
  show (decide (u.type ≠ .void) && true) = true ↔ _
  simp

theorem short_ok (h : (Parser.applyOperators s (u.short items)).run p = (.ok (some c), q)) :
    ∃ e p' typing span, (Parser.applyOperators s items).run p = (.ok (some e), p') ∧
      u.Typed s.registry e.type typing ∧
      c.denote s.registry = u.shortForm s.registry typing (e.denote s.registry) span := by
  obtain ⟨-, e, span, line, p', hpasses, he, hc⟩ := (u.front _).applyOperators_before.1 h
  obtain ⟨typing, ht, hdenote⟩ := Parser.buildCompound_ok hc he
  obtain ⟨hrule, hback⟩ := (Registry.typeCompound_ok u.eager).1 ht
  rw [denote_target] at hdenote
  have hvalue := Parser.applyOperators_ok.2 ⟨_, hpasses, rfl⟩
  exact ⟨e, p', typing, _, hvalue, ⟨hrule, hback⟩, hdenote⟩

theorem exists_short {typing : BinaryTyping}
    (h : (Parser.applyOperators s items).run p = (.ok (some e), q))
    (ht : u.Typed s.registry e.type typing) :
    ∃ c r, (Parser.applyOperators s (u.short items)).run p = (.ok (some c), r) := by
  obtain ⟨hu, he⟩ := ht.ne_void
  obtain ⟨⟨_, span, line⟩, hpasses, rfl⟩ := Parser.applyOperators_ok.1 h
  have hrule : s.registry.typeCompound u.op (u.variableAt u.target).type e.type = .ok typing :=
    (Registry.typeCompound_ok u.eager).2 ⟨ht.rule, ht.back⟩
  obtain ⟨c, r, hc⟩ := Parser.exists_buildCompound s (u.front (.compound u.op)).assign
    (u.target.span.merge span) q u.eager hrule
  refine ⟨c, r, (u.front _).applyOperators_before.2 ⟨isModifiable_variableAt.2 hu, ?_⟩⟩
  exact ⟨e, span, line, q, hpasses, he, hc⟩

theorem long_ok (h : (Parser.applyOperators s (u.long e)).run p = (.ok (some c), q)) :
    ∃ typing inner span, u.Typed s.registry e.type typing ∧
      c.denote s.registry = u.longForm s.registry typing (e.denote s.registry) inner span := by
  obtain ⟨hm, b, span, line, p', hpasses, hb, hc⟩ := (u.front _).applyOperators_before.1 h
  have hu : (u.variableAt u.again).type ≠ .void := isModifiable_variableAt.1 hm
  obtain ⟨he, rfl, rfl, hbuild⟩ := (Parser.applyPasses_pair_ok hu).1 hpasses
  obtain ⟨typing, hrule, hdenote⟩ := Parser.buildBinary_ok hbuild hu he
  obtain ⟨hback, hc⟩ := Parser.buildAssign_ok hc hb
  have hresult : b.type = typing.result := by
    rw [← Expr.denote_type s.registry b, hdenote]
    rfl
  rw [hresult] at hback
  rw [denote_variableAt] at hdenote
  rw [denote_target, hdenote] at hc
  exact ⟨typing, _, _, ⟨hrule, hback⟩, hc⟩

theorem exists_long {typing : BinaryTyping} (ht : u.Typed s.registry e.type typing) (p : ParseState) :
    ∃ c q, (Parser.applyOperators s (u.long e)).run p = (.ok (some c), q) := by
  obtain ⟨hu, he⟩ := ht.ne_void
  have hx : (u.variableAt u.again).type ≠ .void := hu
  have hrule : s.registry.typeBinary u.op (u.variableAt u.again).type e.type = .ok typing := ht.rule
  obtain ⟨b, p', hbuild⟩ := Parser.exists_buildBinary s
    ⟨.operator (.binary u.op), u.operator.span, u.operator.line⟩
    (u.again.span.merge u.group.span) p hrule
  obtain ⟨typing', hrule', hdenote⟩ := Parser.buildBinary_ok hbuild hx he
  have hresult : b.type = typing.result := by
    rw [← Expr.denote_type s.registry b, hdenote]
    cases hrule.symm.trans hrule'
    rfl
  have hback : s.registry.isAssignable b.type (u.variableAt u.target).type = true := by
    rw [hresult]
    exact ht.back
  obtain ⟨c, q, hc⟩ := Parser.exists_buildAssign s (u.front .plain).assign
    (u.target.span.merge (u.again.span.merge u.group.span)) p' hback
  refine ⟨c, q, (u.front _).applyOperators_before.2 ⟨isModifiable_variableAt.2 hu, ?_⟩⟩
  refine ⟨b, _, _, p', (Parser.applyPasses_pair_ok hx).2 ⟨he, rfl, rfl, hbuild⟩, ?_, hc⟩
  exact (Registry.ne_void_of_isAssignable hback).1

end Accepted

/-! ### Operators that are not overloads -/

section Plain

variable {u} {reg : Registry} {value : Ty} {typing : BinaryTyping}

/-- Without an overload the variable is not converted, and a double is only given a double or a
text. -/
theorem Typed.of_plain (h : u.Typed reg value typing) (hp : ∀ id, typing.plan ≠ .overload id) :
    typing.left = u.type ∧ (u.type = .double → typing.result ≠ .int ∧
      (typing.plan = .concat ∨ typing.plan = .double ∧ u.op.kind = .arithmetic)) := by
  obtain ⟨-, -, ht⟩ := Registry.typeBinary_ok h.rule
  have hback := h.back
  cases ht with
  | overload => exact absurd rfl (hp _)
  | concat => exact ⟨rfl, fun _ => ⟨by simp, .inl rfl⟩⟩
  | reference =>
    refine ⟨rfl, fun hd => ?_⟩
    rcases Registry.eq_of_isAssignable_bool hback with h | h <;> simp [hd] at h
  | builtin ht =>
    cases ht with
    | concat => exact ⟨rfl, fun _ => ⟨by simp, .inl rfl⟩⟩
    | arithmetic hop hn =>
      unfold numericPlan at hback hp ⊢
      split
      · rename_i hi
        exact ⟨hi.1.symm, fun hd => by simp [hi.1] at hd⟩
      · rename_i hi
        rw [if_neg hi] at hback
        rcases Registry.eq_of_isAssignable rfl hback with h | h | h
        · exact ⟨h.symm, fun _ => ⟨by simp [BinaryTyping.uniform], .inr ⟨rfl, hop⟩⟩⟩
        · simp [BinaryTyping.uniform] at h
        · simp [h, Ty.isNumeric] at hn
    | int _ hl | bool _ hl | equalStrings _ hl => exact ⟨hl.symm, fun hd => by simp [hl] at hd⟩
    | order _ hn | equalNumbers _ hn =>
      rcases Registry.eq_of_isAssignable_bool hback with h | h <;> simp [h, Ty.isNumeric] at hn

theorem applyBinary_type {plan : BinaryPlan} (hp : ∀ id, plan ≠ .overload id) (op : BinaryOp)
    (l r : Value) (t t' : Ty) : reg.applyBinary op plan l r t = reg.applyBinary op plan l r t' := by
  cases plan with
  | overload id => exact absurd rfl (hp id)
  | _ => rfl

theorem str_of_concat {op : BinaryOp} {l r v : Value} {t : Ty} {w w' : World}
    (h : (reg.applyBinary op .concat l r t).run w = (.ok v, w')) : ∃ text, v = .str text := by
  obtain ⟨a, _, _, h⟩ := run_bind_ok.1 h
  obtain ⟨b, _, _, h⟩ := run_bind_ok.1 h
  cases h
  exact ⟨_, rfl⟩

theorem double_of_arithmetic {op : BinaryOp} {l r v : Value} {t : Ty} {w w' : World}
    (hop : op.kind = .arithmetic) (h : (reg.applyBinary op .double l r t).run w = (.ok v, w')) :
    ∃ x, v = .double x := by
  obtain ⟨h, -⟩ := Prod.mk.inj h
  unfold plainBinary at h
  cases hl : l.toDouble with
  | error _ =>
    rw [hl] at h
    cases h
  | ok a =>
    cases hr : r.toDouble with
    | error _ =>
      rw [hl, hr] at h
      cases h
    | ok b =>
      rw [hl, hr] at h
      cases op <;> simp only [BinaryOp.kind, reduceCtorEq] at hop <;> (cases h; exact ⟨_, rfl⟩)

/-- Without an overload there is nothing to promote. -/
theorem Typed.promote_result (h : u.Typed reg value typing) (hp : ∀ id, typing.plan ≠ .overload id)
    {l r v : Value} {t : Ty} {w w' : World}
    (hv : (reg.applyBinary u.op typing.plan l r t).run w = (.ok v, w')) : v.promote u.type = v := by
  by_cases hd : u.type = .double
  · rcases ((h.of_plain hp).2 hd).2 with hplan | ⟨hplan, hop⟩
    · rw [hplan] at hv
      obtain ⟨_, rfl⟩ := str_of_concat hv
      rfl
    · rw [hplan] at hv
      obtain ⟨_, rfl⟩ := double_of_arithmetic hop hv
      rfl
  · exact Value.promote_of_ne hd v

end Plain

/-! ### What the forms come to -/

section Steps

variable (reg : Registry) (typing : BinaryTyping) (e : Denoted)

/-- The short form once both operands have been evaluated. -/
def shortEnd (old v : Value) : Eval Value := do
  let result ← Eval.inWorld (reg.applyBinary u.op typing.plan old v u.type)
  Eval.write u.name u.type (result.promote u.type)
  return result.promote u.type

/-- The steps of the short form. -/
def shortSteps : Eval Value := do
  let old ← Eval.read u.name u.type
  let v ← (e.converted reg typing.right).value
  u.shortEnd reg typing old v

/-- The long form once both operands have been evaluated. -/
def longEnd (left v : Value) : Eval Value := do
  let result ← Eval.inWorld (reg.applyBinary u.op typing.plan left v typing.result)
  let result ← Eval.lift (result.passed typing.result u.type)
  Eval.write u.name u.type result
  return result

/-- The steps of the long form. -/
def longSteps : Eval Value := do
  let old ← Eval.read u.name u.type
  let left ← Eval.lift (old.passed u.type typing.left)
  let v ← (e.converted reg typing.right).value
  u.longEnd reg typing left v

theorem same_shortSteps (span : Span) :
    Eval.Same (u.shortForm reg typing e span).value (u.shortSteps reg typing e) :=
  .inside span _

theorem same_operation (span : Span) :
    Eval.Same (u.operation reg typing e span).value (do
      let old ← Eval.read u.name u.type
      let left ← Eval.lift (old.passed u.type typing.left)
      let v ← (e.converted reg typing.right).value
      Eval.inWorld (reg.applyBinary u.op typing.plan left v typing.result)) := by
  have hleft : Eval.Same ((u.operand reg u.again.span).converted reg typing.left).value (do
      let old ← Eval.read u.name u.type
      Eval.lift (old.passed u.type typing.left)) := by
    refine (Denoted.value_converted reg _ _).trans (.bind (.inside _ _) fun old => ?_)
    exact .refl _
  rw [← bind_assoc]
  refine .trans (.inside span _) (.bind hleft fun left => ?_)
  rw [if_neg fun h => u.eager h.1]
  exact .refl _

theorem same_longSteps (inner span : Span) :
    Eval.Same (u.longForm reg typing e inner span).value (u.longSteps reg typing e) := by
  have h : Eval.Same ((u.operation reg typing e inner).converted reg u.type).value (do
      let old ← Eval.read u.name u.type
      let left ← Eval.lift (old.passed u.type typing.left)
      let v ← (e.converted reg typing.right).value
      let result ← Eval.inWorld (reg.applyBinary u.op typing.plan left v typing.result)
      Eval.lift (result.passed typing.result u.type)) := by
    refine (Denoted.value_converted reg _ _).trans ?_
    refine .trans (.bind (u.same_operation reg typing e inner) fun result => .refl _) ?_
    simp only [bind_assoc]
    exact .refl _
  refine .trans (.inside span _) (.trans (.bind h fun result => .refl _) ?_)
  simp only [bind_assoc]
  exact .refl _

end Steps

/-! ### Where the forms differ -/

/-- What tells the forms apart. An overload is called, and the long form calls it for another type,
or with the variable as a double, or stores an integer that comes back and that the short form
promotes. -/
def Differs (reg : Registry) (typing : BinaryTyping) (e : Denoted) (st : EvalState) : Prop :=
  ∃ id old v st', typing.plan = .overload id ∧ (reg.callable? id).isSome = true ∧
    st.context.binding? u.name = some ⟨u.type, old⟩ ∧
    (e.converted reg typing.right).value.outcome st = (.ok v, st') ∧
    (typing.result ≠ u.type ∨ u.type = .int ∧ typing.left = .double ∨
      u.type = .double ∧ ∃ n, ((reg.call id [old, v] u.type).run st'.world).1 = .ok (.int n))

section Calls

variable {reg : Registry} {id : CallableId}

/-- A call is on record whatever comes of it. -/
theorem calls_call {callable : Callable} (h : reg.callable? id = some callable) (args : List Value)
    (t : Ty) (w : World) :
    ((reg.call id args t).run w).2.calls = w.calls.push ⟨id, args, t⟩ := by
  rw [Registry.run_call h]

theorem calls_bind {f : Value → Eval Value} (hf : ∀ v st, ((f v).outcome st).2.world = st.world)
    {callable : Callable} (h : reg.callable? id = some callable) (args : List Value) (t : Ty)
    (st : EvalState) :
    ((Eval.inWorld (reg.call id args t) >>= f).outcome st).2.world.calls =
      st.world.calls.push ⟨id, args, t⟩ := by
  rw [Eval.outcome_bind, Eval.outcome_inWorld, ← calls_call h args t st.world]
  rcases (reg.call id args t).run st.world with ⟨_ | v, w⟩
  · rfl
  · exact congrArg _ (hf v _)

variable {u} {typing : BinaryTyping} {old left v : Value} {st : EvalState}

theorem calls_shortEnd (hp : typing.plan = .overload id) {callable : Callable}
    (h : reg.callable? id = some callable) :
    ((u.shortEnd reg typing old v).outcome st).2.world.calls =
      st.world.calls.push ⟨id, [old, v], u.type⟩ := by
  unfold shortEnd
  rw [hp]
  refine calls_bind (fun r st => ?_) h _ _ _
  have hw := Eval.world_write u.name u.type (r.promote u.type) st
  rw [Eval.outcome_bind]
  rcases hx : (Eval.write u.name u.type (r.promote u.type)).outcome st with ⟨_ | _, st'⟩ <;>
    rw [hx] at hw <;> exact hw

theorem calls_longEnd (hp : typing.plan = .overload id) {callable : Callable}
    (h : reg.callable? id = some callable) :
    ((u.longEnd reg typing left v).outcome st).2.world.calls =
      st.world.calls.push ⟨id, [left, v], typing.result⟩ := by
  unfold longEnd
  rw [hp]
  refine calls_bind (fun r st => ?_) h _ _ _
  rw [Eval.outcome_bind, Eval.outcome_lift]
  rcases r.passed typing.result u.type with _ | r'
  · rfl
  · have hw := Eval.world_write u.name u.type r' st
    dsimp only
    rw [Eval.outcome_bind]
    rcases hx : (Eval.write u.name u.type r').outcome st with ⟨_ | _, st'⟩ <;>
      rw [hx] at hw <;> exact hw

/-- After the same operands the forms differ if another type was asked for, or if the variable was
converted, or if an integer comes back for a double. -/
theorem ends_eq_iff (hp : typing.plan = .overload id)
    (hd : st.context.declared? u.name = some u.type) :
    (u.shortEnd reg typing old v).outcome st = (u.longEnd reg typing left v).outcome st ↔
      ¬((reg.callable? id).isSome = true ∧ (typing.result ≠ u.type ∨ left ≠ old ∨
        u.type = .double ∧ ∃ n, ((reg.call id [old, v] u.type).run st.world).1 = .ok (.int n))) := by
  cases hc : reg.callable? id with
  | none =>
    have hcall (args : List Value) (t : Ty) : (reg.call id args t).run st.world =
        (.error (.host (CallableId.label id) "no such callable"), st.world) := by
      unfold Registry.call
      rw [hc]
      rfl
    have happly (l : Value) (t : Ty) : reg.applyBinary u.op typing.plan l v t =
        reg.call id [l, v] t := by rw [hp]; rfl
    unfold shortEnd longEnd
    rw [Eval.outcome_bind, Eval.outcome_bind, Eval.outcome_inWorld, Eval.outcome_inWorld, happly,
      happly, hcall, hcall]
    simp
  | some callable =>
    by_cases hsame : typing.result = u.type ∧ left = old
    · obtain ⟨hresult, rfl⟩ := hsame
      have hpass (r : Value) : r.passed u.type u.type = .ok r := by
        refine Value.passed_of ?_ r
        rintro ⟨hi, hd⟩
        rw [hi] at hd
        cases hd
      unfold shortEnd longEnd
      rw [hp, hresult]
      rw [Eval.outcome_bind, Eval.outcome_bind, Eval.outcome_inWorld]
      rcases hr : (reg.call id [left, v] u.type).run st.world with ⟨f | r, w⟩
      · simp [Registry.applyBinary, hr]
      · simp only [Registry.applyBinary, hr, hpass]
        have hlift : (Eval.lift (.ok r) : Eval Value) = pure r := rfl
        rw [hlift, pure_bind]
        constructor
        · rintro heq ⟨-, h | h | ⟨ht, n, hn⟩⟩
          · exact h rfl
          · exact h rfl
          · cases hn
            have hd' : (EvalState.mk st.context w).context.declared? u.name = some u.type := hd
            obtain ⟨_, hw⟩ := Eval.exists_write hd' (Value.promote u.type (.int n))
            obtain ⟨_, hw'⟩ := Eval.exists_write hd' (.int n)
            rw [Eval.outcome_bind, Eval.outcome_bind, hw, hw', ht] at heq
            cases (Prod.mk.inj heq).1
        · intro hn
          have hpromote : r.promote u.type = r := by
            cases r with
            | int n =>
              refine Value.promote_of_ne (fun ht => ?_) _
              exact hn ⟨rfl, .inr (.inr ⟨ht, n, rfl⟩)⟩
            | _ => rfl
          rw [hpromote]
    · constructor
      · intro heq
        have hcalls := calls_longEnd hp hc ▸ heq ▸ calls_shortEnd hp hc
        simp only [Array.push_inj_right, CallRecord.mk.injEq, List.cons.injEq] at hcalls
        exact absurd ⟨hcalls.2.2, hcalls.2.1.1⟩ hsame
      · intro hn
        by_cases hresult : typing.result = u.type
        · exact absurd ⟨rfl, .inr (.inl fun hl => hsame ⟨hresult, hl⟩)⟩ hn
        · exact absurd ⟨rfl, .inl hresult⟩ hn

end Calls

/-- An integer variable holds an integer. -/
def Sound (st : EvalState) : Prop :=
  ∀ v, st.context.binding? u.name = some ⟨.int, v⟩ → ∃ n, v = .int n

/-- What the long form passes of the variable. -/
theorem exists_passed {st : EvalState} (hx : u.Sound st) {old : Value}
    (hb : st.context.binding? u.name = some ⟨u.type, old⟩) (target : Ty) :
    ∃ left, old.passed u.type target = .ok left ∧ (left ≠ old ↔ u.type = .int ∧ target = .double) := by
  by_cases h : u.type = .int ∧ target = .double
  · rw [h.1] at hb
    obtain ⟨n, rfl⟩ := hx old hb
    refine ⟨.double (Double.ofInt n.toInt), ?_, by simp [h]⟩
    rw [Value.passed, if_pos h]
    rfl
  · exact ⟨old, Value.passed_of h old, by simp [h]⟩

/-- The value leaves the variable declared as it was. -/
theorem declared?_after {reg : Registry} {e : Expr} {target : Ty} {st st' : EvalState} {v old : Value}
    (hb : st.context.binding? u.name = some ⟨u.type, old⟩)
    (hv : ((e.denote reg).converted reg target).value.outcome st = (.ok v, st')) :
    st'.context.declared? u.name = some u.type := by
  have hmoves := Denoted.converted_moves sameTypes_stepwise reg
    (e.moves sameTypes_stepwise reg).1 target st u.name
  rw [Eval.outcome_ok.1 hv] at hmoves
  rw [hmoves, Context.declared?, hb]
  rfl

theorem overload_eq_iff {reg : Registry} {typing : BinaryTyping} {e : Expr} {st : EvalState}
    {id : CallableId} (hp : typing.plan = .overload id) (hx : u.Sound st) :
    (u.shortSteps reg typing (e.denote reg)).outcome st =
        (u.longSteps reg typing (e.denote reg)).outcome st ↔
      ¬u.Differs reg typing (e.denote reg) st := by
  unfold shortSteps longSteps
  rw [Eval.outcome_bind, Eval.outcome_bind, Eval.outcome_read]
  cases hread : st.context.read st.world.catalog u.name u.type with
  | error f =>
    refine iff_of_true rfl ?_
    rintro ⟨_, old, _, _, -, -, hb, -⟩
    rw [Context.read_ok.2 hb] at hread
    cases hread
  | ok old =>
    have hb := Context.read_ok.1 hread
    obtain ⟨left, hleft, hne⟩ := u.exists_passed hx hb typing.left
    have hlift : (Eval.lift (.ok left) : Eval Value) = pure left := rfl
    dsimp only
    rw [hleft, hlift, pure_bind, Eval.outcome_bind, Eval.outcome_bind]
    rcases hv : ((e.denote reg).converted reg typing.right).value.outcome st with ⟨f | v, st'⟩
    · refine iff_of_true rfl ?_
      rintro ⟨_, _, _, _, -, -, -, hv', -⟩
      rw [hv] at hv'
      cases hv'
    · dsimp only
      rw [ends_eq_iff hp (u.declared?_after hb hv), hne]
      refine not_congr ⟨fun ⟨hc, h⟩ => ⟨id, old, v, st', hp, hc, hb, hv, h⟩, ?_⟩
      rintro ⟨id', old', v', st'', hp', hc, hb', hv', h⟩
      cases hp.symm.trans hp'
      cases hb.symm.trans hb'
      cases hv.symm.trans hv'
      exact ⟨hc, h⟩

/-- Without an overload the forms come to the same. -/
theorem plain_eq {reg : Registry} {typing : BinaryTyping} {e : Denoted} {value : Ty}
    (h : u.Typed reg value typing) (hp : ∀ id, typing.plan ≠ .overload id) (st : EvalState) :
    (u.shortSteps reg typing e).outcome st = (u.longSteps reg typing e).outcome st := by
  obtain ⟨hleft, hd⟩ := h.of_plain hp
  have hold (old : Value) : old.passed u.type typing.left = .ok old := by
    refine Value.passed_of ?_ old
    rintro ⟨hi, hd⟩
    rw [hleft, hi] at hd
    cases hd
  have hresult (r : Value) : r.passed typing.result u.type = .ok r :=
    Value.passed_of (fun hi => (hd hi.2).1 hi.1) r
  have hlift (v : Value) : (Eval.lift (.ok v) : Eval Value) = pure v := rfl
  unfold shortSteps longSteps shortEnd longEnd
  simp only [hold, hresult, hlift, pure_bind]
  refine Eval.outcome_bind_congr fun old st _ => ?_
  refine Eval.outcome_bind_congr fun v st _ => ?_
  rw [applyBinary_type hp u.op old v u.type typing.result]
  refine Eval.outcome_bind_congr fun r st' hr => ?_
  rw [Eval.outcome_inWorld] at hr
  rcases hrun : (reg.applyBinary u.op typing.plan old v typing.result).run st.world with ⟨x, w⟩
  rw [hrun] at hr
  cases (Prod.mk.inj hr).1
  rw [h.promote_result hp hrun]

/-- **The forms come to the same just where nothing tells them apart.** -/
theorem steps_eq_iff {reg : Registry} {typing : BinaryTyping} {e : Expr} {st : EvalState}
    (h : u.Typed reg e.type typing) (hx : u.Sound st) :
    (u.shortSteps reg typing (e.denote reg)).outcome st =
        (u.longSteps reg typing (e.denote reg)).outcome st ↔
      ¬u.Differs reg typing (e.denote reg) st := by
  by_cases hp : ∃ id, typing.plan = .overload id
  · obtain ⟨id, hp⟩ := hp
    exact u.overload_eq_iff hp hx
  · rw [not_exists] at hp
    refine iff_of_true (u.plain_eq h hp st) ?_
    rintro ⟨id, -, -, -, hid, -⟩
    exact hp id hid

/-- **Assignment with an operation.** The short form is accepted just when the long form is, and
they come to the same just where nothing tells them apart. -/
theorem forms (s : Setting) (items : List Item) (p : ParseState) :
    ((∃ c q, (Parser.applyOperators s (u.short items)).run p = (.ok (some c), q)) ↔
      ∃ e p', (Parser.applyOperators s items).run p = (.ok (some e), p') ∧
        ∃ d q, (Parser.applyOperators s (u.long e)).run p' = (.ok (some d), q)) ∧
    ∀ c q e p' d q', (Parser.applyOperators s (u.short items)).run p = (.ok (some c), q) →
      (Parser.applyOperators s items).run p = (.ok (some e), p') →
      (Parser.applyOperators s (u.long e)).run p' = (.ok (some d), q') →
      ∃ typing, u.Typed s.registry e.type typing ∧ ∀ st, u.Sound st →
        ((c.denote s.registry).value.outcome st = (d.denote s.registry).value.outcome st ↔
          ¬u.Differs s.registry typing (e.denote s.registry) st) := by
  constructor
  · constructor
    · rintro ⟨c, q, hc⟩
      obtain ⟨e, p', typing, _, he, ht, -⟩ := short_ok hc
      exact ⟨e, p', he, exists_long ht p'⟩
    · rintro ⟨e, p', he, d, q, hd⟩
      obtain ⟨typing, _, _, ht, -⟩ := long_ok hd
      exact exists_short he ht
  · intro c q e p' d q' hc he hd
    obtain ⟨e', _, typing, _, he', ht, hshort⟩ := short_ok hc
    cases he.symm.trans he'
    obtain ⟨typing', _, _, ht', hlong⟩ := long_ok hd
    cases ht.rule.symm.trans ht'.rule
    refine ⟨typing, ht, fun st hx => ?_⟩
    rw [hshort, hlong, u.same_shortSteps, u.same_longSteps]
    exact u.steps_eq_iff ht hx

end Update

/-- The setting of `x += t`, where `x` is an integer and `t` an object of the type `T`. -/
def Setting.addable : Setting where
  registry := .addable
  scope := (NameMap.empty.insert "x" (.var .int)).insert "t" (.var (.named 2 []))
  options := .standard
  tokens := .ofTokens #[]

namespace Update

/-- `x += t`. -/
def addable : Update where
  name := "x"
  type := .int
  op := .add
  eager := by decide
  target := ⟨0, ⟨0, 1⟩, 1⟩
  assign := ⟨0, ⟨2, 4⟩, 1⟩
  again := ⟨0, ⟨4, 5⟩, 1⟩
  operator := ⟨0, ⟨6, 7⟩, 1⟩
  group := ⟨0, ⟨8, 11⟩, 1⟩

/-- The variable `t`. -/
def added : Expr := .node 1 ⟨5, 6⟩ (.named 2 []) (.var "t")

/-- `x` is 1 and `t` an object. -/
def addableState : EvalState where
  context := .of ((NameMap.empty.insert "x" ⟨.int, .int 1⟩).insert "t"
    ⟨.named 2 [], .object (.named 2 []) 0⟩)
  world := default

/-- The short form of `x = x + (t)` passes an integer where the long form passes a double. -/
theorem forms_addable : ∃ c q d q',
    (Parser.applyOperators .addable (addable.short [⟨.value added, ⟨5, 6⟩, 1⟩])).run
      (.start .initial) = (.ok (some c), q) ∧
    (Parser.applyOperators .addable (addable.long added)).run (.start .initial) = (.ok (some d), q') ∧
    (c.denote .addable).value.outcome addableState ≠
      (d.denote .addable).value.outcome addableState := by
  obtain ⟨c, q, hc⟩ : ∃ c q, (Parser.applyOperators .addable
    (addable.short [⟨.value added, ⟨5, 6⟩, 1⟩])).run (.start .initial) = (.ok (some c), q) :=
    ⟨_, _, rfl⟩
  obtain ⟨d, q', hd⟩ : ∃ d q', (Parser.applyOperators .addable (addable.long added)).run
    (.start .initial) = (.ok (some d), q') := ⟨_, _, rfl⟩
  obtain ⟨typing, ht, h⟩ := (addable.forms .addable [⟨.value added, ⟨5, 6⟩, 1⟩]
    (.start .initial)).2 c q added _ d q' hc rfl hd
  have hrule : Registry.addable.typeBinary .add .int (.named 2 []) =
    .ok ⟨.overload 0, .double, .named 2 [], .int⟩ := rfl
  cases ht.rule.symm.trans hrule
  have hx : addable.Sound addableState := by
    intro v hv
    cases hv
    exact ⟨1, rfl⟩
  refine ⟨c, q, d, q', hc, hd, fun heq => (h addableState hx).1 heq ?_⟩
  exact ⟨0, .int 1, .object (.named 2 []) 0, addableState, rfl, rfl, rfl, rfl, .inr (.inl ⟨rfl, rfl⟩)⟩

end Update

end TypedExpr
