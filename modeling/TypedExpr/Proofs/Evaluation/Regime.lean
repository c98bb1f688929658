import TypedExpr.Eval
import TypedExpr.Proofs.Evaluation.Discipline
import TypedExpr.Proofs.Typing.Plain
import TypedExpr.Proofs.Typing.Uses
/-!
# Types that govern evaluation

What it is to have a type may depend on what is known of a state. A regime says so, and what is kept
of the world and of the variables. Types govern evaluation if calls of the host, the variables and
the reading of values keep to the regime; then so do all operations of the language, as they were
typed.

* `Regime`: what is kept, and what it is to have a type.
* `Regime.Governs`: what is asked of values, of the variables and of the host.
* `Regime.Governs.unary`, `Regime.Governs.binary`, `Regime.Governs.compound`, `Regime.Governs.cast`:
  **an operation as it was typed gives a value of the type of its result.**
-/

namespace TypedExpr

/-- What is kept of the world and of the variables while an expression is evaluated, how that may
fail, what it is for a value to have a type, and which callables are used. -/
structure Regime (W : Type) where
  world : Discipline W World Fault
  binds : W → Context → Prop
  has : W → Ty → Value → Prop
  uses : Use → Prop

namespace Regime

variable {W : Type} (R : Regime W)

/-- The discipline of evaluation. -/
def eval : Discipline W EvalState EvalError where
  holds w st := R.world.holds w st.world ∧ R.binds w st.context
  allows e := R.world.allows e.fault

/-- A value that is passed for a parameter of a type. -/
def Takes (w : W) (t : Ty) (v : Value) : Prop := t ≠ .void ∧ R.has w t v

/-- A callable that a use resolves to, and that is used so. -/
structure Calls (reg : Registry) (id : CallableId) (params : List Ty) (t : Ty) : Prop where
  resolves : reg.Resolves id params t
  used : R.uses ⟨⟨id, params, t⟩, .checked⟩

/-- What is asked of values, of the variables and of the host for types to govern evaluation. -/
structure Governs [Preorder W] (R : Regime W) (reg : Registry) (scope : Scope) : Prop where
  expected {e : Fault} (h : e.Expected) : R.world.allows e
  mono {w w' : W} {t : Ty} {v : Value} (h : R.has w t v) (hw : w ≤ w') : R.has w' t v
  plain (w : W) {t : Ty} {v : Value} (h : v.Plain t) : R.has w t v
  default (w : W) (t : Ty) : R.has w t (.default t)
  assignable {w : W} {s t : Ty} {v : Value} (h : R.has w s v) (ha : reg.isAssignable s t = true)
    (hd : ¬ (s = .int ∧ t = .double)) : R.has w t v
  checked {w : W} {s t : Ty} {v : Value} (h : R.has w s v)
    (hc : reg.conforms (v.promote t) t = true) : R.has w t (v.promote t)
  reads {w : W} {t : Ty} {v : Value} (h : R.has w t v) : v.Reads R.world.allows t
  step {w : W} {op : StepOp} {t : Ty} {plan : UnaryPlan} {v : Value} (h : stepPlan? t = some plan)
    (hv : R.has w t v) : Yields R.world.allows (R.has w t) (stepValue op v)
  binds_mono {w w' : W} {context : Context} (h : R.binds w context) (hw : w ≤ w') :
    R.binds w' context
  read {w : W} {name : String} {t : Ty} {context : Context} (h : scope.get? name = some (.var t))
    (hc : R.binds w context) (c : Catalog) :
    Yields R.world.allows (R.has w t) (context.read c name t)
  write {w : W} {name : String} {t : Ty} {v : Value} {context : Context}
    (h : scope.get? name = some (.var t)) (hc : R.binds w context) (hv : R.Takes w t v)
    (c : Catalog) : Yields R.world.allows (R.binds w) (context.write c name t v)
  newArray {w : W} {elem : Ty} {elems : Array Value} (h : ∀ v ∈ elems, R.has w elem v) :
    R.world.Keeps w (Run.newArray (.array elem) elems) fun w' v => R.has w' (.array elem) v
  text {w : W} {t : Ty} {v : Value} (h : R.has w t v) :
    R.world.Keeps w (reg.toText v) fun _ _ => True
  call {w : W} {id : CallableId} {params : List Ty} {args : List Value}
    (h : R.Calls reg id params .void) (ha : List.Forall₂ (R.Takes w) params args) :
    R.world.Keeps w (reg.call id args .void) fun _ _ => True
  callFor {w : W} {id : CallableId} {params : List Ty} {t : Ty} {args : List Value}
    (h : R.Calls reg id params t) (ha : List.Forall₂ (R.Takes w) params args) :
    R.world.Keeps w (reg.callFor id args t) fun w' v => R.has w' t v
  callUnary {w : W} {op : UnaryOp} {t p ret : Ty} {id : CallableId} {v : Value}
    (h : reg.resolveUnaryOperator op t = .ok (some ⟨id, [p], ret⟩))
    (hu : R.uses ⟨⟨id, [p], ret⟩, .trusted⟩) (hv : R.Takes w p v) :
    R.world.Keeps w (reg.call id [v] ret) fun w' r => R.has w' ret r
  callBinary {w : W} {op : BinaryOp} {l r p q ret : Ty} {id : CallableId} {v u : Value}
    (h : reg.resolveBinaryOperator op l r = .ok (some ⟨id, [p, q], ret⟩))
    (hu : R.uses ⟨⟨id, [p, q], ret⟩, .trusted⟩) (hv : R.Takes w p v) (hv' : R.Takes w q u) :
    R.world.Keeps w (reg.call id [v, u] ret) fun w' r => R.has w' ret r
  callCompound {w : W} {op : BinaryOp} {target source p q ret : Ty} {id : CallableId} {v u : Value}
    (h : reg.resolveBinaryOperator op target source = .ok (some ⟨id, [p, q], ret⟩))
    (hu : R.uses ⟨⟨id, [p, q], target⟩, .stored⟩) (ha : reg.isAssignable ret target = true)
    (hp : reg.isAssignable target p = true) (hv : R.Takes w target v) (hv' : R.Takes w q u) :
    R.world.Keeps w (reg.call id [v, u] target) fun w' r => R.has w' target (r.promote target)
  callCast {w : W} {s t : Ty} {id : CallableId} {v : Value} (h : reg.cast? s t = some id)
    (hu : R.uses ⟨⟨id, [s], t⟩, .trusted⟩) (hv : R.Takes w s v) :
    R.world.Keeps w (reg.call id [v] t) fun w' r => R.has w' t r

end Regime

namespace Regime

variable {W : Type} [Preorder W] {R : Regime W} {reg : Registry} {scope : Scope} {w w' : W}

section Steps

variable {α : Type} {Q : W → α → Prop}

theorem keeps_lift {x : Except Fault α} (h : Yields R.world.allows (Q w) x) :
    R.eval.Keeps w (Eval.lift x) Q := by
  cases h with
  | ok h => exact .pure h
  | error h => exact .throw h

theorem keeps_run {x : Except Fault α} (h : Yields R.world.allows (Q w) x) :
    R.world.Keeps w (Run.lift x) Q := by
  cases h with
  | ok h => exact .pure h
  | error h => exact .throw h

theorem keeps_inside {x : Eval α} (span : Span) (h : R.eval.Keeps w x Q) :
    R.eval.Keeps w (Eval.inside span x) Q := by
  intro st hst
  obtain ⟨w', hw, hst', hq⟩ := h st hst
  refine ⟨w', hw, hst', ?_⟩
  rw [Eval.run_inside]
  cases hx : (x.run st).1 with
  | ok a =>
    rw [hx] at hq
    exact hq
  | error e =>
    rw [hx] at hq
    exact hq

variable (hR : R.Governs reg scope)

include hR

theorem keeps_inWorld {x : Run α} (h : R.world.Keeps w x Q) :
    R.eval.Keeps w (Eval.inWorld x) Q := by
  rintro st ⟨hst, hc⟩
  obtain ⟨w', hw, hst', hq⟩ := h st.world hst
  refine ⟨w', hw, ⟨hst', hR.binds_mono hc hw⟩, ?_⟩
  rw [Eval.run_inWorld]
  cases hx : (x.run st.world).1 with
  | ok a =>
    rw [hx] at hq
    exact hq
  | error e =>
    rw [hx] at hq
    exact hq

theorem keeps_read {name : String} {t : Ty} (h : scope.get? name = some (.var t)) :
    R.eval.Keeps w (Eval.read name t) fun w' v => R.has w' t v := by
  rintro st ⟨hst, hc⟩
  refine ⟨w, le_rfl, ⟨hst, hc⟩, ?_⟩
  have hrun : ((Eval.read name t).run st).1 =
      (st.context.read st.world.catalog name t).mapError Fault.unplaced := rfl
  rw [hrun]
  have hread := hR.read h hc st.world.catalog
  rcases hres : st.context.read st.world.catalog name t with fault | v
  · rw [hres] at hread
    cases hread with
    | error he => exact he
  · rw [hres] at hread
    cases hread with
    | ok hv => exact hv

theorem keeps_write {name : String} {t : Ty} {v : Value} (h : scope.get? name = some (.var t))
    (hv : R.Takes w t v) : R.eval.Keeps w (Eval.write name t v) fun _ _ => True := by
  rintro st ⟨hst, hc⟩
  have hwrite := hR.write h hc hv st.world.catalog
  cases hres : st.context.write st.world.catalog name t v with
  | error fault =>
    rw [hres] at hwrite
    rw [Eval.run_write_error hres]
    cases hwrite with
    | error he => exact ⟨w, le_rfl, ⟨hst, hc⟩, he⟩
  | ok context =>
    rw [hres] at hwrite
    rw [Eval.run_write_ok hres]
    cases hwrite with
    | ok hc' => exact ⟨w, le_rfl, ⟨hst, hc'⟩, trivial⟩

end Steps

namespace Governs

variable (hR : R.Governs reg scope)

include hR

/-! ### Conversions -/

/-- **A value of the type written is one of the type asked for.** -/
theorem passes {source t actual : Ty} {v : Value} (h : R.has w actual v)
    (hp : reg.Passes source t actual) : R.has w t v := by
  obtain ⟨ha, rfl⟩ := hp
  split at h
  · rename_i hd
    rw [hd.2]
    exact h
  · exact hR.assignable h ha ‹_›

theorem takes {source t actual : Ty} {v : Value} (h : R.has w actual v)
    (hp : reg.Passes source t actual) : R.Takes w t v :=
  ⟨(Registry.ne_void_of_isAssignable hp.assignable).2, hR.passes h hp⟩

theorem takes_mono {t : Ty} {v : Value} (h : R.Takes w t v) (hw : w ≤ w') : R.Takes w' t v :=
  ⟨h.1, hR.mono h.2 hw⟩

/-- A plain value becomes one of the type that its type converts to. -/
theorem promote_plain {s t : Ty} {v : Value} (h : v.Plain s) (ha : reg.isAssignable s t = true) :
    R.has w t (v.promote t) := by
  by_cases hd : s = .int ∧ t = .double
  · obtain ⟨rfl, rfl⟩ := hd
    cases h with
    | int n => exact hR.plain w (.double _)
  · have hsame : v.promote t = v := by
      cases h with
      | int n => exact Value.promote_of_ne (fun ht => hd ⟨rfl, ht⟩) _
      | _ => rfl
    rw [hsame]
    exact hR.assignable (hR.plain w h) ha hd

theorem toBool {v : Value} (h : R.has w .bool v) :
    R.eval.Keeps w (Eval.lift v.toBool) fun _ _ => True :=
  keeps_lift ((hR.reads h).bool rfl)

theorem arrayLength {count : Option Value} (h : ∀ v ∈ count, R.has w .int v) (items : Nat) :
    R.eval.Keeps w (Eval.lift (Eval.arrayLength count items)) fun _ _ => True := by
  refine keeps_lift ?_
  cases count with
  | none => exact .ok trivial
  | some v =>
    refine ((hR.reads (h v rfl)).int rfl).bind fun n _ => ?_
    split
    · exact .error (hR.expected trivial)
    · split
      · exact .error (hR.expected trivial)
      · exact .ok trivial

theorem notNull {t : Ty} {x : Eval Value} (span : Span) (use : String) (ht : t ≠ .void)
    (h : R.eval.Keeps w x fun w' v => R.has w' t v) :
    R.eval.Keeps w (Eval.notNull span use x) fun w' v => R.Takes w' t v := by
  refine h.bind fun w' v _ hv => ?_
  split
  · exact .throw (hR.expected trivial)
  · exact .pure ⟨ht, hv⟩

/-! ### Operators -/

theorem unary {op : UnaryOp} {operand : Ty} {typing : UnaryTyping} {v : Value}
    (h : reg.typeUnary op operand = .ok typing) (hu : ∀ use ∈ typing.uses, R.uses use)
    (hv : R.has w typing.operand v) :
    R.world.Keeps w (reg.applyUnary op typing.plan v typing.result) fun w' r =>
      R.has w' typing.result r := by
  rcases Registry.typeUnary_ok h with ⟨plan, hplan, rfl⟩ | ⟨id, hid, ha, hcall⟩
  · rw [Registry.applyUnary_plain hplan]
    have hplain := yields_plainUnary (fun _ h => hR.expected h) hplan (hR.reads hv)
    exact keeps_run (hplain.mono fun _ h => hR.plain w h)
  · rw [UnaryTyping.uses, hid] at hu
    rw [hid]
    exact hR.callUnary hcall (hu _ (.head _)) ⟨(Registry.ne_void_of_isAssignable ha).2, hv⟩

theorem concat (op : BinaryOp) {s t u : Ty} {v v' : Value} (hv : R.has w s v)
    (hv' : R.has w t v') :
    R.world.Keeps w (reg.applyBinary op .concat v v' u) fun _ r => r.Plain .string := by
  refine (hR.text hv).bind fun w₁ a hw _ => ?_
  refine (hR.text (hR.mono hv' hw)).bind fun w₂ b _ _ => ?_
  exact .pure (.str _)

/-- An operator by a plan that is no overload. -/
theorem plainBinary {op : BinaryOp} {left right : Ty} {typing : BinaryTyping} {v u : Value}
    (h : reg.typeBinary op left right = .ok typing) (hp : ∀ id, typing.plan ≠ .overload id)
    (hv : R.has w typing.left v) (hu : R.has w typing.right u) (t : Ty) :
    R.world.Keeps w (reg.applyBinary op typing.plan v u t) fun _ r => r.Plain typing.result := by
  obtain ⟨-, -, hop⟩ := Registry.typeBinary_ok h
  cases hop with
  | builtin hb =>
    by_cases hc : typing.plan = .concat
    · rw [hc, hb.result_concat hc]
      exact hR.concat op hv hu
    · rw [Registry.applyBinary_plain hc hp]
      exact keeps_run (hb.yields (fun _ h => hR.expected h) hc (hR.reads hv) (hR.reads hu))
  | overload => exact absurd rfl (hp _)
  | concat => exact hR.concat op hv hu
  | reference hop =>
    exact keeps_run ((yields_equalityBinary _ _ hop).allow fun _ h => hR.expected h)

theorem binary {op : BinaryOp} {left right : Ty} {typing : BinaryTyping} {v u : Value}
    (h : reg.typeBinary op left right = .ok typing)
    (hu : ∀ use ∈ typing.uses typing.result .trusted, R.uses use) (hv : R.has w typing.left v)
    (hv' : R.has w typing.right u) :
    R.world.Keeps w (reg.applyBinary op typing.plan v u typing.result) fun w' r =>
      R.has w' typing.result r := by
  by_cases hp : ∃ id, typing.plan = .overload id
  · obtain ⟨id, hid⟩ := hp
    obtain ⟨hl, hr⟩ := Registry.typeBinary_assignable h
    rw [BinaryTyping.uses, hid] at hu
    rw [hid]
    exact hR.callBinary (Registry.typeBinary_overload h hid) (hu _ (.head _))
      ⟨(Registry.ne_void_of_isAssignable hl).2, hv⟩ ⟨(Registry.ne_void_of_isAssignable hr).2, hv'⟩
  · have hplain := hR.plainBinary h (fun id hid => hp ⟨id, hid⟩) hv hv' typing.result
    exact hplain.mono fun _ _ _ h => hR.plain _ h

/-- The operation of an assignment. The target is not converted before. -/
theorem compound {op : BinaryOp} {target source : Ty} {typing : BinaryTyping} {v u : Value}
    (h : reg.typeCompound op target source = .ok typing)
    (hu : ∀ use ∈ typing.uses target .stored, R.uses use) (hv : R.Takes w target v)
    (hv' : R.has w typing.right u) :
    R.world.Keeps w (reg.applyBinary op typing.plan v u target) fun w' r =>
      R.has w' target (r.promote target) := by
  obtain ⟨htype, ha⟩ := Registry.typeCompound_typing h
  obtain ⟨hl, hr⟩ := Registry.typeBinary_assignable htype
  by_cases hp : ∃ id, typing.plan = .overload id
  · obtain ⟨id, hid⟩ := hp
    rw [BinaryTyping.uses, hid] at hu
    rw [hid]
    exact hR.callCompound (Registry.typeBinary_overload htype hid) (hu _ (.head _)) ha hl hv
      ⟨(Registry.ne_void_of_isAssignable hr).2, hv'⟩
  · have hp : ∀ id, typing.plan ≠ .overload id := fun id hid => hp ⟨id, hid⟩
    have hleft : R.has w typing.left v := by
      refine hR.assignable hv.2 hl ?_
      rintro ⟨rfl, hd⟩
      exact Registry.ne_double_of_assignable htype ha hp hd
    exact (hR.plainBinary htype hp hleft hv' target).mono fun _ _ _ h => hR.promote_plain h ha

theorem cast {s t : Ty} {plan : CastPlan} {v : Value} (h : reg.explicitCast? s t = some plan)
    (hu : ∀ use ∈ plan.uses s t, R.uses use) (hv : R.Takes w s v) :
    R.world.Keeps w (reg.applyCast plan v t) fun w' r => R.has w' t r := by
  cases Registry.explicitCast?_ok h with
  | intToDouble hs ht =>
    subst hs ht
    exact keeps_run (((hR.reads hv.2).double (.inl rfl)).map fun x _ => hR.plain w (.double x))
  | identity ha hd => exact keeps_run (.ok (hR.assignable hv.2 ha hd))
  | doubleToInt hs ht =>
    subst hs ht
    refine keeps_run (((hR.reads hv.2).double (.inr rfl)).bind fun x _ => ?_)
    refine ((yields_toInteger x).allow fun _ h => hR.expected h).bind fun n _ => ?_
    exact .ok (hR.plain w (.int n))
  | host hcast => exact hR.callCast hcast (hu _ (.head _)) hv
  | checked ht =>
    refine keeps_run ?_
    unfold Registry.castValue
    dsimp only
    split
    · exact .ok (hR.checked hv.2 ‹_›)
    · exact .error (hR.expected trivial)

end Governs

end Regime

end TypedExpr
