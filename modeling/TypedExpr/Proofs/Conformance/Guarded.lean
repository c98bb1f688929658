import TypedExpr.Proofs.Conformance.Calls
import TypedExpr.Proofs.Form
import TypedExpr.Proofs.Hosts.Registry
import TypedExpr.Proofs.Typing.Plain
/-!
# Hosts that check themselves

A host may check what it gives back before it does so, and fail if that is not of the type it is
called for. For the evaluation of what delivers this makes no difference: where the host gives back
something wrong, the call fails at once, so the evaluation does.

* `Registry.guarded`: all callables check what they give back.
* `Registry.call_guarded`, `Registry.callFor_guarded`: calls that come to the same.
* `Expr.WellTyped.denote_guarded`: **a well-typed expression denotes the same.**
-/

namespace TypedExpr

/-- The function, failing if what it gives is not of the type expected. -/
def HostFunction.guarded (f : HostFunction) (reg : Registry) : HostFunction where
  journal := f.journal
  run call := do
    let v ← f.run call
    if call.result = .void then return v
    else
      let _ ← HostM.lift (reg.conform v call.result)
      return v

namespace Registry

/-- The registry, with callables that check what they give back. -/
def guarded (reg : Registry) : Registry :=
  { reg with callables := reg.callables.map fun c => { c with function := c.function.guarded reg } }

variable {reg : Registry} {id : CallableId} {t : Ty}

/-! ### Types are the same -/

theorem guarded_eq : reg.guarded = reg.withHosts fun _ f => f.guarded reg := by
  unfold guarded withHosts
  congr 1
  ext <;> simp

@[simp] theorem conforms_guarded (v : Value) (t : Ty) :
    reg.guarded.conforms v t = reg.conforms v t := by
  rw [guarded_eq, conforms_withHosts]

@[simp] theorem typeName_guarded (t : Ty) : reg.guarded.typeName t = reg.typeName t := by
  rw [guarded_eq, typeName_withHosts]

@[simp] theorem conform_guarded (v : Value) (t : Ty) :
    reg.guarded.conform v t = reg.conform v t := by
  simp only [conform, valueTypeName, conforms_guarded, typeName_guarded]

theorem callable?_guarded (id : CallableId) :
    reg.guarded.callable? id =
      (reg.callable? id).map fun c => { c with function := c.function.guarded reg } :=
  Array.getElem?_map

theorem textMethod?_guarded (t : Ty) : reg.guarded.textMethod? t = reg.textMethod? t := by
  unfold textMethod?
  rw [guarded_eq, resolveMethod_withHosts]

theorem mentionedByMethod_guarded (t : Ty) (name : String) (typeArgs args : List Ty)
    (isStatic : Bool) :
    reg.guarded.mentionedByMethod t name typeArgs args isStatic =
      reg.mentionedByMethod t name typeArgs args isStatic := by
  rw [guarded_eq, mentionedByMethod_withHosts]

/-! ### Calls -/

theorem run_guarded (f : HostFunction) (call : HostCall) (h : Heap) :
    ((f.guarded reg).run call).run h =
      match (f.run call).run h with
      | (.ok v, h) =>
        (if call.result = .void then .ok v else (reg.conform v call.result).map fun _ => v, h)
      | (.error e, h) => (.error e, h) := by
  show (f.run call >>= _ : HostM Value).run h = _
  rw [run_bind]
  rcases (f.run call).run h with ⟨e | v, h'⟩
  · rfl
  · -- the check comes after the call, and leaves the heap as it is
    dsimp only
    split
    · rfl
    · rw [run_bind]
      cases reg.conform v call.result <;> rfl

/-- A call is checked after it has been made. -/
theorem call_guarded (id : CallableId) (args : List Value) (t : Ty) :
    reg.guarded.call id args t = do
      let v ← reg.call id args t
      if t = .void then return v
      else
        let _ ← Run.lift (reg.conform v t)
        return v := by
  refine ExceptT.ext (funext fun w => ?_)
  refine .trans ?_ (run_bind _ _ w).symm
  cases hc : reg.callable? id with
  | none =>
    have hc' : reg.guarded.callable? id = none := by rw [callable?_guarded, hc]; rfl
    rw [run_call_of_none hc]
    exact run_call_of_none hc' args t w
  | some c =>
    have hc' : reg.guarded.callable? id = some { c with function := c.function.guarded reg } := by
      rw [callable?_guarded, hc]
      rfl
    refine (run_call hc' args t w).trans ?_
    rw [run_call hc, run_guarded]
    rcases (c.function.run ⟨args, t, w.catalog.typeLabel t⟩).run w.heap with ⟨e | v, heap⟩
    · rfl
    · dsimp only
      split
      · rfl
      · cases reg.conform v t <;> rfl

/-- The call is the same if what the host gives is of the type it is called for. -/
theorem call_guarded_of_gives (h : reg.Gives id t fun v => reg.Fits t (v.promote t))
    (args : List Value) : reg.guarded.call id args t = reg.call id args t := by
  rw [call_guarded]
  refine ExceptT.ext (funext fun w => ?_)
  refine (run_bind _ _ w).trans ?_
  cases hc : reg.callable? id with
  | none =>
    rw [run_call_of_none hc]
  | some c =>
    refine .trans ?_ (run_call hc args t w).symm
    rw [run_call hc]
    rcases hrun : (c.function.run ⟨args, t, w.catalog.typeLabel t⟩).run w.heap with ⟨e | v, heap⟩
    · rfl
    · have hfits : reg.Fits t (v.promote t) := h c hc args _ _ v (by rw [hrun])
      dsimp only
      split
      · rfl
      · rename_i ht
        have hconf : reg.conform v t = .ok (v.promote t) := by
          unfold conform
          dsimp only
          rw [if_pos (hfits ht)]
        rw [hconf]
        rfl

/-- A call whose result is checked is the same whatever the host gives. -/
theorem callFor_guarded (id : CallableId) (args : List Value) (t : Ty) :
    reg.guarded.callFor id args t = reg.callFor id args t := by
  unfold callFor
  rw [call_guarded, bind_assoc]
  refine bind_congr fun v => ?_
  split
  · rw [pure_bind]
  · simp only [bind_assoc, pure_bind, conform_guarded]
    cases reg.conform v t <;> rfl

/-! ### Operations -/

/-- Methods by which objects say what they are give texts. -/
def TextsDeliver (reg : Registry) : Prop :=
  ∀ t method, reg.textMethod? t = some method →
    reg.Gives method.callable method.ret fun v => reg.Fits method.ret (v.promote method.ret)

section Operations

variable (ht : reg.TextsDeliver)

include ht in
theorem toText_guarded (v : Value) : reg.guarded.toText v = reg.toText v := by
  cases v with
  | object t p =>
    unfold toText
    dsimp only
    rw [textMethod?_guarded, mentionedByMethod_guarded, typeName_guarded]
    cases hm : reg.textMethod? t with
    | none => rfl
    | some method => simp only [call_guarded_of_gives (ht t method hm)]
  | array t p => exact congrArg pure (typeName_guarded t)
  | _ => rfl

theorem applyUnary_guarded {op : UnaryOp} {typing : UnaryTyping}
    (hu : ∀ use ∈ typing.uses, use.Delivers reg) (v : Value) :
    reg.guarded.applyUnary op typing.plan v typing.result =
      reg.applyUnary op typing.plan v typing.result := by
  unfold UnaryTyping.uses at hu
  cases hp : typing.plan with
  | overload id =>
    rw [hp] at hu
    exact call_guarded_of_gives ((hu _ (.head _)).gives (by simp)) [v]
  | _ => rfl

include ht in
theorem applyBinary_guarded {op : BinaryOp} {typing : BinaryTyping} {reception : Reception}
    (hr : reception ≠ .checked) (hu : ∀ use ∈ typing.uses t reception, use.Delivers reg)
    (v w : Value) :
    reg.guarded.applyBinary op typing.plan v w t = reg.applyBinary op typing.plan v w t := by
  unfold BinaryTyping.uses at hu
  cases hp : typing.plan with
  | overload id =>
    rw [hp] at hu
    exact call_guarded_of_gives ((hu _ (.head _)).gives hr) [v, w]
  | concat =>
    unfold applyBinary
    simp only [toText_guarded ht]
  | _ => rfl

theorem applyCast_guarded {s : Ty} {plan : CastPlan}
    (hu : ∀ use ∈ plan.uses s t, use.Delivers reg) (v : Value) :
    reg.guarded.applyCast plan v t = reg.applyCast plan v t := by
  cases plan with
  | host id => exact call_guarded_of_gives ((hu _ (.head _)).gives (by simp)) [v]
  | checked target =>
    unfold applyCast castValue valueTypeName
    simp only [conforms_guarded, typeName_guarded]
  | _ => rfl

end Operations

/-- Nothing is expected of what stores. -/
theorem call_void_guarded (id : CallableId) (args : List Value) :
    reg.guarded.call id args .void = reg.call id args .void :=
  call_guarded_of_gives (fun _ _ _ _ _ _ _ h => absurd rfl h) args

theorem load_guarded (place : Place) : reg.guarded.load place = reg.load place := by
  cases place with
  | var name t => rfl
  | element c i get set t => exact congrArg Eval.inWorld (callFor_guarded _ _ _)
  | property r get set t => exact congrArg Eval.inWorld (callFor_guarded _ _ _)

theorem store_guarded (place : Place) (v : Value) :
    reg.guarded.store place v = reg.store place v := by
  cases place with
  | var name t => rfl
  | _ =>
    unfold store
    simp only [call_void_guarded]

end Registry

theorem Denoted.insertAll_guarded {reg : Registry} (insert : CallableId) (collection : Value)
    (es : List Denoted) :
    insertAll reg.guarded insert collection es = insertAll reg insert collection es := by
  induction es with
  | nil => rfl
  | cons e es ih => simp only [insertAll, Registry.call_void_guarded, ih]

namespace Expr

open TypedExpr.Registry

variable {reg : Registry} {scope : Scope}

theorem Rule.value_guarded {t : Ty} {form : Form Expr} {uses : List Use}
    (h : Rule reg scope t form uses) (hu : ∀ use ∈ uses, use.Delivers reg)
    (ht : reg.TextsDeliver) (d : Expr → Denoted) :
    (form.map d).value reg.guarded t = (form.map d).value reg t := by
  cases h with
  | unary => simp only [Form.map, Form.value, applyUnary_guarded hu]
  | binary => simp only [Form.map, Form.value, applyBinary_guarded ht (by simp) hu]
  | assign => simp only [Form.map, Form.value, store_guarded]
  | compound =>
    simp only [Form.map, Form.value, applyBinary_guarded ht (by simp) hu, load_guarded,
      store_guarded]
  | step => simp only [Form.map, Form.value, load_guarded, store_guarded]
  | cast => simp only [Form.map, Form.value, applyCast_guarded hu]
  | newItems => simp only [Form.map, Form.value, callFor_guarded, Denoted.insertAll_guarded]
  | index | property | staticProperty | method | staticMethod | function | new =>
    simp only [Form.map, Option.map, Form.value, callFor_guarded]
  | _ => rfl

/-- **A well-typed expression denotes the same** where the host checks what it gives back, if what
it uses delivers. -/
theorem WellTyped.denote_guarded {e : Expr} (h : WellTyped reg scope e)
    (hu : ∀ use, e.Uses reg scope use → use.Delivers reg) (ht : reg.TextsDeliver) :
    e.denote reg.guarded = e.denote reg := by
  induction h with
  | @node number span t form uses h _ ih =>
    have hparts : form.map (denote reg.guarded) = form.map (denote reg) :=
      Form.map_congr fun e he => ih e he fun use huse => hu use (.part he huse)
    have hvalue := h.value_guarded (fun use huse => hu use (.here h huse)) ht (denote reg)
    rw [denote_node, denote_node, hparts]
    unfold Denoted.ofForm
    rw [hvalue]

end Expr

end TypedExpr
