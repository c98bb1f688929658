import TypedExpr.Proofs.Evaluation.Regime
/-!
# Well-typed expressions evaluate to values of their types

Where types govern evaluation, so does the type of every well-typed expression. The proof goes over
the nodes from the leaves up. An expression that can be stored to gives a place of its type besides,
and what is known of the place stays true from then on.

* `Regime.Reaches`: a place at which values of its type can be read and stored.
* `Expr.WellTyped.evaluates`: **a well-typed expression evaluates to a value of its type.**
-/

namespace TypedExpr

/-- The place is one at which values of its type can be read and stored. -/
inductive Regime.Reaches {W : Type} (R : Regime W) (reg : Registry) (scope : Scope) (w : W) :
    Place → Prop
  | var {name : String} {t : Ty} (h : scope.get? name = some (.var t)) :
    Reaches R reg scope w (.var name t)
  | element {container index : Value} {get set : CallableId} {c i t : Ty}
    (hc : R.Takes w c container) (hi : R.Takes w i index) (hget : R.Calls reg get [c, i] t)
    (hset : R.Calls reg set [c, i, t] .void) :
    Reaches R reg scope w (.element container index get set t)
  | property {receiver : Option Value} {get set : CallableId} {params : List Ty} {t : Ty}
    (hv : List.Forall₂ (R.Takes w) params receiver.toList) (hget : R.Calls reg get params t)
    (hset : R.Calls reg set (params ++ [t]) .void) :
    Reaches R reg scope w (.property receiver get set t)

/-- The expression evaluates to a value of its type, and to a place of its type if it can be stored
to. -/
structure Expr.Evaluates {W : Type} [Preorder W] (R : Regime W) (reg : Registry) (scope : Scope)
    (e : Expr) : Prop where
  value (w : W) : R.eval.Keeps w (e.denote reg).value fun w' v => R.has w' e.type v
  place (h : e.isSettable = true) (w : W) :
    R.eval.Keeps w (e.denote reg).place fun w' p => p.type = e.type ∧ R.Reaches reg scope w' p

namespace Regime

variable {W : Type} [Preorder W] {R : Regime W} {reg : Registry} {scope : Scope} {w w' : W}

/-- A value that is not always given. -/
theorem keeps_value? {count : Option Expr} (h : ∀ e ∈ count, e.Evaluates R reg scope) (w : W) :
    R.eval.Keeps w (Denoted.value? (count.map (Expr.denote reg))) fun w' c =>
      Option.Rel (fun (e : Expr) v => R.has w' e.type v) count c := by
  cases count with
  | none => exact .pure .none
  | some e => exact ((h e rfl).value w).bind fun w₁ v _ hv => .pure (.some hv)

namespace Governs

variable (hR : R.Governs reg scope)

include hR

/-! ### Places -/

theorem reaches_mono {place : Place} (h : R.Reaches reg scope w place) (hw : w ≤ w') :
    R.Reaches reg scope w' place := by
  cases h with
  | var h => exact .var h
  | element hc hi hget hset =>
    exact .element (hR.takes_mono hc hw) (hR.takes_mono hi hw) hget hset
  | property hv hget hset =>
    exact .property (hv.imp fun _ _ h => hR.takes_mono h hw) hget hset

/-- A call that is accounted for gives a value of the type asked for. -/
theorem gives {id : CallableId} {params : List Ty} {t : Ty} {vs : List Value}
    (h : R.Calls reg id params t) (ha : List.Forall₂ (R.Takes w) params vs) :
    R.eval.Keeps w (Eval.inWorld (reg.callFor id vs t)) fun w' v => R.has w' t v :=
  keeps_inWorld hR (hR.callFor h ha)

theorem load {place : Place} (hp : R.Reaches reg scope w place) :
    R.eval.Keeps w (reg.load place) fun w' v => R.has w' place.type v := by
  cases hp with
  | var h => exact keeps_read hR h
  | element hc hi hget _ =>
    exact hR.gives hget (.cons hc (.cons hi .nil))
  | property hv hget _ => exact hR.gives hget hv

theorem store {place : Place} {v : Value} (hp : R.Reaches reg scope w place)
    (hv : R.Takes w place.type v) : R.eval.Keeps w (reg.store place v) fun _ _ => True := by
  cases hp with
  | var h => exact keeps_write hR h hv
  | element hc hi _ hset =>
    have hargs : List.Forall₂ (R.Takes w) _ _ := .cons hc (.cons hi (.cons hv .nil))
    refine (keeps_inWorld hR (hR.call hset hargs)).bind fun _ _ _ _ => ?_
    exact .pure trivial
  | property hvs _ hset =>
    have hargs := List.rel_append hvs (.cons hv .nil)
    refine (keeps_inWorld hR (hR.call hset hargs)).bind fun _ _ _ _ => ?_
    exact .pure trivial

/-! ### Several expressions -/

theorem values {es : List Expr} (h : ∀ e ∈ es, e.Evaluates R reg scope) (w : W) :
    R.eval.Keeps w (Denoted.values (es.map (Expr.denote reg))) fun w' vs =>
      List.Forall₂ (fun (e : Expr) v => R.has w' e.type v) es vs := by
  induction es generalizing w with
  | nil => exact .pure .nil
  | cons e es ih =>
    refine ((h e (.head _)).value w).bind fun w₁ v _ hv => ?_
    refine (ih (fun e he => h e (.tail _ he)) w₁).bind fun w₂ vs hw hvs => ?_
    exact .pure (.cons (hR.mono hv hw) hvs)

/-- Items are inserted into a collection. -/
theorem insertAll {insert : CallableId} {t elem : Ty} {collection : Value}
    (hi : R.Calls reg insert [t, elem] .void) {es : List Expr}
    (h : ∀ e ∈ es, e.Evaluates R reg scope) {sources : List Ty}
    (hs : List.Forall₂ (fun source e => reg.Passes source elem e.type) sources es)
    (hc : R.Takes w t collection) :
    R.eval.Keeps w (Denoted.insertAll reg insert collection (es.map (Expr.denote reg)))
      fun _ _ => True := by
  induction hs generalizing w with
  | nil => exact .pure trivial
  | @cons source e _ es hp _ ih =>
    refine ((h e (.head _)).value w).bind fun w₁ v hw₁ hv => ?_
    have hargs : List.Forall₂ (R.Takes w₁) [t, elem] [collection, v] :=
      .cons (hR.takes_mono hc hw₁) (.cons (hR.takes hv hp) .nil)
    refine (keeps_inWorld hR (hR.call hi hargs)).bind fun w₂ _ hw₂ _ => ?_
    exact ih (fun e he => h e (.tail _ he)) (hR.takes_mono hc (hw₁.trans hw₂))

/-- The values of arguments, as they are passed for parameters. -/
theorem takes_all {params sources : List Ty} {args : List Expr} {vs : List Value}
    (ha : List.Forall₂ (fun s p => reg.isAssignable s p = true) sources params)
    (hp : reg.PassesAll sources params args)
    (hv : List.Forall₂ (fun (e : Expr) v => R.has w e.type v) args vs) :
    List.Forall₂ (R.Takes w) params vs := by
  unfold Registry.PassesAll at hp
  induction ha generalizing args vs with
  | nil =>
    cases hp
    cases hv
    exact .nil
  | cons _ _ ih =>
    cases hp with
    | cons hp hps =>
      cases hv with
      | cons hv hvs => exact .cons (hR.takes hv hp) (ih hps hvs)

/-- Arguments are evaluated to what their parameters take. -/
theorem arguments {params sources : List Ty} {args : List Expr}
    (h : ∀ e ∈ args, e.Evaluates R reg scope)
    (ha : List.Forall₂ (fun s p => reg.isAssignable s p = true) sources params)
    (hp : reg.PassesAll sources params args) (w : W) :
    R.eval.Keeps w (Denoted.values (args.map (Expr.denote reg))) fun w' vs =>
      List.Forall₂ (R.Takes w') params vs :=
  (hR.values h w).mono fun _ _ _ hvs => hR.takes_all ha hp hvs

/-- The values of items that are passed for elements of a type. -/
theorem has_of_items {elem : Ty} {sources : List Ty} {items : List Expr} {vs : List Value}
    (hp : List.Forall₂ (fun source e => reg.Passes source elem e.type) sources items)
    (hv : List.Forall₂ (fun (e : Expr) v => R.has w e.type v) items vs) :
    ∀ v ∈ vs, R.has w elem v := by
  induction hv generalizing sources with
  | nil => simp
  | cons hv _ ih =>
    cases hp with
    | cons hp hps =>
      rintro v hmem
      rcases List.mem_cons.1 hmem with rfl | hmem
      · exact hR.passes hv hp
      · exact ih hps v hmem

end Governs

end Regime

/-! ### Nodes -/

namespace Registry

/-- The plan for truth values is that of two of them. -/
theorem typeBinary_bool {reg : Registry} {op : BinaryOp} {left right : Ty} {typing : BinaryTyping}
    (h : reg.typeBinary op left right = .ok typing) (hp : typing.plan = .bool) :
    typing = .uniform .bool .bool := by
  obtain ⟨-, -, hop⟩ := typeBinary_ok h
  cases hop with
  | builtin hb =>
    cases hb with
    | bool => rfl
    | arithmetic | equalNumbers =>
      dsimp only [BinaryTyping.uniform, numericPlan] at hp
      split at hp <;> cases hp
    | _ => cases hp
  | _ => cases hp

end Registry

namespace Expr

variable {W : Type} [Preorder W] {R : Regime W} {reg : Registry} {scope : Scope}
  (hR : R.Governs reg scope)

include hR

theorem Rule.keeps_value {t : Ty} {form : Form Expr} {uses : List Use}
    (h : Rule reg scope t form uses) (hu : ∀ use ∈ uses, R.uses use)
    (hp : ∀ e ∈ form.parts, e.Evaluates R reg scope) (w : W) :
    R.eval.Keeps w ((form.map (denote reg)).value reg t) fun w' v => R.has w' t v := by
  cases h with
  | int n => exact .pure (hR.plain w (.int n))
  | double x => exact .pure (hR.plain w (.double x))
  | bool b => exact .pure (hR.plain w (.bool b))
  | str s => exact .pure (hR.plain w (.str s))
  | var h => exact Regime.keeps_read hR h
  | @unary op source typing e h he =>
    refine ((hp e (.head _)).value w).bind fun w' v _ hv => ?_
    exact Regime.keeps_inWorld hR (hR.unary h hu (hR.passes hv he))
  | @binary op left right typing a b h ha hb =>
    refine ((hp a (.head _)).value w).bind fun w₁ v _ hv => ?_
    have hv := hR.passes hv ha
    refine .ite (fun hc => ?_) (fun _ => ?_)
    · have htyping := Registry.typeBinary_bool h hc.2
      rw [htyping] at hv hb ⊢
      refine (hR.toBool hv).bind fun w₂ decided _ _ => ?_
      refine .ite (fun _ => .pure (hR.plain _ (.bool _))) (fun _ => ?_)
      refine ((hp b (.tail _ (.head _))).value w₂).bind fun w₃ u _ hu' => ?_
      refine (hR.toBool (hR.passes hu' hb)).bind fun w₄ _ _ _ => ?_
      exact .pure (hR.plain _ (.bool _))
    · refine ((hp b (.tail _ (.head _))).value w₁).bind fun w₂ u hw hu' => ?_
      exact Regime.keeps_inWorld hR (hR.binary h hu (hR.mono hv hw) (hR.passes hu' hb))
  | @ternary condition yes no t c y n ht hc hy hn =>
    refine ((hp c (.head _)).value w).bind fun w₁ v _ hv => ?_
    refine (hR.toBool (hR.passes hv hc)).bind fun w₂ b _ _ => ?_
    refine .ite (fun _ => ?_) (fun _ => ?_)
    · exact ((hp y (.tail _ (.head _))).value w₂).mono fun _ _ _ hv => hR.passes hv hy
    · exact ((hp n (.tail _ (.tail _ (.head _)))).value w₂).mono fun _ _ _ hv => hR.passes hv hn
  | @assign source target value ht hv =>
    obtain ⟨-, hset⟩ := isModifiable_iff.1 ht
    refine ((hp target (.head _)).place hset w).bind fun w₁ place _ hplace => ?_
    obtain ⟨htype, hreach⟩ := hplace
    refine ((hp value (.tail _ (.head _))).value w₁).bind fun w₂ v hw₂ hv' => ?_
    have htakes := hR.takes hv' hv
    -- the place was found before the value was evaluated, and is still there
    have hreach := hR.reaches_mono hreach hw₂
    refine (hR.store hreach (htype ▸ htakes)).bind fun w₃ _ hw₃ _ => ?_
    exact .pure (hR.mono htakes.2 hw₃)
  | @compound op source typing target value ht h hv =>
    obtain ⟨hne, hset⟩ := isModifiable_iff.1 ht
    refine ((hp target (.head _)).place hset w).bind fun w₁ place _ hplace => ?_
    obtain ⟨htype, hreach⟩ := hplace
    refine (hR.load hreach).bind fun w₂ current hw₂ hc => ?_
    rw [htype] at hc
    refine ((hp value (.tail _ (.head _))).value w₂).bind fun w₃ v hw₃ hv' => ?_
    have hop := hR.compound h hu ⟨hne, hR.mono hc hw₃⟩ (hR.passes hv' hv)
    refine (Regime.keeps_inWorld hR hop).bind fun w₄ r hw₄ hr => ?_
    have hreach := hR.reaches_mono hreach (hw₂.trans (hw₃.trans hw₄))
    have htakes : R.Takes w₄ place.type (r.promote place.type) := by
      rw [htype]
      exact ⟨hne, hr⟩
    refine (hR.store hreach htakes).bind fun w₅ _ hw₅ _ => ?_
    rw [htype]
    exact .pure (hR.mono hr hw₅)
  | @step op before target plan ht h =>
    obtain ⟨hne, hset⟩ := isModifiable_iff.1 ht
    refine ((hp target (.head _)).place hset w).bind fun w₁ place _ hplace => ?_
    obtain ⟨htype, hreach⟩ := hplace
    refine (hR.load hreach).bind fun w₂ old hw₂ hold => ?_
    rw [htype] at hold
    have hstep : R.eval.Keeps w₂ (Eval.lift (stepValue op old)) fun w' v =>
        R.has w' target.type v := Regime.keeps_lift (hR.step h hold)
    refine hstep.bind fun w₃ stepped hw₃ hv => ?_
    have hreach := hR.reaches_mono hreach (hw₂.trans hw₃)
    have htakes : R.Takes w₃ place.type stepped := by
      rw [htype]
      exact ⟨hne, hv⟩
    refine (hR.store hreach htakes).bind fun w₄ _ hw₄ _ => ?_
    cases before with
    | true => exact .pure (hR.mono hold (hw₃.trans hw₄))
    | false => exact .pure (hR.mono hv hw₄)
  | @cast t plan e h he =>
    refine ((hp e (.head _)).value w).bind fun w' v _ hv => ?_
    exact Regime.keeps_inWorld hR (hR.cast h hu ⟨he, hv⟩)
  | @index source container i indexer h hc hi =>
    refine (hR.notNull _ _ hc ((hp container (.head _)).value w)).bind fun w₁ c _ hc => ?_
    refine ((hp i (.tail _ (.head _))).value w₁).bind fun w₂ v hw hv => ?_
    have hargs : List.Forall₂ (R.Takes w₂) [_, _] [c, v] :=
      .cons (hR.takes_mono hc hw) (.cons (hR.takes hv hi) .nil)
    exact hR.gives ⟨.itemGetter h, hu _ (.head _)⟩ hargs
  | @property receiver name p h hne =>
    refine (hR.notNull _ _ hne ((hp receiver (.head _)).value w)).bind fun w₁ v _ hv => ?_
    exact hR.gives ⟨.getter h, hu _ (.head _)⟩ (.cons hv .nil)
  | @staticProperty owner name p h =>
    exact hR.gives ⟨.getter h, hu _ (.head _)⟩ .nil
  | @method receiver name typeArgs sources call args hne h ha =>
    refine (hR.notNull _ _ hne ((hp receiver (.head _)).value w)).bind fun w₁ v _ hv => ?_
    have hp' : ∀ e ∈ args, e.Evaluates R reg scope := fun e he => hp e (.tail _ he)
    have hvalues := hR.arguments hp' (Registry.resolveMethod_assignable h) ha w₁
    refine hvalues.bind fun w₂ vs hw hargs => ?_
    have hall := List.Forall₂.cons (hR.takes_mono hv hw) hargs
    exact hR.gives ⟨.method h, hu _ (.head _)⟩ hall
  | @staticMethod owner name typeArgs sources call args h ha =>
    have hvalues := hR.arguments hp (Registry.resolveMethod_assignable h) ha w
    refine hvalues.bind fun w₁ vs _ hargs => ?_
    exact hR.gives ⟨.method h, hu _ (.head _)⟩ hargs
  | @function name typeArgs sources call args h ha =>
    have hvalues := hR.arguments hp (Registry.resolveFunction_assignable h) ha w
    refine hvalues.bind fun w₁ vs _ hargs => ?_
    exact hR.gives ⟨.function h, hu _ (.head _)⟩ hargs
  | @new t sources call args h ha =>
    have hp' : ∀ e ∈ args, e.Evaluates R reg scope := fun e he => hp e (List.mem_append_left _ he)
    have hvalues := hR.arguments hp' (Registry.resolveConstructor_assignable h) ha w
    refine hvalues.bind fun w₁ vs _ hargs => ?_
    refine (hR.gives ⟨.constructor h, hu _ (.head _)⟩ hargs).bind fun w₂ v _ hv => ?_
    exact .pure hv
  | @newItems t sources itemSources call insertion args items h ha hi hitems =>
    have hp' : ∀ e ∈ args, e.Evaluates R reg scope := fun e he => hp e (List.mem_append_left _ he)
    have hne := Registry.ne_void_of_resolveConstructor h
    have hvalues := hR.arguments hp' (Registry.resolveConstructor_assignable h) ha w
    refine hvalues.bind fun w₁ vs _ hargs => ?_
    refine (hR.gives ⟨.constructor h, hu _ (.head _)⟩ hargs).bind fun w₂ v _ hv => ?_
    have hp' : ∀ e ∈ items, e.Evaluates R reg scope := fun e he =>
      hp e (List.mem_append_right _ he)
    have hinsert := hR.insertAll ⟨.insertion hi, hu _ (.tail _ (.head _))⟩ hp' hitems ⟨hne, hv⟩
    refine hinsert.bind fun w₃ _ hw₃ _ => ?_
    exact .pure (hR.mono hv hw₃)
  | @newArray elem itemSources count items hc hitems =>
    have hcount : ∀ e ∈ count, e.Evaluates R reg scope := fun e he =>
      hp e (List.mem_append_left _ (Option.mem_toList.2 he))
    refine (Regime.keeps_value? hcount w).bind fun w₁ c _ hc' => ?_
    have hint : ∀ v ∈ c, R.has w₁ .int v := by
      cases hc' with
      | none => simp
      | some hv =>
        rintro _ ⟨⟩
        obtain ⟨source, hpass⟩ := hc _ rfl
        exact hR.passes hv hpass
    refine (hR.arrayLength hint _).bind fun w₂ length _ _ => ?_
    refine (hR.values (fun e he => hp e (List.mem_append_right _ he)) w₂).bind fun w₃ vs _ hvs => ?_
    refine Regime.keeps_inWorld hR (hR.newArray fun v hv => ?_)
    rcases List.mem_append.1 (List.mem_toArray.1 hv) with hv | hv
    · exact hR.has_of_items hitems hvs v hv
    · rw [List.eq_of_mem_replicate hv]
      exact hR.default _ _

theorem Rule.keeps_place {t : Ty} {form : Form Expr} {uses : List Use}
    (h : Rule reg scope t form uses) (hu : ∀ use ∈ uses, R.uses use)
    (hset : form.isSettable = true) (hp : ∀ e ∈ form.parts, e.Evaluates R reg scope) (span : Span)
    (w : W) :
    R.eval.Keeps w ((form.map (denote reg)).place span t) fun w' p =>
      p.type = t ∧ R.Reaches reg scope w' p := by
  cases h with
  | var h => exact .pure ⟨rfl, .var h⟩
  | @index source container i indexer h hc hi =>
    obtain ⟨get, _ | set, index, elem⟩ := indexer
    · cases hset
    · refine (hR.notNull _ _ hc ((hp container (.head _)).value w)).bind fun w₁ c _ hc => ?_
      refine ((hp i (.tail _ (.head _))).value w₁).bind fun w₂ v hw hv => ?_
      have hreach : R.Reaches reg scope w₂ (.element c v get set elem) :=
        .element (hR.takes_mono hc hw) (hR.takes hv hi) ⟨.itemGetter h, hu _ (.head _)⟩
          ⟨.itemSetter h rfl, hu _ (.tail _ (.head _))⟩
      exact .pure ⟨rfl, hreach⟩
  | @property receiver name p h hne =>
    obtain ⟨get, _ | set, type⟩ := p
    · cases hset
    · refine (hR.notNull _ _ hne ((hp receiver (.head _)).value w)).bind fun w₁ v _ hv => ?_
      have hreach : R.Reaches reg scope w₁ (.property (some v) get set type) :=
        .property (.cons hv .nil) ⟨.getter h, hu _ (.head _)⟩
          ⟨.setter h rfl, hu _ (.tail _ (.head _))⟩
      exact .pure ⟨rfl, hreach⟩
  | @staticProperty owner name p h =>
    obtain ⟨get, _ | set, type⟩ := p
    · cases hset
    · have hreach : R.Reaches reg scope w (.property none get set type) :=
        .property .nil ⟨.getter h, hu _ (.head _)⟩ ⟨.setter h rfl, hu _ (.tail _ (.head _))⟩
      exact .pure ⟨rfl, hreach⟩
  | _ => cases hset

/-- **A well-typed expression evaluates to a value of its type**, wherever types govern
evaluation and what it uses is used. -/
theorem WellTyped.evaluates {e : Expr} (h : WellTyped reg scope e)
    (hu : ∀ use, e.Uses reg scope use → R.uses use) : e.Evaluates R reg scope := by
  induction h with
  | @node number span t form uses h _ ih =>
    have hnode : ∀ use ∈ uses, R.uses use := fun use huse => hu use (.here h huse)
    have hparts : ∀ e ∈ form.parts, e.Evaluates R reg scope := fun e he =>
      ih e he fun use huse => hu use (.part he huse)
    constructor
    · intro w
      rw [denote_node]
      exact Regime.keeps_inside span (h.keeps_value hR hnode hparts w)
    · intro hset w
      rw [denote_node]
      exact h.keeps_place hR hnode hset hparts span w

end Expr

end TypedExpr
