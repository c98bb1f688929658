import TypedExpr.Proofs.Evaluation.Access
import TypedExpr.Proofs.Form
import TypedExpr.Proofs.Steps
/-!
# Two evaluations side by side

An expression is evaluated twice, from states that are related, with variables read and stored in
ways that may differ. If reading and storing the variables that occur in it comes to the same and
keeps the states related, then so does the evaluation of the expression.

* `Expr.vars`, `Expr.targets`: the variables of an expression, and those that it stores to.
* `Eval.Alongside`, `Eval.Alike`: two evaluations come to the same. There is one rule for each
  construct of the monad.
* `Access.Coupling`: the relation of the states, and the variables that are read and stored alike.
* `Expr.alongside`: **what holds of the variables of an expression holds of its evaluation.**
-/

namespace TypedExpr

/-! ### Variables of an expression -/

namespace Form

variable {α β : Type}

/-- The variable that a node stands for. -/
def var? : Form α → Option String
  | .var name => some name
  | _ => none

/-- The part that a node stores to. -/
def target? : Form α → Option α
  | .assign target _ | .compound _ _ target _ | .step _ _ target => some target
  | _ => none

/-- The variable that a node is, and the variables that it and its parts store to. -/
def stores (t : Ty) (form : Form (Option (String × Ty) × List (String × Ty))) :
    Option (String × Ty) × List (String × Ty) :=
  (form.var?.map (·, t), (form.target?.bind (·.1)).toList ++ form.parts.flatMap (·.2))

theorem var?_map (f : α → β) (form : Form α) : (form.map f).var? = form.var? := by
  cases form <;> rfl

theorem target?_map (f : α → β) (form : Form α) :
    (form.map f).target? = form.target?.map f := by
  cases form <;> rfl

theorem mem_parts_of_target? {form : Form α} {e : α} (h : e ∈ form.target?) : e ∈ form.parts := by
  cases form with
  | assign | compound | step =>
    obtain rfl := Option.some.inj h
    simp [parts]
  | _ => cases h

end Form

namespace Expr

/-- The variable that an expression is, at its type. -/
def var? (e : Expr) : Option (String × Ty) := e.form.var?.map (·, e.type)

/-- The variables of an expression, at their types. -/
def vars (e : Expr) : List (String × Ty) :=
  e.fold fun _ _ t form => (form.var?.map (·, t)).toList ++ form.parts.flatten

/-- The variables that an expression assigns to or steps, at their types. -/
def targets (e : Expr) : List (String × Ty) := (e.fold fun _ _ t form => form.stores t).2

theorem var?_node (number : Nat) (span : Span) (t : Ty) (form : Form Expr) :
    (Expr.node number span t form).var? = form.var?.map (·, t) := rfl

theorem vars_node (number : Nat) (span : Span) (t : Ty) (form : Form Expr) :
    (Expr.node number span t form).vars =
      (form.var?.map (·, t)).toList ++ form.parts.flatMap vars := by
  unfold vars
  rw [fold_node, Form.var?_map, Form.parts_map, List.flatMap_def]

theorem targets_node (number : Nat) (span : Span) (t : Ty) (form : Form Expr) :
    (Expr.node number span t form).targets =
      (form.target?.bind var?).toList ++ form.parts.flatMap targets := by
  have hfst (e : Expr) : (e.fold fun _ _ t form => form.stores t).1 = e.var? := by
    obtain ⟨number, span, t, form⟩ := e
    rw [fold_node, Form.stores, Form.var?_map]
    rfl
  unfold targets
  rw [fold_node, Form.stores, Form.target?_map, Form.parts_map, List.flatMap_map, Option.bind_map,
    Function.comp_def]
  simp only [hfst]

theorem var?_subset_vars (e : Expr) : e.var?.toList ⊆ e.vars := by
  obtain ⟨number, span, t, form⟩ := e
  rw [vars_node, var?_node]
  exact List.subset_append_left _ _

/-- What an expression stores to are variables of it. -/
theorem targets_subset_vars (e : Expr) : e.targets ⊆ e.vars := by
  induction e using Expr.induct with
  | h number span t form ih =>
    have hpart {e : Expr} (he : e ∈ form.parts) : e.vars ⊆ form.parts.flatMap vars :=
      fun x hx => List.mem_flatMap.2 ⟨e, he, hx⟩
    rw [targets_node, vars_node]
    refine List.append_subset.2 ⟨fun x hx => ?_, fun x hx => ?_⟩
    · obtain ⟨target, ht, hx⟩ := Option.bind_eq_some_iff.1 (Option.mem_toList.1 hx)
      have hx := target.var?_subset_vars (Option.mem_toList.2 hx)
      exact List.mem_append_right _ (hpart (Form.mem_parts_of_target? ht) hx)
    · obtain ⟨e, he, hx⟩ := List.mem_flatMap.1 hx
      exact List.mem_append_right _ (hpart he (ih e he hx))

end Expr

/-! ### Two evaluations -/

namespace Eval

variable {α β : Type}

/-- From related states two evaluations come to the same, and to related states. What they succeed
with has the property. -/
def Alongside (R : EvalState → EvalState → Prop) (Q : α → Prop) (x y : Eval α) : Prop :=
  ∀ st st', R st st' → (x.run st).1 = (y.run st').1 ∧ R (x.run st).2 (y.run st').2 ∧
    ∀ a, (x.run st).1 = .ok a → Q a

/-- From related states two evaluations come to the same, and to related states. -/
abbrev Alike (R : EvalState → EvalState → Prop) (x y : Eval α) : Prop :=
  Alongside R (fun _ => True) x y

end Eval

/-- Two ways to read and store variables, from states that are related. -/
structure Access.Coupling (a a' : Access) where
  /-- The states are related. -/
  holds : EvalState → EvalState → Prop
  world {st st' : EvalState} (h : holds st st') : st.world = st'.world
  move {st st' : EvalState} (h : holds st st') (world : World) :
    holds { st with world := world } { st' with world := world }
  /-- The variable is read alike. -/
  reads : String → Ty → Prop
  /-- The variable is stored to alike. -/
  writes : String → Ty → Prop
  read {name : String} {t : Ty} (h : reads name t) :
    Eval.Alike holds (a.read name t) (a'.read name t)
  write {name : String} {t : Ty} (h : writes name t) (v : Value) :
    Eval.Alike holds (a.write name t v) (a'.write name t v)

/-- The place is read and stored to alike. -/
def Access.Coupling.Serves {a a' : Access} (C : Access.Coupling a a') : Place → Prop
  | .var name t => C.reads name t ∧ C.writes name t
  | .element .. | .property .. => True

namespace Eval.Alongside

variable {a a' : Access} (C : Access.Coupling a a') {α β : Type} {Q : α → Prop} {S : β → Prop}

theorem pure {x : α} (h : Q x) : Alongside C.holds Q (pure x) (pure x) :=
  fun _ _ hst => ⟨rfl, hst, fun _ hx => Except.ok.inj hx ▸ h⟩

theorem throw (e : EvalError) : Alongside C.holds Q (throw e) (throw e) :=
  fun _ _ hst => ⟨rfl, hst, nofun⟩

variable {C} in
theorem bind {x y : Eval α} {f g : α → Eval β} (hx : Alongside C.holds Q x y)
    (hf : ∀ a, Q a → Alongside C.holds S (f a) (g a)) :
    Alongside C.holds S (x >>= f) (y >>= g) := by
  intro st st' hst
  obtain ⟨heq, hnext, hq⟩ := hx st st' hst
  rw [run_bind, run_bind]
  rcases hx : x.run st with ⟨rx, s⟩
  rcases hy : y.run st' with ⟨ry, s'⟩
  rw [hx, hy] at heq hnext
  obtain rfl : rx = ry := heq
  cases rx with
  | error e => exact ⟨rfl, hnext, nofun⟩
  | ok v => exact hf v (hq v (congrArg Prod.fst hx)) s s' hnext

theorem lift (x : Except Fault α) : Alike C.holds (Eval.lift x) (Eval.lift x) :=
  fun _ _ hst => ⟨rfl, hst, fun _ _ => trivial⟩

theorem inWorld (x : Run α) : Alike C.holds (Eval.inWorld x) (Eval.inWorld x) := by
  intro st st' hst
  rw [run_inWorld, run_inWorld, ← C.world hst]
  exact ⟨rfl, C.move hst _, fun _ _ => trivial⟩

variable {C} in
theorem inside (span : Span) {x y : Eval α} (h : Alike C.holds x y) :
    Alike C.holds (Eval.inside span x) (Eval.inside span y) := by
  intro st st' hst
  obtain ⟨heq, hnext, -⟩ := h st st' hst
  rw [run_inside, run_inside, heq]
  exact ⟨rfl, hnext, fun _ _ => trivial⟩

variable {C} in
theorem notNull (span : Span) (use : String) {x y : Eval Value} (h : Alike C.holds x y) :
    Alike C.holds (Eval.notNull span use x) (Eval.notNull span use y) := by
  refine bind h fun v _ => ?_
  split
  · exact throw C _
  · exact pure C trivial

variable (reg : Registry)

theorem load {place : Place} (h : C.Serves place) :
    Alike C.holds (reg.loadBy a place) (reg.loadBy a' place) := by
  cases place with
  | var name t => exact C.read h.1
  | element => exact inWorld C _
  | property => exact inWorld C _

theorem store {place : Place} (h : C.Serves place) (v : Value) :
    Alike C.holds (reg.storeBy a place v) (reg.storeBy a' place v) := by
  cases place with
  | var name t => exact C.write h.2 v
  | element => exact bind (inWorld C _) fun _ _ => pure C trivial
  | property => exact bind (inWorld C _) fun _ _ => pure C trivial

variable {C} {D D' : α → Denoted}

theorem values {es : List α} (h : ∀ e ∈ es, Alike C.holds (D e).value (D' e).value) :
    Alike C.holds (Denoted.values (es.map D)) (Denoted.values (es.map D')) := by
  induction es with
  | nil => exact pure C trivial
  | cons e es ih =>
    refine bind (h e (by simp)) fun v _ => ?_
    exact bind (ih fun e he => h e (by simp [he])) fun vs _ => pure C trivial

theorem optional {o : Option α} (h : ∀ e ∈ o.toList, Alike C.holds (D e).value (D' e).value) :
    Alike C.holds (Denoted.value? (o.map D)) (Denoted.value? (o.map D')) := by
  cases o with
  | none => exact pure C trivial
  | some e => exact bind (h e (by simp)) fun v _ => pure C trivial

theorem insertAll (insert : CallableId) (collection : Value) {es : List α}
    (h : ∀ e ∈ es, Alike C.holds (D e).value (D' e).value) :
    Alike C.holds (Denoted.insertAll reg insert collection (es.map D))
      (Denoted.insertAll reg insert collection (es.map D')) := by
  induction es with
  | nil => exact pure C trivial
  | cons e es ih =>
    refine bind (h e (by simp)) fun v _ => bind (inWorld C _) fun _ _ => ?_
    exact ih fun e he => h e (by simp [he])

end Eval.Alongside

/-! ### Expressions -/

namespace Form

variable {a a' : Access} {C : Access.Coupling a a'} (reg : Registry) {α : Type} {D D' : α → Denoted}

open TypedExpr.Eval TypedExpr.Eval.Alongside

theorem value_alike (t : Ty) {form : Form α} (hspan : ∀ e, (D e).span = (D' e).span)
    (hvalue : ∀ e ∈ form.parts, Alike C.holds (D e).value (D' e).value)
    (hplace : ∀ e ∈ form.target?, Alongside C.holds C.Serves (D e).place (D' e).place)
    (hvar : ∀ name ∈ form.var?, C.reads name t) :
    Alike C.holds ((form.map D).valueBy reg a t) ((form.map D').valueBy reg a' t) := by
  cases form with
  | int | double | bool | str => exact pure C trivial
  | var name => exact C.read (hvar name rfl)
  | unary op plan e => exact bind (hvalue e (by simp [parts])) fun v _ => inWorld C _
  | binary op plan l r =>
    have hr := hvalue r (by simp [parts])
    refine bind (hvalue l (by simp [parts])) fun v _ => ?_
    split
    · refine bind (lift C _) fun decided _ => ?_
      split
      · exact pure C trivial
      · exact bind hr fun w _ => bind (lift C _) fun _ _ => pure C trivial
    · exact bind hr fun w _ => inWorld C _
  | ternary c y n =>
    refine bind (hvalue c (by simp [parts])) fun v _ => bind (lift C _) fun b _ => ?_
    split
    · exact hvalue y (by simp [parts])
    · exact hvalue n (by simp [parts])
  | assign target e =>
    refine bind (hplace target rfl) fun place hp => ?_
    refine bind (hvalue e (by simp [parts])) fun v _ => ?_
    exact bind (store C reg hp v) fun _ _ => pure C trivial
  | compound op plan target e =>
    refine bind (hplace target rfl) fun place hp => ?_
    refine bind (load C reg hp) fun current _ => ?_
    refine bind (hvalue e (by simp [parts])) fun v _ => ?_
    refine bind (inWorld C _) fun result _ => ?_
    exact bind (store C reg hp _) fun _ _ => pure C trivial
  | step op before target =>
    refine bind (hplace target rfl) fun place hp => ?_
    refine bind (load C reg hp) fun old _ => ?_
    refine bind (lift C _) fun stepped _ => ?_
    exact bind (store C reg hp _) fun _ _ => pure C trivial
  | cast plan e => exact bind (hvalue e (by simp [parts])) fun v _ => inWorld C _
  | index e i get set =>
    simp only [map, valueBy, value, ← hspan]
    refine bind (notNull _ _ (hvalue e (by simp [parts]))) fun container _ => ?_
    exact bind (hvalue i (by simp [parts])) fun v _ => inWorld C _
  | property receiver get set =>
    cases receiver with
    | none => exact inWorld C _
    | some e =>
      simp only [map, Option.map_some, valueBy, value, ← hspan]
      exact bind (notNull _ _ (hvalue e (by simp [parts]))) fun v _ => inWorld C _
  | method e callable args =>
    simp only [map, valueBy, value, ← hspan]
    refine bind (notNull _ _ (hvalue e (by simp [parts]))) fun receiver _ => ?_
    exact bind (values fun e he => hvalue e (by simp [parts, he])) fun vs _ => inWorld C _
  | call callable args => exact bind (values hvalue) fun vs _ => inWorld C _
  | new constructor args items insert =>
    refine bind (values fun e he => hvalue e (by simp [parts, he])) fun vs _ => ?_
    refine bind (inWorld C _) fun object _ => ?_
    cases insert with
    | none => exact pure C trivial
    | some insert =>
      refine bind (insertAll reg insert object fun e he => ?_) fun _ _ => pure C trivial
      exact hvalue e (by simp [parts, he])
  | newArray elem count items =>
    simp only [map, valueBy, value, List.length_map]
    refine bind (optional fun e he => hvalue e (by simp_all [parts])) fun count _ => ?_
    refine bind (lift C _) fun length _ => ?_
    exact bind (values fun e he => hvalue e (by simp [parts, he])) fun vs _ => inWorld C _

theorem place_alongside (span : Span) (t : Ty) {form : Form α}
    (hspan : ∀ e, (D e).span = (D' e).span)
    (hvalue : ∀ e ∈ form.parts, Alike C.holds (D e).value (D' e).value)
    (hvar : ∀ name ∈ form.var?, C.reads name t ∧ C.writes name t) :
    Alongside C.holds C.Serves ((form.map D).place span t) ((form.map D').place span t) := by
  cases form with
  | var name => exact pure C (hvar name rfl)
  | index e i get set =>
    cases set with
    | none => exact throw C _
    | some set =>
      simp only [map, place, ← hspan]
      refine bind (notNull _ _ (hvalue e (by simp [parts]))) fun container _ => ?_
      exact bind (hvalue i (by simp [parts])) fun v _ => pure C trivial
  | property receiver get set =>
    cases set with
    | none => cases receiver <;> exact throw C _
    | some set =>
      cases receiver with
      | none => exact pure C trivial
      | some e =>
        simp only [map, Option.map_some, place, ← hspan]
        exact bind (notNull _ _ (hvalue e (by simp [parts]))) fun v _ => pure C trivial
  | _ => exact throw C _

end Form

namespace Expr

variable {a a' : Access} {C : Access.Coupling a a'} (reg : Registry)

open TypedExpr.Eval

/-- **If the variables of an expression are read alike, and those that it stores to are stored to
alike, then the expression is evaluated alike**, and so is the place that it stands for. -/
theorem alongside {e : Expr} (hreads : ∀ x ∈ e.vars, C.reads x.1 x.2)
    (hwrites : ∀ x ∈ e.targets, C.writes x.1 x.2) :
    Alike C.holds (e.denoteBy reg a).value (e.denoteBy reg a').value ∧
      ((∀ x ∈ e.var?, C.writes x.1 x.2) →
        Alongside C.holds C.Serves (e.denoteBy reg a).place (e.denoteBy reg a').place) := by
  induction e using Expr.induct with
  | h number span t form ih =>
    rw [vars_node] at hreads
    rw [targets_node] at hwrites
    simp only [List.mem_append, List.mem_flatMap] at hreads hwrites
    have hspan (e : Expr) : (e.denoteBy reg a).span = (e.denoteBy reg a').span := by simp
    have hpart (e) (he : e ∈ form.parts) :=
      ih e he (fun x hx => hreads x (.inr ⟨e, he, hx⟩)) fun x hx => hwrites x (.inr ⟨e, he, hx⟩)
    have hvar (name) (hname : form.var? = some name) : C.reads name t :=
      hreads (name, t) (.inl (by rw [hname]; exact List.mem_singleton_self _))
    have hplace (e) (he : form.target? = some e) :
        Alongside C.holds C.Serves (e.denoteBy reg a).place (e.denoteBy reg a').place :=
      (hpart e (Form.mem_parts_of_target? he)).2 fun x hx =>
        hwrites x (.inl (by rw [he]; exact Option.mem_toList.2 hx))
    rw [denoteBy_node, denoteBy_node]
    refine ⟨.inside span (Form.value_alike reg t hspan (fun e he => (hpart e he).1) hplace hvar),
      fun hw => ?_⟩
    exact Form.place_alongside span t hspan (fun e he => (hpart e he).1) fun name hname =>
      ⟨hvar name hname, hw (name, t) (by rw [var?_node, hname]; rfl)⟩

variable {e : Expr} (hreads : ∀ x ∈ e.vars, C.reads x.1 x.2)
  (hwrites : ∀ x ∈ e.targets, C.writes x.1 x.2)

include hreads hwrites

theorem execute_alike :
    Alike C.holds (e.denoteBy reg a).execute (e.denoteBy reg a').execute :=
  .bind (alongside reg hreads hwrites).1 fun _ _ => .pure C trivial

theorem store_alike (hvar : ∀ x ∈ e.var?, C.writes x.1 x.2) (v : Value) :
    Alike C.holds ((e.denoteBy reg a).storeBy reg a v) ((e.denoteBy reg a').storeBy reg a' v) := by
  unfold Denoted.storeBy
  rw [denoteBy_type, denoteBy_type, denoteBy_span, denoteBy_span]
  refine .bind (.lift C _) fun v _ => ?_
  refine .bind ((alongside reg hreads hwrites).2 hvar) fun place hplace => ?_
  exact .bind (.inside _ (.store C reg hplace v)) fun _ _ => .pure C trivial

end Expr

end TypedExpr
