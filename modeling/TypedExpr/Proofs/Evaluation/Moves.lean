import TypedExpr.Eval
import TypedExpr.Proofs.Form
import TypedExpr.Proofs.Steps
/-!
# What evaluation does to the state

An evaluation is made of steps: it calls the host, makes arrays, and stores to variables. A
relation between the states before and after that holds of every step, and of one step after the
other, holds of every evaluation, whether it fails or not.

* `Eval.Moves`: the state after is related to the state before.
* `Expr.moves`: every evaluation of an expression moves along such a relation.
* `Expr.keeps_types`: evaluation neither declares nor forgets a variable, nor changes its type.
-/

namespace TypedExpr

namespace Eval

variable {α β : Type}

/-- The state after the evaluation is related to the one before it. -/
def Moves (R : EvalState → EvalState → Prop) (x : Eval α) : Prop := ∀ st, R st (x.run st).2

/-- A relation that holds of every step of an evaluation. -/
structure Stepwise (R : EvalState → EvalState → Prop) : Prop where
  refl (st : EvalState) : R st st
  trans {a b c : EvalState} (h : R a b) (h' : R b c) : R a c
  world (st : EvalState) (world : World) : R st { st with world := world }
  write (name : String) (t : Ty) (v : Value) : Moves R (Eval.write name t v)

namespace Moves

variable {R : EvalState → EvalState → Prop} (hR : Stepwise R)

include hR

theorem pure (a : α) : Moves R (pure a : Eval α) := fun st => hR.refl st

theorem throw (e : EvalError) : Moves R (throw e : Eval α) := fun st => hR.refl st

theorem bind {x : Eval α} {f : α → Eval β} (hx : Moves R x) (hf : ∀ a, Moves R (f a)) :
    Moves R (x >>= f) := by
  intro st
  have h := hx st
  rw [run_bind]
  rcases hx : x.run st with ⟨e | a, st'⟩ <;> rw [hx] at h
  · exact h
  · exact hR.trans h (hf a st')

theorem lift (x : Except Fault α) : Moves R (Eval.lift x) := fun st => hR.refl st

theorem read (name : String) (t : Ty) : Moves R (Eval.read name t) := fun st => hR.refl st

theorem inWorld (x : Run α) : Moves R (Eval.inWorld x) := fun st => hR.world st (x.run st.world).2

omit hR in
theorem inside (span : Span) {x : Eval α} (hx : Moves R x) : Moves R (Eval.inside span x) :=
  fun st => hx st

theorem notNull (span : Span) (use : String) {x : Eval Value} (hx : Moves R x) :
    Moves R (Eval.notNull span use x) := by
  refine bind hR hx fun v => ?_
  split
  · exact throw hR _
  · exact pure hR _

theorem load (reg : Registry) (place : Place) : Moves R (reg.load place) := by
  cases place with
  | var name t => exact read hR name t
  | element => exact inWorld hR _
  | property => exact inWorld hR _

theorem store (reg : Registry) (place : Place) (v : Value) : Moves R (reg.store place v) := by
  cases place with
  | var name t => exact hR.write name t v
  | element => exact bind hR (inWorld hR _) fun _ => pure hR _
  | property => exact bind hR (inWorld hR _) fun _ => pure hR _

theorem values {es : List Denoted} (h : ∀ e ∈ es, Moves R e.value) :
    Moves R (Denoted.values es) := by
  induction es with
  | nil => exact pure hR _
  | cons e es ih =>
    refine bind hR (h e (by simp)) fun v => ?_
    exact bind hR (ih fun e he => h e (by simp [he])) fun vs => pure hR _

theorem insertAll (reg : Registry) (insert : CallableId) (collection : Value) {es : List Denoted}
    (h : ∀ e ∈ es, Moves R e.value) : Moves R (Denoted.insertAll reg insert collection es) := by
  induction es with
  | nil => exact pure hR _
  | cons e es ih =>
    refine bind hR (h e (by simp)) fun v => bind hR (inWorld hR _) fun _ => ?_
    exact ih fun e he => h e (by simp [he])

end Moves

end Eval

namespace Form

variable {R : EvalState → EvalState → Prop} (hR : Eval.Stepwise R) (reg : Registry)

open TypedExpr.Eval.Moves

include hR

theorem value_moves (t : Ty) {form : Form Denoted}
    (h : ∀ e ∈ form.parts, Eval.Moves R e.value ∧ Eval.Moves R e.place) :
    Eval.Moves R (form.value reg t) := by
  cases form with
  | int | double | bool | str => exact pure hR _
  | var name => exact read hR name t
  | unary op plan e =>
    have he := (h e (by simp [parts])).1
    exact bind hR he fun v => inWorld hR _
  | binary op plan l r =>
    have hl := (h l (by simp [parts])).1
    have hr := (h r (by simp [parts])).1
    refine bind hR hl fun a => ?_
    split
    · refine bind hR (lift hR _) fun decided => ?_
      split
      · exact pure hR _
      · exact bind hR hr fun b => bind hR (lift hR _) fun _ => pure hR _
    · exact bind hR hr fun b => inWorld hR _
  | ternary c y n =>
    refine bind hR (h c (by simp [parts])).1 fun v => bind hR (lift hR _) fun b => ?_
    split
    · exact (h y (by simp [parts])).1
    · exact (h n (by simp [parts])).1
  | assign target e =>
    refine bind hR (h target (by simp [parts])).2 fun place => ?_
    refine bind hR (h e (by simp [parts])).1 fun v => ?_
    exact bind hR (store hR reg place v) fun _ => pure hR _
  | compound op plan target e =>
    refine bind hR (h target (by simp [parts])).2 fun place => ?_
    refine bind hR (load hR reg place) fun current => ?_
    refine bind hR (h e (by simp [parts])).1 fun v => ?_
    refine bind hR (inWorld hR _) fun result => ?_
    exact bind hR (store hR reg place _) fun _ => pure hR _
  | step op before target =>
    refine bind hR (h target (by simp [parts])).2 fun place => ?_
    refine bind hR (load hR reg place) fun old => ?_
    refine bind hR (lift hR _) fun stepped => ?_
    exact bind hR (store hR reg place _) fun _ => pure hR _
  | cast plan e => exact bind hR (h e (by simp [parts])).1 fun v => inWorld hR _
  | index e i get set =>
    refine bind hR (notNull hR _ _ (h e (by simp [parts])).1) fun container => ?_
    exact bind hR (h i (by simp [parts])).1 fun v => inWorld hR _
  | property receiver get set =>
    cases receiver with
    | none => exact inWorld hR _
    | some e => exact bind hR (notNull hR _ _ (h e (by simp [parts])).1) fun v => inWorld hR _
  | method e callable args =>
    refine bind hR (notNull hR _ _ (h e (by simp [parts])).1) fun receiver => ?_
    exact bind hR (values hR fun a ha => (h a (by simp [parts, ha])).1) fun vs => inWorld hR _
  | call callable args => exact bind hR (values hR fun a ha => (h a ha).1) fun vs => inWorld hR _
  | new constructor args items insert =>
    refine bind hR (values hR fun a ha => (h a (by simp [parts, ha])).1) fun vs => ?_
    refine bind hR (inWorld hR _) fun object => ?_
    cases insert with
    | none => exact pure hR _
    | some insert =>
      refine bind hR (insertAll hR reg insert object fun a ha => ?_) fun _ => pure hR _
      exact (h a (by simp [parts, ha])).1
  | newArray elem count items =>
    have hitems : Eval.Moves R (Denoted.values items) :=
      values hR fun a ha => (h a (by simp [parts, ha])).1
    refine bind hR ?_ fun count => bind hR (lift hR _) fun length => ?_
    · cases count with
      | none => exact pure hR _
      | some e => exact bind hR (h e (by simp [parts])).1 fun v => pure hR _
    · exact bind hR hitems fun vs => inWorld hR _

theorem place_moves (span : Span) (t : Ty) {form : Form Denoted}
    (h : ∀ e ∈ form.parts, Eval.Moves R e.value) : Eval.Moves R (form.place span t) := by
  cases form with
  | var name => exact pure hR _
  | index e i get set =>
    cases set with
    | none => exact throw hR _
    | some set =>
      refine bind hR (notNull hR _ _ (h e (by simp [parts]))) fun container => ?_
      exact bind hR (h i (by simp [parts])) fun v => pure hR _
  | property receiver get set =>
    cases set with
    | none => cases receiver <;> exact throw hR _
    | some set =>
      cases receiver with
      | none => exact pure hR _
      | some e => exact bind hR (notNull hR _ _ (h e (by simp [parts]))) fun v => pure hR _
  | _ => exact throw hR _

end Form

namespace Expr

variable {R : EvalState → EvalState → Prop}

/-- **Every evaluation moves along a relation that holds of every step.** -/
theorem moves (hR : Eval.Stepwise R) (reg : Registry) (e : Expr) :
    Eval.Moves R (e.denote reg).value ∧ Eval.Moves R (e.denote reg).place := by
  induction e using Expr.induct with
  | h number span t form ih =>
    have h : ∀ d ∈ (form.map (denote reg)).parts, Eval.Moves R d.value ∧ Eval.Moves R d.place := by
      rw [Form.parts_map]
      intro d hd
      obtain ⟨e, he, rfl⟩ := List.mem_map.1 hd
      exact ih e he
    rw [denote_node]
    exact ⟨.inside span (Form.value_moves hR reg t h),
      Form.place_moves hR span t fun d hd => (h d hd).1⟩

theorem execute_moves (hR : Eval.Stepwise R) (reg : Registry) (e : Expr) :
    Eval.Moves R (e.denote reg).execute :=
  .bind hR (e.moves hR reg).1 fun _ => .pure hR _

theorem store_moves (hR : Eval.Stepwise R) (reg : Registry) (e : Expr) (v : Value) :
    Eval.Moves R ((e.denote reg).store reg v) := by
  refine .bind hR (.lift hR _) fun v => .bind hR (e.moves hR reg).2 fun place => ?_
  exact .bind hR (.inside _ (.store hR reg place v)) fun _ => .pure hR _

end Expr

/-! ### Variables -/

namespace Context

/-- The variable of a name. -/
def binding? : Context → String → Option Binding
  | .empty, _ => none
  | .of env, name => env.get? name

/-- The type at which a variable is declared. -/
def declared? (context : Context) (name : String) : Option Ty :=
  (context.binding? name).map (·.type)

theorem read_ok {context : Context} {c : Catalog} {name : String} {t : Ty} {v : Value} :
    context.read c name t = .ok v ↔ context.binding? name = some ⟨t, v⟩ := by
  cases context with
  | empty => simp [read, binding?]
  | of env =>
    show (env.binding c name t).map (·.value) = .ok v ↔ env.get? name = some ⟨t, v⟩
    constructor
    · intro h
      cases hb : env.binding c name t with
      | error _ => simp [hb, Except.map] at h
      | ok b =>
        obtain ⟨hget, rfl⟩ := Environment.binding_eq_ok_iff.1 hb
        simp only [hb, Except.map, Except.ok.injEq] at h
        rw [hget, ← h]
    · intro h
      rw [Environment.binding_eq_ok_iff.2 ⟨h, rfl⟩]
      rfl

theorem write_ok {context context' : Context} {c : Catalog} {name : String} {t : Ty} {v : Value}
    (h : context.write c name t v = .ok context') :
    context.declared? name = some t ∧
      ∀ x, context'.binding? x = if x = name then some ⟨t, v⟩ else context.binding? x := by
  cases context with
  | empty => simp [write] at h
  | of env =>
    unfold write at h
    cases hw : env.write c name t v with
    | error _ => simp [hw, Except.map] at h
    | ok env' =>
      obtain ⟨htype, rfl⟩ := Environment.write_eq_ok_iff.1 hw
      simp only [hw, Except.map, Except.ok.injEq] at h
      subst h
      exact ⟨htype, fun x => NameMap.get?_insert env name x ⟨t, v⟩⟩

theorem exists_read {context : Context} {name : String} {t : Ty}
    (h : context.declared? name = some t) (c : Catalog) : ∃ v, context.read c name t = .ok v := by
  obtain ⟨⟨_, v⟩, hb, rfl⟩ := Option.map_eq_some_iff.1 h
  exact ⟨v, read_ok.2 hb⟩

theorem exists_write {context : Context} {name : String} {t : Ty}
    (h : context.declared? name = some t) (c : Catalog) (v : Value) :
    ∃ context', context.write c name t v = .ok context' := by
  cases context with
  | empty => simp [declared?, binding?] at h
  | of env =>
    refine ⟨.of (env.insert name ⟨t, v⟩), ?_⟩
    show (env.write c name t v).map Context.of = _
    rw [Environment.write_eq_ok_iff.2 ⟨h, rfl⟩]
    rfl

end Context

/-- The same variables are declared, at the same types. -/
def SameTypes (st st' : EvalState) : Prop :=
  ∀ name, st'.context.declared? name = st.context.declared? name

theorem sameTypes_stepwise : Eval.Stepwise SameTypes where
  refl _ _ := rfl
  trans h h' name := (h' name).trans (h name)
  world _ _ _ := rfl
  write name t v st x := by
    cases hw : st.context.write st.world.catalog name t v with
    | error _ => rw [Eval.run_write_error hw]
    | ok context =>
      obtain ⟨hd, hb⟩ := Context.write_ok hw
      rw [Eval.run_write_ok hw]
      unfold Context.declared?
      rw [hb x]
      split
      · rename_i hx
        rw [hx]
        exact hd.symm
      · rfl

/-- **Evaluation neither declares nor forgets a variable, nor changes its type.** -/
theorem Expr.keeps_types (reg : Registry) (e : Expr) (st : EvalState) :
    SameTypes st ((e.denote reg).value.run st).2 :=
  (e.moves sameTypes_stepwise reg).1 st

end TypedExpr
