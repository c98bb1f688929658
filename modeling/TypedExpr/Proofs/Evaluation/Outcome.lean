import TypedExpr.Proofs.Evaluation.Moves
/-!
# What comes of an evaluation

Two evaluations come to the same if they give the same value, or fail with the same fault, and leave
the same state. The span of a failure is left out, since it says where the expression was written.

* `Eval.outcome`: what an evaluation comes to.
* `Eval.Same`: two evaluations come to the same from every state.
* `Denoted.converted`: an operand where another type is asked for; `Denoted.value_converted`.
-/

namespace TypedExpr

namespace Eval

variable {α β : Type}

/-- What an evaluation comes to: its value or its fault, and the state after it. -/
def outcome (x : Eval α) (st : EvalState) : Except Fault α × EvalState :=
  ((x.run st).1.mapError (·.fault), (x.run st).2)

theorem outcome_ok {x : Eval α} {st st' : EvalState} {a : α} :
    x.outcome st = (.ok a, st') ↔ x.run st = (.ok a, st') := by
  unfold outcome
  rcases hx : x.run st with ⟨e | b, st''⟩
  · constructor <;> (intro h; cases h)
  · constructor <;> (intro h; cases h; rfl)

theorem outcome_bind (x : Eval α) (f : α → Eval β) (st : EvalState) :
    (x >>= f).outcome st = match x.outcome st with
      | (.ok a, st) => (f a).outcome st
      | (.error e, st) => (.error e, st) := by
  unfold outcome
  rw [run_bind]
  rcases x.run st with ⟨_ | _, _⟩ <;> rfl

@[simp] theorem outcome_lift (x : Except Fault α) (st : EvalState) :
    (lift x).outcome st = (x, st) := by
  cases x <;> rfl

@[simp] theorem outcome_inside (span : Span) (x : Eval α) (st : EvalState) :
    (inside span x).outcome st = x.outcome st := by
  show (((x.run st).1.mapError (·.inside span)).mapError (·.fault), (x.run st).2) = _
  unfold outcome
  rcases x.run st with ⟨_ | _, _⟩ <;> rfl

theorem outcome_inWorld (x : Run α) (st : EvalState) :
    (inWorld x).outcome st = ((x.run st.world).1, { st with world := (x.run st.world).2 }) := by
  show (((x.run st.world).1.mapError Fault.unplaced).mapError (·.fault),
    { st with world := (x.run st.world).2 }) = _
  rcases x.run st.world with ⟨_ | _, _⟩ <;> rfl

theorem outcome_read (name : String) (t : Ty) (st : EvalState) :
    (read name t).outcome st = (st.context.read st.world.catalog name t, st) := by
  show (((st.context.read st.world.catalog name t).mapError Fault.unplaced).mapError (·.fault), st) =
    _
  cases st.context.read st.world.catalog name t <;> rfl

/-- Storing to a variable does nothing to the world. -/
theorem world_write (name : String) (t : Ty) (v : Value) (st : EvalState) :
    ((write name t v).outcome st).2.world = st.world := by
  show ((write name t v).run st).2.world = st.world
  cases hw : st.context.write st.world.catalog name t v with
  | ok context => rw [run_write_ok hw]
  | error fault => rw [run_write_error hw]

/-- A declared variable can be stored to. -/
theorem exists_write {name : String} {t : Ty} {st : EvalState}
    (h : st.context.declared? name = some t) (v : Value) :
    ∃ st', (write name t v).outcome st = (.ok (), st') := by
  obtain ⟨context, hw⟩ := Context.exists_write h st.world.catalog v
  exact ⟨{ st with context := context }, outcome_ok.2 (run_write_ok hw)⟩

/-- Two evaluations come to the same from every state. -/
def Same (x y : Eval α) : Prop := ∀ st, x.outcome st = y.outcome st

theorem Same.refl (x : Eval α) : Same x x := fun _ => rfl

theorem Same.trans {x y z : Eval α} (h : Same x y) (h' : Same y z) : Same x z :=
  fun st => (h st).trans (h' st)

theorem Same.bind {x y : Eval α} {f g : α → Eval β} (h : Same x y) (h' : ∀ a, Same (f a) (g a)) :
    Same (x >>= f) (y >>= g) := by
  intro st
  rw [outcome_bind, outcome_bind, h st]
  rcases y.outcome st with ⟨_ | a, st'⟩
  · rfl
  · exact h' a st'

/-- After the same step only what it can lead to matters. -/
theorem outcome_bind_congr {x : Eval α} {f g : α → Eval β} {st : EvalState}
    (h : ∀ a st', x.outcome st = (.ok a, st') → (f a).outcome st' = (g a).outcome st') :
    (x >>= f).outcome st = (x >>= g).outcome st := by
  rw [outcome_bind, outcome_bind]
  rcases hx : x.outcome st with ⟨_ | a, st'⟩
  · rfl
  · exact h a st' hx

theorem Same.inside (span : Span) (x : Eval α) : Same (inside span x) x := outcome_inside span x

end Eval

/-- The value of an operand of a type where another type is asked for. -/
def Value.passed (v : Value) (source target : Ty) : Except Fault Value :=
  if source = .int ∧ target = .double then v.toDouble.map .double else .ok v

theorem Value.passed_of {source target : Ty} (h : ¬(source = .int ∧ target = .double)) (v : Value) :
    v.passed source target = .ok v := if_neg h

namespace Denoted

/-- An operand where another type is asked for. -/
def converted (reg : Registry) (d : Denoted) (target : Ty) : Denoted :=
  if d.type = .int ∧ target = .double then ofForm reg d.span .double (.cast .intToDouble d) else d

theorem converted_moves {R : EvalState → EvalState → Prop} (hR : Eval.Stepwise R) (reg : Registry)
    {d : Denoted} (h : Eval.Moves R d.value) (target : Ty) :
    Eval.Moves R (d.converted reg target).value := by
  unfold converted
  split
  · exact .inside d.span (.bind hR h fun v => .inWorld hR _)
  · exact h

theorem value_converted (reg : Registry) (d : Denoted) (target : Ty) :
    Eval.Same (d.converted reg target).value
      (do let v ← d.value; Eval.lift (v.passed d.type target)) := by
  unfold converted Value.passed
  split
  · exact .inside _ _
  · show Eval.Same _ (d.value >>= fun v => pure v)
    rw [bind_pure]
    exact .refl _

end Denoted

end TypedExpr
