/-!
# Steps that may fail

Parsing, evaluation and the host all go in steps that change a state and may fail. What such steps
do one after the other is the same for all of them.

* `run_bind`: the run of one step after the other.
* `run_bind_ok`: when it succeeds.
-/

namespace TypedExpr

variable {ε σ α β : Type}

/-- The run of one step after the other. -/
theorem run_bind (x : ExceptT ε (StateM σ) α) (f : α → ExceptT ε (StateM σ) β) (p : σ) :
    (x >>= f).run p = match x.run p with
      | (.ok a, q) => (f a).run q
      | (.error e, q) => (.error e, q) := by
  show (match x.run p with | (r, q) => (ExceptT.bindCont f r : StateM σ _) q) = _
  rcases x.run p with ⟨_ | _, q⟩ <;> rfl

theorem run_bind_of_ok {x : ExceptT ε (StateM σ) α} {f : α → ExceptT ε (StateM σ) β} {p q : σ}
    {a : α} (h : x.run p = (.ok a, q)) : (x >>= f).run p = (f a).run q := by
  rw [run_bind, h]

/-- A run of one step after the other succeeds just when both do. -/
theorem run_bind_ok {x : ExceptT ε (StateM σ) α} {f : α → ExceptT ε (StateM σ) β} {p q : σ}
    {b : β} :
    (x >>= f).run p = (.ok b, q) ↔
      ∃ a p', x.run p = (.ok a, p') ∧ (f a).run p' = (.ok b, q) := by
  rw [run_bind]
  constructor
  · intro h
    rcases hx : x.run p with ⟨_ | a, p'⟩
    · rw [hx] at h; cases h
    · rw [hx] at h; exact ⟨a, p', rfl, h⟩
  · rintro ⟨a, p', ha, h⟩
    rw [ha]; exact h

end TypedExpr
