import TypedExpr.Parse.State
import TypedExpr.Proofs.Steps
/-!
# Parsers that do the same

Two parsers that do the same on different data are compared by their runs from one state: they end
in the same state, with the same error or with results that are related there.

* `Parser.Mirrors`: the comparison from one state. There is one rule for each construct of the
  monad.
* `Parser.Mirrors.eq`: parsers with the same results everywhere are equal.
-/

namespace TypedExpr.Parser

variable {α β γ δ : Type}

/-- Two outcomes in the same state: the same error, or results that are related. -/
inductive Alike (R : α → β → ParseState → Prop) :
    Except ParseError α × ParseState → Except ParseError β × ParseState → Prop
  | ok {a : α} {b : β} {q : ParseState} (h : R a b q) : Alike R (.ok a, q) (.ok b, q)
  | error {e : ParseError} {q : ParseState} : Alike R (.error e, q) (.error e, q)

/-- From this state both parsers do the same, with results that are related. -/
def Mirrors (p : ParseState) (R : α → β → ParseState → Prop) (x : Parser α) (y : Parser β) : Prop :=
  Alike R (x.run p) (y.run p)

namespace Mirrors

variable {p : ParseState} {R : α → β → ParseState → Prop} {T : γ → δ → ParseState → Prop}
  {x : Parser α} {y : Parser β} {f : α → Parser γ} {g : β → Parser δ}

theorem pure {a : α} {b : β} (h : R a b p) : Mirrors p R (pure a) (pure b) := .ok h

theorem refuse {d : Diagnostic} {line : Nat} : Mirrors p R (refuse d line) (Parser.refuse d line) :=
  .error

theorem bind (hx : Mirrors p R x y) (hf : ∀ a b q, R a b q → Mirrors q T (f a) (g b)) :
    Mirrors p T (x >>= f) (y >>= g) := by
  unfold Mirrors at hx
  unfold Mirrors
  rw [run_bind, run_bind]
  generalize x.run p = r at hx
  generalize y.run p = r' at hx
  cases hx with
  | ok h => exact hf _ _ _ h
  | error => exact .error

/-- A parser and itself. -/
theorem same {R : α → α → ParseState → Prop} (h : ∀ a q, x.run p = (.ok a, q) → R a a q) :
    Mirrors p R x x := by
  unfold Mirrors
  rcases hx : x.run p with ⟨_ | a, q⟩
  · exact .error
  · exact .ok (h a q hx)

/-- After the same step. -/
theorem next {y : α → Parser δ} (hf : ∀ a q, x.run p = (.ok a, q) → Mirrors q T (f a) (y a)) :
    Mirrors p T (x >>= f) (x >>= y) := by
  refine bind (same (R := fun a b q => a = b ∧ x.run p = (.ok a, q)) ?_) ?_
  · exact fun a q h => ⟨rfl, h⟩
  · rintro a _ q ⟨rfl, h⟩
    exact hf a q h

theorem ite {c : Prop} [Decidable c] {x' : Parser α} {y' : Parser β} (hx : c → Mirrors p R x y)
    (hx' : ¬c → Mirrors p R x' y') : Mirrors p R (if c then x else x') (if c then y else y') := by
  by_cases hc : c
  · rw [if_pos hc, if_pos hc]
    exact hx hc
  · rw [if_neg hc, if_neg hc]
    exact hx' hc

theorem mono {R' : α → β → ParseState → Prop} (hx : Mirrors p R x y)
    (h : ∀ a b q, R a b q → R' a b q) : Mirrors p R' x y := by
  unfold Mirrors at hx
  unfold Mirrors
  generalize x.run p = r at hx
  generalize y.run p = r' at hx
  cases hx with
  | ok hR => exact .ok (h _ _ _ hR)
  | error => exact .error

/-- The second parser goes on to make something of its result. -/
theorem result {R' : α → δ → ParseState → Prop} {r : β → δ}
    (hx : Mirrors p (fun a b q => R' a (r b) q) x y) :
    Mirrors p R' x (do return r (← y)) := by
  have := hx.bind (T := R') (f := Pure.pure) (g := fun b => Pure.pure (r b)) fun _ _ _ h => .pure h
  rwa [bind_pure] at this

/-- A success of the second parser is one of the first. -/
theorem of_ok (hx : Mirrors p R x y) {b : β} {q : ParseState} (hy : y.run p = (.ok b, q)) :
    ∃ a, x.run p = (.ok a, q) ∧ R a b q := by
  unfold Mirrors at hx
  rw [hy] at hx
  generalize x.run p = r at hx
  cases hx with
  | ok h => exact ⟨_, rfl, h⟩

/-- Parsers with the same results everywhere are equal. -/
theorem eq {y : Parser α} (h : ∀ p, Mirrors p (fun a b _ => a = b) x y) : x = y := by
  funext p
  have hp := h p
  unfold Mirrors at hp
  show x.run p = y.run p
  generalize x.run p = r at hp
  generalize y.run p = r' at hp
  cases hp with
  | ok h => rw [h]
  | error => rfl

end Mirrors

end TypedExpr.Parser
