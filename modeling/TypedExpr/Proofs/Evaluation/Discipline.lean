import Mathlib.Order.Basic
import TypedExpr.Proofs.Steps
/-!
# Steps that keep what is known

What is known of a state grows from step to step: the types of what is kept in a heap, say. A step
keeps to a discipline if from a state of which something is known it comes to one of which at least
as much is known, and fails only as is allowed.

* `Discipline`: what it is to know something of a state, and which failures may happen.
* `Discipline.Keeps`: a step keeps to it, and what it gives is described by what is known then.
-/

namespace TypedExpr

/-- What a state is like of which something is known, and how a step may fail. -/
structure Discipline (W σ ε : Type) where
  holds : W → σ → Prop
  allows : ε → Prop

namespace Discipline

/-- All that is known where nothing more ever will be. -/
structure Fixed where

instance : Preorder Fixed where
  le _ _ := True
  le_refl _ := trivial
  le_trans _ _ _ _ _ := trivial

variable {W σ ε α β : Type} [Preorder W] (D : Discipline W σ ε)

/-- From a state of which something is known the step comes to one of which at least as much is. -/
def Keeps (l : W) (x : ExceptT ε (StateM σ) α) (Q : W → α → Prop) : Prop :=
  ∀ s, D.holds l s → ∃ l', l ≤ l' ∧ D.holds l' (x.run s).2 ∧
    match (x.run s).1 with
    | .ok a => Q l' a
    | .error e => D.allows e

namespace Keeps

variable {D} {l : W} {x : ExceptT ε (StateM σ) α} {f : α → ExceptT ε (StateM σ) β}
  {Q Q' : W → α → Prop} {R : W → β → Prop}

theorem pure {a : α} (h : Q l a) : D.Keeps l (pure a) Q :=
  fun _ hs => ⟨l, le_rfl, hs, h⟩

theorem throw {e : ε} (h : D.allows e) : D.Keeps l (throw e) Q :=
  fun _ hs => ⟨l, le_rfl, hs, h⟩

theorem bind (hx : D.Keeps l x Q) (hf : ∀ l' a, l ≤ l' → Q l' a → D.Keeps l' (f a) R) :
    D.Keeps l (x >>= f) R := by
  intro s hs
  obtain ⟨l₁, hl₁, hs₁, hx⟩ := hx s hs
  rw [run_bind]
  rcases hrun : x.run s with ⟨_ | a, s₁⟩
  · rw [hrun] at hs₁ hx
    exact ⟨l₁, hl₁, hs₁, hx⟩
  · rw [hrun] at hs₁ hx
    obtain ⟨l₂, hl₂, hs₂, hf⟩ := hf l₁ a hl₁ hx s₁ hs₁
    exact ⟨l₂, hl₁.trans hl₂, hs₂, hf⟩

theorem mono (hx : D.Keeps l x Q) (h : ∀ l' a, l ≤ l' → Q l' a → Q' l' a) : D.Keeps l x Q' := by
  intro s hs
  obtain ⟨l', hl, hs', hx⟩ := hx s hs
  refine ⟨l', hl, hs', ?_⟩
  rcases hrun : x.run s with ⟨_ | a, s₁⟩
  · rw [hrun] at hx
    exact hx
  · rw [hrun] at hx
    exact h l' a hl hx

theorem ite {c : Prop} [Decidable c] {y : ExceptT ε (StateM σ) α} (hx : c → D.Keeps l x Q)
    (hy : ¬c → D.Keeps l y Q) : D.Keeps l (if c then x else y) Q := by
  by_cases hc : c
  · rw [if_pos hc]
    exact hx hc
  · rw [if_neg hc]
    exact hy hc

theorem get :
    D.Keeps l (MonadState.get : ExceptT ε (StateM σ) σ) fun l' s => l' = l ∧ D.holds l s :=
  fun _ hs => ⟨l, le_rfl, hs, rfl, hs⟩

theorem modify {f : σ → σ} {Q : W → Unit → Prop} (h : ∀ s, D.holds l s → D.holds l (f s))
    (hQ : Q l ()) : D.Keeps l (modify f : ExceptT ε (StateM σ) Unit) Q :=
  fun s hs => ⟨l, le_rfl, h s hs, hQ⟩

end Keeps

end Discipline

end TypedExpr
