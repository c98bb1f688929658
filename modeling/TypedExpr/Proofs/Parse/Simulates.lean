import Mathlib.Data.List.Forall2
import TypedExpr.Parse.State
import TypedExpr.Proofs.Steps
/-!
# Runs of two parsers side by side

Two parsers are compared by their runs from related states: each success of the first is matched by
a success of the second, with related results and related states after it, or the second fails with
an error for which the nodes of the first excuse it. A failure of the first says nothing.

The first parser goes on when the second is excused. What it does then keeps the excuse, which is
why that is part of the comparison.

* `Parser.Coupling`: which states are related, and what the second parser may fail with.
* `Parser.Simulates`: the comparison.
* `Parser.Simulates.bind`: one step after the other.
* `Parser.Simulates.mapM`, `Parser.Simulates.foldlM`: a step for each item of a list.
-/

namespace TypedExpr.Parser

variable {α β γ δ : Type}

/-- What ties the runs of two parsers together. -/
structure Coupling where
  /-- The states from which the runs are compared. -/
  relates : ParseState → ParseState → Prop
  /-- What the second parser may fail with where the first has built these nodes. -/
  excuses : ParseError → Array Expr → Prop

/-- Every success of the first parser is matched by one of the second, which is run from a related
state: the results are related, and so are the states afterwards. Else the second is excused. -/
structure Simulates (S : Coupling) (R : α → β → Prop) (x : Parser α) (y : Parser β) : Prop where
  exists_related {p p' : ParseState} {a : α} (h : x.run p = (.ok a, p')) : ∃ b, R a b
  keeps {p p' : ParseState} {a : α} (h : x.run p = (.ok a, p')) {error : ParseError}
    (he : S.excuses error p.nodes) : S.excuses error p'.nodes
  matched {p p' q : ParseState} {a : α} (hS : S.relates p q) (h : x.run p = (.ok a, p')) :
    (∃ b q', y.run q = (.ok b, q') ∧ S.relates p' q' ∧ R a b) ∨
      ∃ error q', y.run q = (.error error, q') ∧ S.excuses error p'.nodes

namespace Simulates

variable {S : Coupling} {R : α → β → Prop} {T : γ → δ → Prop}

/-- Steps of which none builds a node or fails where the other does not. -/
theorem quiet {x : Parser α} {y : Parser β}
    (h : ∀ p a p', x.run p = (.ok a, p') → p'.nodes = p.nodes ∧ ∃ b, R a b ∧
      ∀ q, S.relates p q → ∃ q', y.run q = (.ok b, q') ∧ S.relates p' q') :
    Simulates S R x y where
  exists_related hp := by
    obtain ⟨-, b, hR, -⟩ := h _ _ _ hp
    exact ⟨b, hR⟩
  keeps hp _ he := by
    rw [(h _ _ _ hp).1]
    exact he
  matched hS hp := by
    obtain ⟨-, b, hR, hy⟩ := h _ _ _ hp
    obtain ⟨q', hq, hS'⟩ := hy _ hS
    exact .inl ⟨b, q', hq, hS', hR⟩

theorem pure {a : α} {b : β} (h : R a b) : Simulates S R (pure a) (pure b) := by
  refine .quiet fun p a' p' hp => ?_
  cases hp
  exact ⟨rfl, b, h, fun q hS => ⟨q, rfl, hS⟩⟩

/-- Once the second parser is excused, it is so whatever was to come. -/
theorem bind {x : Parser α} {y : Parser β} {f : α → Parser γ} {g : β → Parser δ}
    (hx : Simulates S R x y) (hf : ∀ a b, R a b → Simulates S T (f a) (g b)) :
    Simulates S T (x >>= f) (y >>= g) where
  exists_related hp := by
    obtain ⟨a, p', ha, hc⟩ := run_bind_ok.1 hp
    obtain ⟨b, hR⟩ := hx.exists_related ha
    exact (hf a b hR).exists_related hc
  keeps hp _ he := by
    obtain ⟨a, p', ha, hc⟩ := run_bind_ok.1 hp
    obtain ⟨b, hR⟩ := hx.exists_related ha
    exact (hf a b hR).keeps hc (hx.keeps ha he)
  matched hS hp := by
    obtain ⟨a, p', ha, hc⟩ := run_bind_ok.1 hp
    rcases hx.matched hS ha with ⟨b, q', hb, hS', hR⟩ | ⟨error, q', hb, he⟩
    · rw [run_bind_of_ok hb]
      exact (hf a b hR).matched hS' hc
    · -- the first parser goes on from here, and what it does keeps the excuse
      obtain ⟨b, hR⟩ := hx.exists_related ha
      refine .inr ⟨error, q', ?_, (hf a b hR).keeps hc he⟩
      rw [run_bind, hb]

theorem mono {R' : α → β → Prop} {x : Parser α} {y : Parser β} (hx : Simulates S R x y)
    (h : ∀ a b, R a b → R' a b) : Simulates S R' x y where
  exists_related hp := (hx.exists_related hp).imp (h _)
  keeps := hx.keeps
  matched hS hp := by
    refine (hx.matched hS hp).imp ?_ id
    rintro ⟨b, q', hb, hS', hR⟩
    exact ⟨b, q', hb, hS', h _ b hR⟩

/-- What is known of every result of the first parser alone. -/
theorem and {P : α → Prop} {x : Parser α} {y : Parser β} (hx : Simulates S R x y)
    (hP : ∀ p a q, x.run p = (.ok a, q) → P a) :
    Simulates S (fun a b => R a b ∧ P a) x y where
  exists_related hp := (hx.exists_related hp).imp fun _ hR => ⟨hR, hP _ _ _ hp⟩
  keeps := hx.keeps
  matched hS hp := by
    refine (hx.matched hS hp).imp ?_ id
    rintro ⟨b, q', hb, hS', hR⟩
    exact ⟨b, q', hb, hS', hR, hP _ _ _ hp⟩

/-- What never succeeds has no success to be matched. -/
theorem of_fails {x : Parser α} {y : Parser β} (hx : ∀ p a p', x.run p ≠ (.ok a, p')) :
    Simulates S R x y where
  exists_related hp := absurd hp (hx _ _ _)
  keeps hp := absurd hp (hx _ _ _)
  matched _ hp := absurd hp (hx _ _ _)

theorem refuse {d : Diagnostic} {line : Nat} {y : Parser β} : Simulates S R (refuse d line) y :=
  .of_fails fun _ _ _ hp => by cases hp

theorem throw {e : ParseError} {y : Parser β} : Simulates S R (throw e) y :=
  .of_fails fun _ _ _ hp => by cases hp

/-- What fails before it continues simulates anything. -/
theorem refuse_bind {d : Diagnostic} {line : Nat} {f : α → Parser γ} {y : Parser δ} :
    Simulates S T (Parser.refuse d line >>= f) y :=
  .of_fails fun _ _ _ hp => by cases hp

/-- Both parsers turn on the same condition. -/
theorem ite {c : Prop} [Decidable c] {x x' : Parser α} {y y' : Parser β}
    (hx : c → Simulates S R x y) (hx' : ¬c → Simulates S R x' y') :
    Simulates S R (if c then x else x') (if c then y else y') := by
  by_cases hc : c
  · rw [if_pos hc, if_pos hc]
    exact hx hc
  · rw [if_neg hc, if_neg hc]
    exact hx' hc

/-- A step for each item of two lists whose items are related one to one. -/
theorem mapM {f : α → Parser γ} {g : β → Parser δ} {as : List α} {bs : List β}
    (h : List.Forall₂ R as bs) (hf : ∀ a b, R a b → Simulates S T (f a) (g b)) :
    Simulates S (List.Forall₂ T) (as.mapM f) (bs.mapM g) := by
  induction h with
  | nil => simpa using Simulates.pure .nil
  | cons hab _ ih =>
    rw [List.mapM_cons, List.mapM_cons]
    refine (hf _ _ hab).bind fun c d hcd => ?_
    exact ih.bind fun cs ds hs => .pure (.cons hcd hs)

theorem foldlM {f : γ → α → Parser γ} {g : δ → β → Parser δ} {as : List α} {bs : List β}
    (h : List.Forall₂ R as bs)
    (hf : ∀ c d a b, T c d → R a b → Simulates S T (f c a) (g d b)) {c : γ} {d : δ} (hcd : T c d) :
    Simulates S T (as.foldlM f c) (bs.foldlM g d) := by
  induction h generalizing c d with
  | nil => exact .pure hcd
  | cons hab _ ih =>
    rw [List.foldlM_cons, List.foldlM_cons]
    exact (hf c d _ _ hcd hab).bind fun c' d' h' => ih h'

end Simulates

end TypedExpr.Parser
