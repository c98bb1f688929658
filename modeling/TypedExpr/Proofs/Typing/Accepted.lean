import TypedExpr.Parse
import TypedExpr.Proofs.Parse.Passes
/-!
# What is accepted is well typed

Every builder obeys the rule for its form of node, and the literal that stands for an operation has
the type of the operation. So every node of an expression that is accepted obeys its rule, with
folding or without. This is one more relation that the parser respects: that of an expression to
itself, if it is well typed. Another one is that of a state to itself, if something holds of it that
a new node keeps.

* `Parser.accepted`: the relation of a well-typed expression to itself.
* `Parser.next_wellTyped`: **what is accepted is well typed.**
* `Parser.Invariant.next`: what a node that obeys its rule keeps is kept by parsing.
* `Setting.first?`: the first expression that is accepted.
-/

namespace TypedExpr

/-- Forms with equal parts are equal. -/
theorem Form.Rel.eq {α : Type} {f f' : Form α} (h : Form.Rel Eq f f') : f' = f := by
  obtain ⟨both, hR, rfl, rfl⟩ := h
  exact map_congr fun x hx => (hR x hx).symm

/-- Equal forms, as forms with equal parts of which something is known. -/
theorem Form.Rel.eq_and {α : Type} {P : α → Prop} {f f' : Form α}
    (h : Form.Rel (fun a b => a = b ∧ P a) f f') : f' = f ∧ ∀ a ∈ f.parts, P a := by
  obtain ⟨both, hR, rfl, rfl⟩ := h
  refine ⟨map_congr fun x hx => (hR x hx).1.symm, fun a ha => ?_⟩
  rw [parts_map] at ha
  obtain ⟨x, hx, rfl⟩ := List.mem_map.1 ha
  exact (hR x hx).2

theorem Form.parts_ofValue {α : Type} {v : Value} {form : Form α} (h : ofValue? v = some form) :
    form.parts = [] := by
  cases v <;> simp only [ofValue?, Option.some.injEq, reduceCtorEq] at h <;> subst h <;> rfl

namespace Expr

variable {reg : Registry} {scope : Scope}

variable {e : Expr} {form : Form Expr}

/-- The literal that stands for an operation is that of a value of its type. -/
theorem exists_of_folded? (h : e.folded? reg = some form) :
    ∃ v : Value, v.type? = some e.type ∧ Form.ofValue? v = some form := by
  obtain ⟨v, -, hform⟩ := Option.bind_eq_some_iff.1 h
  split at hform
  · rename_i ht
    exact ⟨v, ht, hform⟩
  · cases hform

theorem Rule.folded (h : e.folded? reg = some form) : Rule reg scope e.type form [] := by
  obtain ⟨v, ht, hform⟩ := exists_of_folded? h
  exact .ofValue ht hform

/-- The literal that stands for an operation is well typed. -/
theorem WellTyped.folded (h : e.folded? reg = some form) (n : Nat) :
    WellTyped reg scope (.node n e.span e.type form) := by
  refine .node (.folded h) fun part hpart => ?_
  obtain ⟨v, -, hform⟩ := exists_of_folded? h
  rw [Form.parts_ofValue hform] at hpart
  cases hpart

end Expr

namespace Parser

/-- The relation of a well-typed expression to itself. -/
def accepted (s : Setting) : Simulation s s.options.fold where
  state := ⟨fun p q => p = q, fun _ _ => False⟩
  expr e e' := e = e' ∧ Expr.WellTyped s.registry s.scope e
  position h := by cases h; rfl
  move h := by cases h; rfl
  name h _ := by cases h; rfl
  types h _ := by cases h; rfl
  type h := by rw [h.1]
  span h := by rw [h.1]
  settable h := by rw [h.1]
  count h _ hn := .inl (by rw [h.1, hn])
  push span h hf := by
    obtain ⟨rfl, hparts⟩ := hf.eq_and
    refine ⟨fun hp => ?_, fun _ _ he => he, fun {p p' q e} hS hp => ?_⟩
    · cases hp
      exact ⟨_, rfl, .node h hparts⟩
    · cases hS
      cases hp
      exact .inl ⟨_, _, rfl, rfl, rfl, .node h hparts⟩
  folded {e _} h := by
    obtain ⟨rfl, hw⟩ := h
    have hkept {a : Expr} {p q : ParseState} (hp : (Parser.fold s e).run p = (.ok a, q)) :
        Expr.WellTyped s.registry s.scope a := by
      rcases fold_cases hp with ⟨rfl, -⟩ | ⟨-, form, c, hf, rfl, -, -⟩
      · exact hw
      · exact .folded hf _
    refine ⟨fun hp => ⟨_, rfl, hkept hp⟩, fun _ _ he => he, fun {p p' q a} hS hp => ?_⟩
    cases hS
    exact .inl ⟨a, p', hp, rfl, rfl, hkept hp⟩

/-- **What is accepted is well typed.** -/
theorem next_wellTyped {s : Setting} {p q : ParseState} {e : Expr}
    (h : (next s).run p = (.ok (some e), q)) : Expr.WellTyped s.registry s.scope e := by
  obtain ⟨_, _, -, -, he⟩ | ⟨_, _, -, ⟨⟩⟩ := (accepted s).next.matched rfl h
  cases he with
  | some he => exact he.2

/-! ### Invariants -/

/-- What holds of a state whatever is read and mentioned, and still does with one more node that
obeys its rule. -/
structure Invariant (s : Setting) (P : ParseState → Prop) : Prop where
  frame {p q : ParseState} (h : P p) (hnodes : q.nodes = p.nodes) (htable : q.table = p.table) : P q
  build {p : ParseState} {t : Ty} {form : Form Expr} {uses : List Use} (h : P p) (span : Span)
    (hrule : Expr.Rule s.registry s.scope t form uses) :
    P (p.build (.node p.nodes.size span t form))

namespace Invariant

variable {s : Setting} {P : ParseState → Prop}

/-- The relation of a state to itself, if the invariant holds of it. -/
def simulation (hP : Invariant s P) : Simulation s s.options.fold where
  state := ⟨fun p q => p = q ∧ P p, fun _ _ => False⟩
  expr e e' := e = e'
  position h := by rw [h.1]
  move h := ⟨by rw [h.1], hP.frame h.2 rfl rfl⟩
  name h _ := ⟨by rw [h.1], hP.frame h.2 rfl rfl⟩
  types h _ := ⟨by rw [h.1], hP.frame h.2 rfl rfl⟩
  type h := by rw [h]
  span h := by rw [h]
  settable h := by rw [h]
  count h _ hn := .inl (by rw [h, hn])
  push span h hf := by
    obtain rfl := hf.eq
    refine ⟨fun hp => ⟨_, rfl⟩, fun _ _ he => he, fun {p p' q e} hS hp => ?_⟩
    obtain ⟨rfl, hp'⟩ := hS
    cases hp
    exact .inl ⟨_, _, rfl, ⟨rfl, hP.build hp' span h⟩, rfl⟩
  folded {e _} h := by
    subst h
    refine ⟨fun hp => ⟨_, rfl⟩, fun _ _ he => he, fun {p p' q a} hS hp => ?_⟩
    obtain ⟨rfl, hp'⟩ := hS
    refine .inl ⟨a, p', hp, ⟨rfl, ?_⟩, rfl⟩
    rcases fold_cases hp with ⟨-, rfl⟩ | ⟨-, form, c, hf, rfl, rfl, -⟩
    · exact hp'
    · exact hP.frame (hP.build hp' e.span (.folded hf)) rfl rfl

/-- What a new node keeps is kept by parsing. -/
theorem next (hP : Invariant s P) {p q : ParseState} {root : Option Expr} (hp : P p)
    (h : (Parser.next s).run p = (.ok root, q)) : P q := by
  obtain ⟨_, _, hq, ⟨rfl, hp'⟩, -⟩ | ⟨_, _, -, ⟨⟩⟩ := hP.simulation.next.matched ⟨rfl, hp⟩ h
  exact hp'

end Invariant

end Parser

/-- The first expression, if it is accepted and not empty. -/
def Setting.first? (s : Setting) : Option Expr :=
  match ((Parser.next s).run (.start .initial)).1 with
  | .ok e => e
  | .error _ => none

theorem Setting.exists_next {s : Setting} {e : Expr} (h : s.first? = some e) :
    ∃ q, (Parser.next s).run (.start .initial) = (.ok (some e), q) := by
  unfold first? at h
  rcases hrun : (Parser.next s).run (.start .initial) with ⟨_ | root, q⟩
  · rw [hrun] at h
    cases h
  · rw [hrun] at h
    cases h
    exact ⟨q, rfl⟩

end TypedExpr
