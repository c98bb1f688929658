import Mathlib.Algebra.GroupWithZero.Nat
import Mathlib.Tactic.Choose
import TypedExpr.Eval
import TypedExpr.Proofs.Steps
/-!
# What is evaluated at most once

An evaluation with a gap goes on by what is put in the gap: an evaluation of a value, and one of a
place. It uses the gap at most once if from every state the gap makes no difference, or else all
that matters is what one of the two comes to from one state. A node evaluates its parts one after
the other, so a gap that occurs in one of them only is used no more often than in that one.

* `Gap`, `Eval.Once`: what is put in a gap; the gap is used at most once.
* `Eval.Touches`: how a gap is used that occurs so many times. There is one rule for each construct
  of the monad.
* `Form.value_touches`, `Form.place_touches`: a node uses a gap as its parts do.
-/

namespace TypedExpr

/-- What is put in a gap. -/
structure Gap where
  value : Eval Value
  place : Eval Place

namespace Eval

variable {α β : Type} {n m : Nat} {F F' : Gap → Eval α} {G : Gap → α → Eval β} {st st' : EvalState}

/-- From a state the gap is not used, or just once and from one state, for its value or for its
place; then the evaluation goes on by what that comes to, and by nothing else of the gap. -/
inductive OnceFrom (F : Gap → Eval α) (st : EvalState) : Prop
  | never (out : Except EvalError α × EvalState) (h : ∀ g, (F g).run st = out)
  | value (st' : EvalState)
    (rest : Except EvalError Value × EvalState → Except EvalError α × EvalState)
    (h : ∀ g, (F g).run st = rest (g.value.run st'))
  | place (st' : EvalState)
    (rest : Except EvalError Place × EvalState → Except EvalError α × EvalState)
    (h : ∀ g, (F g).run st = rest (g.place.run st'))

/-- The gap is used at most once. -/
def Once (F : Gap → Eval α) : Prop := ∀ st, OnceFrom F st

/-- The gap is not used. -/
def Unused (F : Gap → Eval α) : Prop := ∃ x, ∀ g, F g = x

/-- How a gap is used that occurs so many times. -/
structure Touches (n : Nat) (F : Gap → Eval α) : Prop where
  unused (h : n = 0) : Unused F
  once (h : n ≤ 1) : Once F

theorem OnceFrom.congr (h : OnceFrom F st) (heq : ∀ g, (F' g).run st' = (F g).run st) :
    OnceFrom F' st' := by
  cases h with
  | never out h => exact .never out fun g => (heq g).trans (h g)
  | value st'' rest h => exact .value st'' rest fun g => (heq g).trans (h g)
  | place st'' rest h => exact .place st'' rest fun g => (heq g).trans (h g)

/-- What is done with the outcome does not use the gap again. -/
theorem OnceFrom.andThen (h : OnceFrom F st) {F' : Gap → Eval β}
    (next : Except EvalError α × EvalState → Except EvalError β × EvalState)
    (heq : ∀ g, (F' g).run st = next ((F g).run st)) : OnceFrom F' st := by
  cases h with
  | never out h => exact .never (next out) fun g => (heq g).trans (congrArg next (h g))
  | value st' rest h => exact .value st' (next ∘ rest) fun g => (heq g).trans (congrArg next (h g))
  | place st' rest h => exact .place st' (next ∘ rest) fun g => (heq g).trans (congrArg next (h g))

theorem Unused.once (h : Unused F) : Once F := by
  obtain ⟨x, hx⟩ := h
  exact fun st => .never (x.run st) fun g => by rw [hx g]

namespace Touches

theorem fixed (x : Eval α) : Touches n fun _ => x :=
  have h : Unused fun _ => x := ⟨x, fun _ => rfl⟩
  ⟨fun _ => h, fun _ => h.once⟩

theorem mono (h : Touches n F) (hle : n ≤ m) : Touches m F :=
  ⟨fun hm => h.unused (by omega), fun hm => h.once (by omega)⟩

/-- A gap in the first step and in the second occurs as often as in both together. -/
theorem bind (h : Touches n F) (h' : ∀ a, Touches m fun g => G g a) :
    Touches (n + m) fun g => F g >>= G g := by
  constructor
  · intro hnm
    obtain ⟨x, hx⟩ := h.unused (by omega)
    choose f hf using fun a => (h' a).unused (by omega)
    refine ⟨x >>= f, fun g => ?_⟩
    have hG : G g = f := funext fun a => hf a g
    show F g >>= G g = x >>= f
    rw [hx g, hG]
  · intro hnm st
    rcases Nat.eq_zero_or_pos n with hn | hn
    · -- the first step comes to the same whatever is in the gap
      obtain ⟨x, hx⟩ := h.unused hn
      rcases hrun : x.run st with ⟨e | a, st'⟩
      · exact .never (.error e, st') fun g => by rw [run_bind, hx g, hrun]
      · exact ((h' a).once (by omega) st').congr fun g => run_bind_of_ok (by rw [hx g, hrun])
    · -- the second step does the same whatever is in the gap
      choose f hf using fun a => (h' a).unused (by omega)
      refine (h.once (by omega) st).andThen (fun
        | (.ok a, st') => (f a).run st'
        | (.error e, st') => (.error e, st')) fun g => ?_
      have hG : G g = f := funext fun a => hf a g
      rw [run_bind, hG]
      rcases (F g).run st with ⟨_ | _, _⟩ <;> rfl

/-- A step without a gap before. -/
theorem after (x : Eval α) (h : ∀ a, Touches m fun g => G g a) : Touches m fun g => x >>= G g := by
  simpa using (fixed (n := 0) x).bind h

theorem ite {c : Prop} [Decidable c] (h : Touches n F) (h' : Touches n F') :
    Touches n fun g => if c then F g else F' g := by
  by_cases hc : c
  · simpa only [if_pos hc] using h
  · simpa only [if_neg hc] using h'

theorem inside (span : Span) (h : Touches n F) : Touches n fun g => inside span (F g) := by
  constructor
  · intro hn
    obtain ⟨x, hx⟩ := h.unused hn
    exact ⟨Eval.inside span x, fun g => congrArg _ (hx g)⟩
  · intro hn st
    exact (h.once hn st).andThen (fun out => (out.1.mapError (·.inside span), out.2)) fun g =>
      run_inside span (F g) st

/-- The gap itself. -/
theorem gap_value (h : 0 < n) : Touches n Gap.value :=
  ⟨fun hn => by omega, fun _ st => .value st id fun _ => rfl⟩

theorem gap_place (h : 0 < n) : Touches n Gap.place :=
  ⟨fun hn => by omega, fun _ st => .place st id fun _ => rfl⟩

end Touches

end Eval

/-- What is denoted uses a gap as often as it occurs, and the span does not depend on it. -/
structure Denoted.Touches (n : Nat) (span : Span) (d : Gap → Denoted) : Prop where
  span (g : Gap) : (d g).span = span
  value : Eval.Touches n fun g => (d g).value
  place : Eval.Touches n fun g => (d g).place

/-! ### Nodes -/

section

variable {α : Type} {D : Gap → α → Denoted} {occurs : α → Nat} {span : α → Span}

/-- The parts use a gap as often as it occurs in them. -/
abbrev Touched (D : Gap → α → Denoted) (occurs : α → Nat) (span : α → Span) (as : List α) : Prop :=
  ∀ a ∈ as, Denoted.Touches (occurs a) (span a) fun g => D g a

namespace Denoted

theorem values_touches {as : List α} (h : Touched D occurs span as) :
    Eval.Touches (as.map occurs).sum fun g => values (as.map (D g)) := by
  induction as with
  | nil => exact .fixed _
  | cons a as ih =>
    have hrest := ih fun b hb => h b (.tail _ hb)
    exact (h a (.head _)).value.bind fun _ => hrest.bind (m := 0) fun _ => .fixed _

theorem value?_touches {a : Option α} (h : Touched D occurs span a.toList) :
    Eval.Touches (a.toList.map occurs).sum fun g => value? (a.map (D g)) := by
  cases a with
  | none => exact .fixed _
  | some a => exact (h a (.head _)).value.bind (m := 0) fun _ => .fixed _

theorem insertAll_touches (reg : Registry) (insert : CallableId) (collection : Value) {as : List α}
    (h : Touched D occurs span as) :
    Eval.Touches (as.map occurs).sum fun g => insertAll reg insert collection (as.map (D g)) := by
  induction as with
  | nil => exact .fixed _
  | cons a as ih =>
    have hrest := ih fun b hb => h b (.tail _ hb)
    exact (h a (.head _)).value.bind fun _ => .after _ fun _ => hrest

/-- What a member is taken of. -/
theorem Touches.notNull {n : Nat} {span : Span} {d : Gap → Denoted} (h : Touches n span d)
    (use : String) : Eval.Touches n fun g => Eval.notNull (d g).span use (d g).value := by
  simp only [h.span]
  exact h.value.bind (m := 0) fun _ => .fixed _

end Denoted

namespace Form

theorem value_touches (reg : Registry) (t : Ty) {form : Form α}
    (h : Touched D occurs span form.parts) :
    Eval.Touches (form.parts.map occurs).sum fun g => (form.map (D g)).value reg t := by
  cases form with
  | int | double | bool | str | var => exact .fixed _
  | unary op plan e =>
    exact (h e (.head _)).value.bind fun _ => .fixed _
  | cast plan e => exact (h e (.head _)).value.bind fun _ => .fixed _
  | binary op plan l r =>
    have hl := h l (.head _)
    have hr := h r (.tail _ (.head _))
    refine hl.value.bind fun left => .ite (.after _ fun decided => .ite (.fixed _) ?_) ?_
    · exact hr.value.bind fun _ => .fixed _
    · exact hr.value.bind fun _ => .fixed _
  | ternary c y n =>
    have hc := h c (.head _)
    have hy := h y (.tail _ (.head _))
    have hn := h n (.tail _ (.tail _ (.head _)))
    refine hc.value.bind fun condition => .after _ fun decided => .ite ?_ ?_
    · exact hy.value.mono (Nat.le_add_right _ _)
    · exact hn.value.mono (Nat.le_add_left _ _)
  | assign target value =>
    have ht := h target (.head _)
    have hv := h value (.tail _ (.head _))
    exact ht.place.bind fun _ => hv.value.bind fun _ => .fixed _
  | compound op plan target value =>
    have ht := h target (.head _)
    have hv := h value (.tail _ (.head _))
    exact ht.place.bind fun _ => .after _ fun _ => hv.value.bind fun _ => .fixed _
  | step op before target =>
    exact (h target (.head _)).place.bind fun _ => .fixed _
  | index e i get set =>
    have he := (h e (.head _)).notNull "indexer"
    have hi := h i (.tail _ (.head _))
    exact he.bind fun _ => hi.value.bind fun _ => .fixed _
  | property receiver get set =>
    cases receiver with
    | none => exact .fixed _
    | some e =>
      have he := (h e (.head _)).notNull "property access"
      exact he.bind fun _ => .fixed _
  | method e callable args =>
    have he := (h e (.head _)).notNull "method call"
    have hargs := Denoted.values_touches fun a ha => h a (.tail _ ha)
    exact he.bind fun _ => hargs.bind (m := 0) fun _ => .fixed _
  | call callable args =>
    have hargs := Denoted.values_touches h
    exact hargs.bind (m := 0) fun _ => .fixed _
  | new constructor args items insert =>
    have hargs := Denoted.values_touches fun a ha => h a (List.mem_append_left _ ha)
    have hitems := fun id object => Denoted.insertAll_touches reg id object fun a ha =>
      h a (List.mem_append_right _ ha)
    show Eval.Touches (((args ++ items).map occurs).sum) _
    rw [List.map_append, List.sum_append]
    refine hargs.bind fun _ => .after _ fun object => ?_
    cases insert with
    | none => exact .fixed _
    | some insert => exact (hitems insert object).bind (m := 0) fun _ => .fixed _
  | newArray elem count items =>
    have hcount := Denoted.value?_touches fun a ha => h a (List.mem_append_left _ ha)
    have hitems := Denoted.values_touches fun a ha => h a (List.mem_append_right _ ha)
    show Eval.Touches (((count.toList ++ items).map occurs).sum) _
    rw [List.map_append, List.sum_append]
    simp only [Form.map, Form.value, List.length_map]
    refine hcount.bind fun _ => .after _ fun _ => hitems.bind (m := 0) fun _ => .fixed _

theorem place_touches (nodeSpan : Span) (t : Ty) {form : Form α}
    (h : Touched D occurs span form.parts) :
    Eval.Touches (form.parts.map occurs).sum fun g => (form.map (D g)).place nodeSpan t := by
  cases form with
  | index e i get set =>
    cases set with
    | none => exact .fixed _
    | some set =>
      have he := (h e (.head _)).notNull "indexer"
      have hi := h i (.tail _ (.head _))
      exact he.bind fun _ => hi.value.bind fun _ => .fixed _
  | property receiver get set =>
    cases set with
    | none => cases receiver <;> exact .fixed _
    | some set =>
      cases receiver with
      | none => exact .fixed _
      | some e =>
        have he := (h e (.head _)).notNull "property access"
        exact he.bind fun _ => .fixed _
  | _ => exact .fixed _

end Form

end

end TypedExpr
