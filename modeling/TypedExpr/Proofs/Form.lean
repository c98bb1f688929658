import Mathlib.Data.List.Forall2
import TypedExpr.Expr
/-!
# Expressions and their forms

Two forms are alike if they are the same but for their parts, and these are related one to one.

* `Expr.induct`: what holds of a node if it holds of its parts holds of every expression.
* `Form.Rel`: the relation of forms.
* `Form.Rel.map_eq`: alike forms become equal when related parts are mapped to equals.
-/

namespace TypedExpr

theorem Expr.induct {P : Expr → Prop}
    (h : ∀ number span t form, (∀ e ∈ form.parts, P e) → P (.node number span t form)) (e : Expr) :
    P e := by
  have one {a : Expr} (ha : P a) : ∀ e ∈ [a], P e := List.forall_mem_singleton.2 ha
  have two {a b : Expr} (ha : P a) (hb : P b) : ∀ e ∈ [a, b], P e :=
    List.forall_mem_cons.2 ⟨ha, one hb⟩
  have optional {o : Option Expr} (ho : ∀ e ∈ o, P e) : ∀ e ∈ o.toList, P e :=
    fun e he => ho e (Option.mem_toList.1 he)
  refine @Expr.rec P (fun form => ∀ e ∈ form.parts, P e) (fun o => ∀ e ∈ o, P e)
    (fun es => ∀ e ∈ es, P e) h
    -- literals, variables and operations
    (fun _ => nofun) (fun _ => nofun) (fun _ => nofun) (fun _ => nofun) (fun _ => nofun)
    (fun _ _ _ => one) (fun _ _ _ _ => two)
    (fun _ _ _ hc hy hn => List.forall_mem_cons.2 ⟨hc, two hy hn⟩)
    (fun _ _ => two) (fun _ _ _ _ => two) (fun _ _ _ => one) (fun _ _ => one)
    -- members, calls and constructions
    (fun _ _ _ _ => two) (fun _ _ _ => optional)
    (fun _ _ _ hr hargs => List.forall_mem_cons.2 ⟨hr, hargs⟩) (fun _ _ hargs => hargs)
    (fun _ _ _ _ hargs hitems => List.forall_mem_append.2 ⟨hargs, hitems⟩)
    (fun _ _ _ hcount hitems => List.forall_mem_append.2 ⟨optional hcount, hitems⟩)
    -- what may be absent, and lists
    nofun (fun _ ha _ he => Option.some.inj he ▸ ha)
    nofun (fun _ _ ha has => List.forall_mem_cons.2 ⟨ha, has⟩) e

namespace Form

variable {α β γ : Type}

theorem map_map (f : α → β) (g : β → γ) (form : Form α) :
    (form.map f).map g = form.map (g ∘ f) := by
  cases form with
  | property receiver => cases receiver <;> rfl
  | newArray _ count => cases count <;> simp [map]
  | _ => simp [map]

theorem map_congr {f g : α → β} {form : Form α} (h : ∀ a ∈ form.parts, f a = g a) :
    form.map f = form.map g := by
  cases form with
  | property receiver => cases receiver <;> simp_all [map, parts]
  | newArray _ count => cases count <;> simp_all [map, parts]
  | new => simp_all [map, parts, or_imp, forall_and]
  | _ => simp_all [map, parts]

@[simp] theorem isExecutable_map (f : α → β) (t : Ty) (form : Form α) :
    (form.map f).isExecutable t = form.isExecutable t := by
  cases form <;> rfl

/-- The forms are the same but for their parts, which are related one to one. -/
def Rel (R : α → β → Prop) (f : Form α) (g : Form β) : Prop :=
  ∃ both : Form (α × β), (∀ x ∈ both.parts, R x.1 x.2) ∧ both.map Prod.fst = f ∧
    both.map Prod.snd = g

/-- Related lists are the two halves of a list of related pairs. -/
theorem exists_zip {R : α → β → Prop} {as : List α} {bs : List β} (h : List.Forall₂ R as bs) :
    ∃ zs : List (α × β), (∀ z ∈ zs, R z.1 z.2) ∧ zs.map Prod.fst = as ∧ zs.map Prod.snd = bs := by
  induction h with
  | nil => exact ⟨[], by simp, rfl, rfl⟩
  | @cons a b _ _ hab _ ih =>
    obtain ⟨zs, hR, rfl, rfl⟩ := ih
    refine ⟨(a, b) :: zs, fun z hz => ?_, rfl, rfl⟩
    rcases List.mem_cons.1 hz with rfl | hz
    · exact hab
    · exact hR z hz

namespace Rel

variable {R : α → β → Prop}

theorem map_eq {f : Form α} {g : Form β} (h : Rel R f g) {u : α → γ} {v : β → γ}
    (huv : ∀ a b, R a b → u a = v b) : f.map u = g.map v := by
  obtain ⟨both, hR, rfl, rfl⟩ := h
  rw [map_map, map_map]
  exact map_congr fun x hx => huv _ _ (hR x hx)

theorem swap {f : Form α} {g : Form β} (h : Rel R f g) : Rel (fun b a => R a b) g f := by
  obtain ⟨both, hR, rfl, rfl⟩ := h
  refine ⟨both.map Prod.swap, fun x hx => ?_, map_map _ _ _, map_map _ _ _⟩
  rw [parts_map] at hx
  obtain ⟨y, hy, rfl⟩ := List.mem_map.1 hx
  exact hR y hy

theorem unary {a : α} {b : β} (op : UnaryOp) (plan : UnaryPlan) (h : R a b) :
    Rel R (.unary op plan a) (.unary op plan b) :=
  ⟨.unary op plan (a, b), by simpa [parts] using h, rfl, rfl⟩

theorem step {a : α} {b : β} (op : StepOp) (before : Bool) (h : R a b) :
    Rel R (.step op before a) (.step op before b) :=
  ⟨.step op before (a, b), by simpa [parts] using h, rfl, rfl⟩

theorem cast {a : α} {b : β} (plan : CastPlan) (h : R a b) :
    Rel R (.cast plan a) (.cast plan b) :=
  ⟨.cast plan (a, b), by simpa [parts] using h, rfl, rfl⟩

theorem binary {a a' : α} {b b' : β} (op : BinaryOp) (plan : BinaryPlan) (h : R a b)
    (h' : R a' b') : Rel R (.binary op plan a a') (.binary op plan b b') :=
  ⟨.binary op plan (a, b) (a', b'), by simpa [parts] using ⟨h, h'⟩, rfl, rfl⟩

theorem ternary {a a' a'' : α} {b b' b'' : β} (h : R a b) (h' : R a' b') (h'' : R a'' b'') :
    Rel R (.ternary a a' a'') (.ternary b b' b'') :=
  ⟨.ternary (a, b) (a', b') (a'', b''), by simpa [parts] using ⟨h, h', h''⟩, rfl, rfl⟩

theorem assign {a a' : α} {b b' : β} (h : R a b) (h' : R a' b') :
    Rel R (.assign a a') (.assign b b') :=
  ⟨.assign (a, b) (a', b'), by simpa [parts] using ⟨h, h'⟩, rfl, rfl⟩

theorem compound {a a' : α} {b b' : β} (op : BinaryOp) (plan : BinaryPlan) (h : R a b)
    (h' : R a' b') : Rel R (.compound op plan a a') (.compound op plan b b') :=
  ⟨.compound op plan (a, b) (a', b'), by simpa [parts] using ⟨h, h'⟩, rfl, rfl⟩

theorem index {a a' : α} {b b' : β} (get : CallableId) (set : Option CallableId) (h : R a b)
    (h' : R a' b') : Rel R (.index a a' get set) (.index b b' get set) :=
  ⟨.index (a, b) (a', b') get set, by simpa [parts] using ⟨h, h'⟩, rfl, rfl⟩

theorem property {a : Option α} {b : Option β} (get : CallableId) (set : Option CallableId)
    (h : Option.Rel R a b) : Rel R (.property a get set) (.property b get set) := by
  cases h with
  | none => exact ⟨.property none get set, by simp [parts], rfl, rfl⟩
  | @some a b hab => exact ⟨.property (some (a, b)) get set, by simpa [parts] using hab, rfl, rfl⟩

theorem method {a : α} {b : β} {as : List α} {bs : List β} (callable : CallableId) (h : R a b)
    (hs : List.Forall₂ R as bs) : Rel R (.method a callable as) (.method b callable bs) := by
  obtain ⟨zs, hR, rfl, rfl⟩ := exists_zip hs
  exact ⟨.method (a, b) callable zs, by simpa [parts] using ⟨h, fun a b => hR (a, b)⟩, rfl, rfl⟩

theorem call {as : List α} {bs : List β} (callable : CallableId) (hs : List.Forall₂ R as bs) :
    Rel R (.call callable as) (.call callable bs) := by
  obtain ⟨zs, hR, rfl, rfl⟩ := exists_zip hs
  exact ⟨.call callable zs, hR, rfl, rfl⟩

theorem new {as as' : List α} {bs bs' : List β} (callable : CallableId)
    (insert : Option CallableId) (hs : List.Forall₂ R as bs) (hs' : List.Forall₂ R as' bs') :
    Rel R (.new callable as as' insert) (.new callable bs bs' insert) := by
  obtain ⟨zs, hR, rfl, rfl⟩ := exists_zip hs
  obtain ⟨zs', hR', rfl, rfl⟩ := exists_zip hs'
  refine ⟨.new callable zs zs' insert, fun x hx => ?_, rfl, rfl⟩
  rcases List.mem_append.1 hx with hx | hx
  · exact hR x hx
  · exact hR' x hx

theorem newArray {a : Option α} {b : Option β} {as : List α} {bs : List β} (elem : Ty)
    (h : Option.Rel R a b) (hs : List.Forall₂ R as bs) :
    Rel R (.newArray elem a as) (.newArray elem b bs) := by
  obtain ⟨zs, hR, rfl, rfl⟩ := exists_zip hs
  cases h with
  | none => exact ⟨.newArray elem none zs, hR, rfl, rfl⟩
  | @some a b hab =>
    refine ⟨.newArray elem (some (a, b)) zs, fun x hx => ?_, rfl, rfl⟩
    rcases List.mem_cons.1 hx with rfl | hx
    · exact hab
    · exact hR x hx

/-- A form without parts is alike to itself, whatever its parts would be. -/
theorem leaf (both : Form (α × β)) (h : both.parts = []) :
    Rel R (both.map Prod.fst) (both.map Prod.snd) :=
  ⟨both, by simp [h], rfl, rfl⟩

end Rel

end Form

end TypedExpr
