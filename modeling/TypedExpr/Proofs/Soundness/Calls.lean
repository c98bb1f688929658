import TypedExpr.Eval
import TypedExpr.Proofs.Soundness.Resolved
/-!
# Calls that keep the heap typed

Calls of the host with arguments of the types for which the callable was chosen.

* `Registry.world`: what a step in the world does to the heap.
* `Registry.Has.reads`, `Registry.Has.conform`: a value is what its type says.
* `Registry.keeps_call`, `Registry.keeps_callFor`: **a callable that works gives a value of the type
  it is called for.**
* `Registry.keeps_toText`: the text of a value.
-/

namespace TypedExpr

open TypedExpr.Builtin

variable {reg : Registry} {l : Layout} {s t : Ty} {v w : Value}

/-! ### Conversions of values -/

theorem Layout.Knows.promote (h : l.Knows v) (t : Ty) : l.Knows (v.promote t) := by
  cases v with
  | int n =>
    show l.Knows (if t = .double then _ else _)
    split
    · exact .double _
    · exact h
  | _ => exact h

namespace Registry.Has

variable (hr : reg.Rooted)

include hr

theorem promote_eq (h : reg.Has l t v) : v.promote t = v := by
  by_cases ht : t = .double
  · subst ht
    obtain ⟨x, rfl⟩ := h.double hr
    rfl
  · exact Value.promote_of_ne ht v

theorem conform (h : reg.Has l t v) (ht : t ≠ .void) : reg.conform v t = .ok v := by
  unfold Registry.conform
  dsimp only
  rw [h.promote_eq hr, if_pos (h.fits ht)]

theorem reads (h : reg.Has l t v) : v.Reads Fault.Expected t where
  int ht := by
    subst ht
    obtain ⟨n, rfl⟩ := h.int hr
    exact .ok trivial
  double ht := by
    rcases ht with rfl | rfl
    · obtain ⟨n, rfl⟩ := h.int hr
      exact .ok trivial
    · obtain ⟨x, rfl⟩ := h.double hr
      exact .ok trivial
  bool ht := by
    subst ht
    obtain ⟨b, rfl⟩ := h.bool hr
    exact .ok trivial

/-- What can be stepped is a number. -/
theorem plain_of_step {plan : UnaryPlan} (h : reg.Has l t v) (hp : stepPlan? t = some plan) :
    v.Plain t := by
  cases t with
  | int =>
    obtain ⟨n, rfl⟩ := h.int hr
    exact .int n
  | double =>
    obtain ⟨x, rfl⟩ := h.double hr
    exact .double x
  | _ => cases hp

end Registry.Has

theorem Value.Plain.has (h : v.Plain t) (l : Layout) : reg.Has l t v := by
  cases h with
  | int n => exact has_int n
  | double x => exact has_double x
  | bool b => exact has_bool b
  | str s => exact has_str s

/-! ### Calls -/

/-- What a step in the world does to the heap. -/
def Registry.world (reg : Registry) : Discipline Layout World Fault :=
  ⟨fun l w => w.heap.Typed reg l, Fault.Expected⟩

namespace Run

theorem keeps_newArray {elem : Ty} {elems : Array Value} (h : ∀ v ∈ elems, reg.Has l elem v) :
    reg.world.Keeps l (newArray (.array elem) elems) fun l' v => reg.Has l' (.array elem) v :=
  fun _ hs => hs.allocArray h

end Run

namespace Registry

variable {id : CallableId} {params : List Ty} {args : List Value}

/-- A callable that works, called with what it may be called with. -/
theorem keeps_call (h : reg.Works reg.callables id params t)
    (ha : List.Forall₂ (reg.Has l) params args) :
    reg.world.Keeps l (reg.call id args t) fun l' v => reg.Has l' t v := by
  obtain ⟨c, hc, hsafe⟩ := h
  intro w hw
  obtain ⟨l', hl, hh, hv⟩ := hsafe l args (w.catalog.typeLabel t) ha w.heap hw
  rw [run_call hc]
  exact ⟨l', hl, hh, hv⟩

variable (hr : reg.Rooted)

include hr

theorem keeps_callFor (h : reg.Works reg.callables id params t)
    (ha : List.Forall₂ (reg.Has l) params args) :
    reg.world.Keeps l (reg.callFor id args t) fun l' v => reg.Has l' t v := by
  refine (keeps_call h ha).bind fun l' v _ hv => .ite (fun _ => .pure hv) fun ht => ?_
  rw [hv.conform hr ht]
  exact .pure hv

theorem keeps_toText (hs : reg.SafeIn reg) (hv : l.Knows v) :
    reg.world.Keeps l (reg.toText v) fun _ _ => True := by
  cases hv with
  | @object d vs p hp hd =>
    refine Discipline.Keeps.bind (Q := fun l' _ => l' = l) (.modify (fun _ h => h) rfl) ?_
    rintro _ _ - rfl
    refine Discipline.Keeps.bind (Q := fun l' _ => l' = _) (.modify (fun _ h => h) rfl) ?_
    rintro l' _ - rfl
    split
    · rename_i method hmethod
      unfold textMethod? at hmethod
      split at hmethod
      · rename_i call hcall
        split at hmethod
        · cases hmethod
          have hparams := resolveMethod_assignable hcall
          have hw := hs.resolveMethod hr hcall
          rw [List.forall₂_nil_left_iff.1 hparams] at hw
          refine (keeps_call hw (.cons (.of_type? (.object hp hd) rfl) .nil)).bind ?_
          exact fun _ _ _ _ => .pure trivial
        · cases hmethod
      · cases hmethod
    · exact .pure trivial
  | _ => exact .pure trivial

end Registry

end TypedExpr
