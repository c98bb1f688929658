import TypedExpr.Eval
import TypedExpr.Proofs.Evaluation.Discipline
import TypedExpr.Proofs.Typing.Fits
import TypedExpr.Proofs.Typing.Uses
/-!
# Recorded calls

Every call of the host is recorded before it is made. What the host gives back is checked for
members, functions and constructors. It is not for overloaded operators and for casts, so these must
deliver what they are called for.

* `Use.Takes`: the arguments with which a use is called.
* `Use.Delivers`: what is asked of the callable, if its results are not checked.
* `Expr.Calls`: the calls that the evaluation of an expression may make.
* `Registry.recording`: all calls made after some others are of a kind.
-/

namespace TypedExpr

variable {reg : Registry}

/-! ### Arguments and results -/

/-- Values conform to types one to one. -/
def Registry.ConformAll (reg : Registry) (ts : List Ty) (vs : List Value) : Prop :=
  List.Forall₂ (fun t v => reg.conforms v t = true) ts vs

/-- The callable is called with arguments that conform to the parameters, or for an assignment with
an operation to an integer, which is not promoted for a parameter of type double. -/
inductive Use.Takes (reg : Registry) (use : Use) : List Value → Prop where
  | conforming {args : List Value} (h : reg.ConformAll use.params args) : Takes reg use args
  | unpromoted {q : Ty} {v u : Value} (hu : use.reception = .stored) (ht : use.ret = .int)
    (hp : use.params = [.double, q]) (h : reg.ConformAll [.int, q] [v, u]) : Takes reg use [v, u]

/-- What the callable gives, called for a result of the type, has a property. -/
def Registry.Gives (reg : Registry) (id : CallableId) (t : Ty) (P : Value → Prop) : Prop :=
  ∀ c, reg.callable? id = some c → ∀ args label heap v,
    ((c.function.run ⟨args, t, label⟩).run heap).1 = .ok v → P v

/-- Where it is not checked, what the callable gives fits the type it is called for, promoted if it
is stored. -/
def Use.Delivers (reg : Registry) (use : Use) : Prop :=
  match use.reception with
  | .checked => True
  | .trusted => reg.Gives use.callable use.ret (reg.Fits use.ret)
  | .stored => reg.Gives use.callable use.ret fun v => reg.Fits use.ret (v.promote use.ret)

/-- An integer does not fit a double, so what fits is not changed. -/
theorem Registry.Fits.promote {t : Ty} {v : Value} (h : reg.Fits t v) :
    reg.Fits t (v.promote t) := by
  by_cases ht : t = .double
  · subst ht
    cases v with
    | int n => exact of_type? rfl
    | _ => exact h
  · rwa [Value.promote_of_ne ht]

/-- What delivers gives what fits, once it is promoted. -/
theorem Use.Delivers.gives {use : Use} (h : use.Delivers reg) (hr : use.reception ≠ .checked) :
    reg.Gives use.callable use.ret fun v => reg.Fits use.ret (v.promote use.ret) := by
  unfold Use.Delivers at h
  split at h
  · exact absurd ‹_› hr
  · exact fun c hc args label heap v hv => (h c hc args label heap v hv).promote
  · exact h

/-- A call that the evaluation of the expression may make: for a use in one of its nodes, or for the
text of an object. -/
inductive Expr.Calls (reg : Registry) (scope : Scope) (e : Expr) : CallRecord → Prop where
  | use {use : Use} {args : List Value} (h : e.Uses reg scope use) (ha : use.Takes reg args) :
    Calls reg scope e ⟨use.callable, args, use.ret⟩
  | text {t : Ty} {p : Nat} {method : ResolvedCall} (h : reg.textMethod? t = some method)
    (ha : reg.ConformAll (t :: method.params) [.object t p]) :
    Calls reg scope e ⟨method.callable, [.object t p], method.ret⟩

namespace Registry

theorem Gives.any (id : CallableId) (t : Ty) : reg.Gives id t fun _ => True :=
  fun _ _ _ _ _ _ _ => trivial

/-- An object is what its own method for a text is called with. -/
theorem textMethod?_conforms {t : Ty} {method : ResolvedCall} (h : reg.textMethod? t = some method)
    (p : Nat) : reg.ConformAll (t :: method.params) [.object t p] := by
  unfold textMethod? at h
  split at h
  · rename_i call hcall
    split at h
    · cases h
      rw [List.forall₂_nil_left_iff.1 (resolveMethod_assignable hcall)]
      exact .cons (Fits.of_type? rfl (ne_void_of_resolveMethod hcall)) .nil
    · cases h
  · cases h

/-! ### Steps in the world -/

/-- All calls made after some others are of a kind. Every fault may happen. -/
def recording (K : CallRecord → Prop) (calls : List CallRecord) :
    Discipline Discipline.Fixed World Fault where
  holds _ w := ∃ made, w.calls.toList = calls ++ made ∧ ∀ call ∈ made, K call
  allows _ := True

variable {K : CallRecord → Prop} {calls : List CallRecord} {id : CallableId} {args : List Value}
  {t : Ty}

/-- A call of the kind. -/
theorem records_call {P : Value → Prop} (hk : K ⟨id, args, t⟩) (hg : reg.Gives id t P) :
    (recording K calls).Keeps ⟨⟩ (reg.call id args t) fun _ => P := by
  rintro w ⟨made, hmade, hkind⟩
  cases hc : reg.callable? id with
  | none =>
    rw [run_call_of_none hc]
    exact ⟨⟨⟩, le_rfl, ⟨made, hmade, hkind⟩, trivial⟩
  | some c =>
    rw [run_call hc]
    refine ⟨⟨⟩, le_rfl, ⟨made ++ [⟨id, args, t⟩], ?_, ?_⟩, ?_⟩
    · simp [hmade]
    · intro call hcall
      rcases List.mem_append.1 hcall with hcall | hcall
      · exact hkind call hcall
      · rw [List.mem_singleton.1 hcall]
        exact hk
    · dsimp only
      split
      · exact hg c hc _ _ _ _ ‹_›
      · trivial

/-- A call whose result is checked. -/
theorem records_callFor (hk : K ⟨id, args, t⟩) :
    (recording K calls).Keeps ⟨⟩ (reg.callFor id args t) fun _ => reg.Fits t := by
  refine (records_call hk (Gives.any id t)).bind fun _ v _ _ => .ite (fun ht => ?_) fun ht => ?_
  · exact .pure fun h => absurd ht h
  · unfold conform
    dsimp only
    split
    · rename_i hc
      exact .pure fun _ => hc
    · exact .throw trivial

/-- A value as text, where the call that it may take is of the kind. -/
theorem records_toText {v : Value} (hk : ∀ t p method, v = .object t p →
      reg.textMethod? t = some method → K ⟨method.callable, [v], method.ret⟩) :
    (recording K calls).Keeps ⟨⟩ (reg.toText v) fun _ _ => True := by
  cases v with
  | object t p =>
    refine Discipline.Keeps.bind (Q := fun _ _ => True) (.modify (fun _ h => h) trivial) ?_
    intro _ _ _ _
    refine Discipline.Keeps.bind (Q := fun _ _ => True) (.modify (fun _ h => h) trivial) ?_
    intro _ _ _ _
    split
    · rename_i method hmethod
      have hcall := hk t p method rfl hmethod
      exact (records_call hcall (Gives.any _ _)).bind fun _ _ _ _ => .pure trivial
    · exact .pure trivial
  | _ => exact .pure trivial

end Registry

end TypedExpr
