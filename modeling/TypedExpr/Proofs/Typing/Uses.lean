import TypedExpr.Proofs.Typing.Overload
/-!
# What a use resolves to

A member, a function or a constructor is used with the signature that its look-up has found, with
type arguments put in. A receiver, a container or a collection stands before the arguments.

* `Registry.Resolves`: the callable, the parameter types and the result type of a use.
* `Registry.resolveMethod_assignable`, …: the arguments convert to the parameters.
-/

namespace TypedExpr

/-- The argument before all others: none for what belongs to the definition itself. -/
def Ty.receiver (t : Ty) (isStatic : Bool) : List Ty := if isStatic then [] else [t]

namespace Registry

variable {reg : Registry} {t u : Ty}

/-- Some use in an expression resolves to the callable, with these parameter types and for this
result type. -/
inductive Resolves (reg : Registry) : CallableId → List Ty → Ty → Prop where
  | method {t : Ty} {name : String} {typeArgs sources : List Ty} {isStatic : Bool}
    {call : ResolvedCall} (h : reg.resolveMethod t name typeArgs sources isStatic = .ok call) :
    Resolves reg call.callable (t.receiver isStatic ++ call.params) call.ret
  | function {name : String} {typeArgs sources : List Ty} {call : ResolvedCall}
    (h : reg.resolveFunction name typeArgs sources = .ok call) :
    Resolves reg call.callable call.params call.ret
  | constructor {t : Ty} {sources : List Ty} {call : ResolvedCall}
    (h : reg.resolveConstructor t sources = .ok call) :
    Resolves reg call.callable call.params t
  | getter {t : Ty} {name : String} {isStatic : Bool} {p : ResolvedProperty}
    (h : reg.resolveProperty t name isStatic = .ok p) :
    Resolves reg p.get (t.receiver isStatic) p.type
  | setter {t : Ty} {name : String} {isStatic : Bool} {p : ResolvedProperty} {set : CallableId}
    (h : reg.resolveProperty t name isStatic = .ok p) (hs : p.set = some set) :
    Resolves reg set (t.receiver isStatic ++ [p.type]) .void
  | itemGetter {t : Ty} {i : ResolvedIndexer} (h : reg.resolveIndexer t = .ok i) :
    Resolves reg i.get [t, i.index] i.elem
  | itemSetter {t : Ty} {i : ResolvedIndexer} {set : CallableId} (h : reg.resolveIndexer t = .ok i)
    (hs : i.set = some set) : Resolves reg set [t, i.index, i.elem] .void
  | insertion {t : Ty} {i : ResolvedInsertion} (h : reg.resolveInsertion t = .ok i) :
    Resolves reg i.callable [t, i.elem] .void

/-! ### Candidates -/

theorem mem_lineage {def' : Definition} {args : List Ty} (h : (def', args) ∈ reg.lineage t) :
    ∃ u d, reg.isSubtype t u = true ∧ defOf? u = some (d, args) ∧ def' = reg.definition d := by
  obtain ⟨u, hu, hd⟩ := List.mem_filterMap.1 h
  obtain ⟨⟨d, args'⟩, hdef, heq⟩ := Option.map_eq_some_iff.1 hd
  cases heq
  exact ⟨u, d, decide_eq_true hu, hdef, rfl⟩

theorem mem_operatorCandidates {key : OperatorKey} {c : Candidate}
    (h : c ∈ reg.operatorCandidates t key) :
    ∃ u d, defOf? u = some (d, c.typeArgs) ∧ (key, c.overload) ∈ (reg.definition d).operators := by
  obtain ⟨⟨def', args⟩, hmem, hc⟩ := List.mem_flatMap.1 h
  obtain ⟨⟨k, o⟩, ho, hc⟩ := List.mem_filterMap.1 hc
  dsimp only at hc
  split at hc
  · rename_i hk
    cases hc
    subst hk
    obtain ⟨u, d, -, hu, rfl⟩ := mem_lineage hmem
    exact ⟨u, d, hu, ho⟩
  · cases hc

theorem ne_void_of_isSubtype {d : DefId} {args : List Ty} (h : reg.isSubtype t u = true)
    (hu : defOf? u = some (d, args)) : t ≠ .void := by
  rintro rfl
  rw [isSubtype_of_definition?_eq_none rfl h] at hu
  cases hu

theorem call_nil (o : Overload) (args : List Ty) :
    (Candidate.mk o args).call [] =
      ⟨o.callable, o.params.map (·.instantiate args), o.ret.instantiate args⟩ := by
  simp [Candidate.call]

theorem mem_of_leastBy {α : Type} {rank : α → Nat} {as : List α} {a : α}
    (h : leastBy rank as = some a) : a ∈ as := by
  induction as generalizing a with
  | nil => cases h
  | cons b bs ih =>
    rw [leastBy] at h
    split at h
    · rename_i c hc
      obtain rfl := Option.some.inj h
      split
      · exact .tail _ (ih hc)
      · exact .head _
    · cases h
      exact .head _

/-! ### Arguments -/

section Arguments

variable {typeArgs sources : List Ty} {call : ResolvedCall}

theorem resolveMethod_assignable {name : String} {isStatic : Bool}
    (h : reg.resolveMethod t name typeArgs sources isStatic = .ok call) :
    List.Forall₂ (fun s p => reg.isAssignable s p = true) sources call.params := by
  unfold Registry.resolveMethod at h
  dsimp only at h
  split at h
  · cases h
  · obtain ⟨c, -, -, rfl, ha⟩ := select_ok h
    exact ha

theorem resolveFunction_assignable {name : String}
    (h : reg.resolveFunction name typeArgs sources = .ok call) :
    List.Forall₂ (fun s p => reg.isAssignable s p = true) sources call.params := by
  unfold Registry.resolveFunction at h
  split at h
  · obtain ⟨c, -, -, rfl, ha⟩ := select_ok h
    exact ha
  · cases h

/-- A constructor is selected like a method; its result is the type itself. -/
theorem resolveConstructor_ok (h : reg.resolveConstructor t sources = .ok call) :
    ∃ call', reg.select (reg.constructorCandidates t) [] sources = .ok call' ∧
      { call' with ret := t } = call := by
  unfold Registry.resolveConstructor at h
  dsimp only at h
  split at h
  · cases h
  · cases hsel : reg.select (reg.constructorCandidates t) [] sources with
    | ok call' =>
      rw [hsel] at h
      exact ⟨call', rfl, Except.ok.inj h⟩
    | error _ =>
      rw [hsel] at h
      cases h

theorem resolveConstructor_assignable (h : reg.resolveConstructor t sources = .ok call) :
    List.Forall₂ (fun s p => reg.isAssignable s p = true) sources call.params := by
  obtain ⟨call', hselect, rfl⟩ := resolveConstructor_ok h
  obtain ⟨c, -, -, rfl, ha⟩ := select_ok hselect
  exact ha

end Arguments

/-- What has no definition has no methods. -/
theorem ne_void_of_resolveMethod {name : String} {typeArgs sources : List Ty} {isStatic : Bool}
    {call : ResolvedCall} (h : reg.resolveMethod t name typeArgs sources isStatic = .ok call) :
    t ≠ .void := by
  rintro rfl
  cases h

/-- Nothing can be made that has no constructors. -/
theorem ne_void_of_resolveConstructor {sources : List Ty} {call : ResolvedCall}
    (h : reg.resolveConstructor t sources = .ok call) : t ≠ .void := by
  rintro rfl
  cases h

end Registry

end TypedExpr
