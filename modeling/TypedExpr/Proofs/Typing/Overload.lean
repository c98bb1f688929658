import TypedExpr.Proofs.Typing.Rule
/-!
# What a selected overload takes

The overload that is meant by a use is one of the candidates, and the arguments convert to its
parameters one to one. So the operands of an operator convert to the types that its typing asks
for.

* `Registry.select_ok`: the selected candidate.
* `Registry.typeBinary_assignable`: the operands of an operator.
-/

namespace TypedExpr

namespace Registry

variable {reg : Registry}

/-! ### Conversions -/

theorem isAssignable_self {t : Ty} (h : t ≠ .void) : reg.isAssignable t t = true := by
  simp [isAssignable, implicitCost?, h]

theorem ne_void_of_isAssignable {source target : Ty} (h : reg.isAssignable source target = true) :
    source ≠ .void ∧ target ≠ .void := by
  unfold isAssignable implicitCost? at h
  split at h
  · cases h
  · rename_i hv
    exact not_or.1 hv

theorem isSubtype_of_definition?_eq_none {t a : Ty} (ht : reg.definition? t = none)
    (h : reg.isSubtype t a = true) : a = t := by
  have hline : reg.line t = [t] := by
    simp [line, lineUpTo, base?, ht]
  simpa [isSubtype, hline] using h

/-- What has no definition converts to itself and to `object`, and an integer to a double. -/
theorem eq_of_isAssignable {t a : Ty} (ht : reg.definition? t = none)
    (h : reg.isAssignable t a = true) : a = t ∨ t = .int ∧ a = .double ∨ a = .object := by
  unfold isAssignable implicitCost? at h
  split at h
  · cases h
  · split at h
    · rename_i heq
      exact .inl heq.symm
    · split at h
      · rename_i hnum
        exact .inr (.inl hnum)
      · split at h
        · rename_i hsub
          exact .inl (isSubtype_of_definition?_eq_none ht hsub)
        · split at h
          · rename_i hobj
            exact .inr (.inr hobj)
          · cases h

theorem eq_of_isAssignable_bool {a : Ty} (h : reg.isAssignable .bool a = true) :
    a = .bool ∨ a = .object := by
  rcases eq_of_isAssignable rfl h with h | ⟨h, -⟩ | h
  · exact .inl h
  · cases h
  · exact .inr h

/-! ### Selection -/

theorem mem_of_winners {viable : List (ResolvedCall × List Nat)} {call : ResolvedCall}
    (h : call ∈ winners viable) : ∃ costs, (call, costs) ∈ viable := by
  obtain ⟨⟨c, i⟩, hmem, hc⟩ := List.mem_filterMap.1 h
  dsimp only at hc
  split at hc
  · cases hc
    exact ⟨c.2, List.fst_mem_of_mem_zipIdx hmem⟩
  · cases hc

theorem assignable_of_costs {args params : List Ty} {costs : List Nat}
    (h : reg.costs? args params = some costs) :
    List.Forall₂ (fun arg param => reg.isAssignable arg param = true) args params := by
  induction args generalizing params costs with
  | nil =>
    cases params with
    | nil => exact .nil
    | cons _ _ => cases h
  | cons arg args ih =>
    cases params with
    | nil => cases h
    | cons param params =>
      obtain ⟨cost, hcost, h⟩ := Option.bind_eq_some_iff.1 h
      obtain ⟨rest, hrest, _⟩ := Option.bind_eq_some_iff.1 h
      exact .cons (by rw [isAssignable, hcost]; rfl) (ih hrest)

/-- The selected call is that of a candidate, which takes as many type arguments, and to whose
parameters the arguments convert. -/
theorem select_ok {candidates : List Candidate} {typeArgs args : List Ty} {call : ResolvedCall}
    (h : reg.select candidates typeArgs args = .ok call) :
    ∃ c ∈ candidates, c.overload.typeParams = typeArgs.length ∧ call = c.call typeArgs ∧
      List.Forall₂ (fun arg param => reg.isAssignable arg param = true) args call.params := by
  unfold select at h
  dsimp only at h
  split at h
  · cases h
  · split at h
    · rename_i call' hw
      cases h
      obtain ⟨costs, hv⟩ := mem_of_winners (hw ▸ List.mem_singleton_self call)
      obtain ⟨c, hc, hviable⟩ := List.mem_filterMap.1 hv
      unfold viable? at hviable
      split at hviable
      · rename_i htp
        obtain ⟨costs', hcosts, heq⟩ := Option.map_eq_some_iff.1 hviable
        cases heq
        exact ⟨c, hc, htp, rfl, assignable_of_costs hcosts⟩
      · cases hviable
    · cases h

theorem selectOperator_ok {candidates : List Candidate} {args : List Ty} {call : ResolvedCall}
    (h : reg.selectOperator candidates args = .ok (some call)) :
    reg.select candidates [] args = .ok call := by
  unfold selectOperator at h
  split at h
  · cases h
  · split at h
    · rename_i hs
      cases h
      exact hs
    · cases h
    · cases h

theorem resolveBinaryOperator_ok {op : BinaryOp} {left right : Ty} {call : ResolvedCall}
    (h : reg.resolveBinaryOperator op left right = .ok (some call)) :
    ∃ owner, (owner = left ∨ owner = right) ∧
      reg.select (reg.operatorCandidates owner (.binary op)) [] [left, right] = .ok call := by
  unfold resolveBinaryOperator at h
  split at h
  · split at h
    · cases h
    · exact ⟨right, .inr rfl, selectOperator_ok h⟩
  · exact ⟨left, .inl rfl, selectOperator_ok h⟩

/-! ### Operators -/

/-- The built-in typings of a binary operator. -/
inductive BuiltinBinary (op : BinaryOp) (l r : Ty) : BinaryTyping → Prop where
  | concat (hop : op = .add) (h : l = .string ∨ r = .string) :
    BuiltinBinary op l r ⟨.concat, l, r, .string⟩
  | arithmetic (hop : op.kind = .arithmetic) (h : (l.isNumeric && r.isNumeric) = true) :
    BuiltinBinary op l r (.uniform (numericPlan l r).1 (numericPlan l r).2)
  | int (hop : op.kind = .shift ∨ op.kind = .bitwise) (hl : l = .int) (hr : r = .int) :
    BuiltinBinary op l r (.uniform .int .int)
  | bool (hop : op.kind = .bitwise ∨ op.kind = .shortCircuit ∨ op.kind = .equality)
    (hl : l = .bool) (hr : r = .bool) : BuiltinBinary op l r (.uniform .bool .bool)
  | order (hop : op.kind = .relational) (h : (l.isNumeric && r.isNumeric) = true) :
    BuiltinBinary op l r ⟨.double, .double, .double, .bool⟩
  | equalNumbers (hop : op.kind = .equality) (h : (l.isNumeric && r.isNumeric) = true) :
    BuiltinBinary op l r ⟨(numericPlan l r).1, (numericPlan l r).2, (numericPlan l r).2, .bool⟩
  | equalStrings (hop : op.kind = .equality) (hl : l = .string) (hr : r = .string) :
    BuiltinBinary op l r ⟨.string, .string, .string, .bool⟩

theorem eq_of_both {l r t : Ty} (h : (decide (l = t) && decide (r = t)) = true) :
    l = t ∧ r = t := by
  simpa using h

theorem builtinBinary_ok {op : BinaryOp} {l r : Ty} {typing : BinaryTyping}
    (h : builtinBinary op l r = .ok typing) : BuiltinBinary op l r typing := by
  unfold builtinBinary at h
  dsimp only at h
  split at h
  · rename_i hop
    cases h
    exact .concat hop.1 hop.2
  · split at h
    all_goals rename_i hop
    · split at h <;> cases h
      exact .arithmetic hop ‹_›
    · split at h <;> cases h
      exact .int (.inl hop) (eq_of_both ‹_›).1 (eq_of_both ‹_›).2
    · split at h
      · cases h
        exact .int (.inr hop) (eq_of_both ‹_›).1 (eq_of_both ‹_›).2
      · split at h <;> cases h
        exact .bool (.inl hop) (eq_of_both ‹_›).1 (eq_of_both ‹_›).2
    · split at h <;> cases h
      exact .bool (.inr (.inl hop)) (eq_of_both ‹_›).1 (eq_of_both ‹_›).2
    · split at h <;> cases h
      exact .order hop ‹_›
    · split at h
      · cases h
        exact .equalNumbers hop ‹_›
      · split at h
        · cases h
          exact .bool (.inr (.inr hop)) (eq_of_both ‹_›).1 (eq_of_both ‹_›).2
        · split at h <;> cases h
          exact .equalStrings hop (eq_of_both ‹_›).1 (eq_of_both ‹_›).2

theorem assignable_double {l r : Ty} (h : (l.isNumeric && r.isNumeric) = true) :
    reg.isAssignable l .double = true ∧ reg.isAssignable r .double = true := by
  cases l <;> cases r <;> simp [Ty.isNumeric] at h <;> simp [isAssignable, implicitCost?]

theorem assignable_numericPlan {l r : Ty} (h : (l.isNumeric && r.isNumeric) = true) :
    reg.isAssignable l (numericPlan l r).2 = true ∧
      reg.isAssignable r (numericPlan l r).2 = true := by
  unfold numericPlan
  split
  · rename_i hi
    obtain ⟨rfl, rfl⟩ := hi
    exact ⟨isAssignable_self (by decide), isAssignable_self (by decide)⟩
  · exact assignable_double h

theorem BuiltinBinary.assignable {op : BinaryOp} {l r : Ty} {typing : BinaryTyping}
    (h : BuiltinBinary op l r typing) (hl : l ≠ .void) (hr : r ≠ .void) :
    reg.isAssignable l typing.left = true ∧ reg.isAssignable r typing.right = true := by
  cases h with
  | concat => exact ⟨isAssignable_self hl, isAssignable_self hr⟩
  | int _ hl' hr' | bool _ hl' hr' | equalStrings _ hl' hr' =>
    subst hl' hr'
    exact ⟨isAssignable_self hl, isAssignable_self hr⟩
  | order _ h => exact assignable_double h
  | arithmetic _ h | equalNumbers _ h => exact assignable_numericPlan h

/-- The typings of a binary operator. -/
inductive OperatorTyping (reg : Registry) (op : BinaryOp) (l r : Ty) : BinaryTyping → Prop where
  | builtin {typing : BinaryTyping} (h : BuiltinBinary op l r typing) :
    OperatorTyping reg op l r typing
  | overload {call : ResolvedCall} (h : reg.resolveBinaryOperator op l r = .ok (some call)) :
    OperatorTyping reg op l r ⟨.overload call.callable, call.params.getD 0 .object,
      call.params.getD 1 .object, call.ret⟩
  | concat (hop : op = .add) (h : l = .string ∨ r = .string) :
    OperatorTyping reg op l r ⟨.concat, l, r, .string⟩
  | reference (hop : op.kind = .equality)
    (h : reg.isAssignable l r = true ∨ reg.isAssignable r l = true) :
    OperatorTyping reg op l r ⟨.reference, l, r, .bool⟩

theorem typeBinary_ok {op : BinaryOp} {l r : Ty} {typing : BinaryTyping}
    (h : reg.typeBinary op l r = .ok typing) :
    l ≠ .void ∧ r ≠ .void ∧ OperatorTyping reg op l r typing := by
  unfold typeBinary at h
  split at h
  · cases h
  · rename_i hv
    obtain ⟨hl, hr⟩ := not_or.1 hv
    refine ⟨hl, hr, ?_⟩
    split at h
    · exact .builtin (builtinBinary_ok h)
    · unfold userBinary at h
      split at h
      · cases h
      · rename_i call hcall
        cases h
        exact .overload hcall
      · split at h
        · rename_i hop
          cases h
          exact .concat hop.1 hop.2
        · split at h
          · rename_i hop
            cases h
            exact .reference hop.1 hop.2
          · cases h

/-- The operands of a binary operator convert to the types that it takes. -/
theorem typeBinary_assignable {op : BinaryOp} {left right : Ty} {typing : BinaryTyping}
    (h : reg.typeBinary op left right = .ok typing) :
    reg.isAssignable left typing.left = true ∧ reg.isAssignable right typing.right = true := by
  obtain ⟨hl, hr, ht⟩ := typeBinary_ok h
  cases ht with
  | builtin hb => exact hb.assignable hl hr
  | @overload call hcall =>
    obtain ⟨owner, -, hselect⟩ := resolveBinaryOperator_ok hcall
    obtain ⟨c, -, -, -, hargs⟩ := select_ok hselect
    obtain ⟨_, params, ret⟩ := call
    cases hargs with
    | cons hleft hargs =>
      cases hargs with
      | cons hright hargs => exact ⟨hleft, hright⟩
  | concat | reference => exact ⟨isAssignable_self hl, isAssignable_self hr⟩

/-- An assignment with an operation has the typing of the operation, if the result converts back. -/
theorem typeCompound_ok {op : BinaryOp} {target value : Ty} {typing : BinaryTyping}
    (hop : op.kind ≠ .shortCircuit) :
    reg.typeCompound op target value = .ok typing ↔
      reg.typeBinary op target value = .ok typing ∧
        reg.isAssignable typing.result target = true := by
  unfold typeCompound
  rw [if_neg hop]
  cases reg.typeBinary op target value with
  | error _ =>
    constructor
    · intro h
      cases h
    · rintro ⟨h, -⟩
      cases h
  | ok t =>
    show (if reg.isAssignable t.result target = true then Except.ok t else Except.error _) =
      Except.ok typing ↔ _
    split
    · rename_i ha
      constructor
      · intro h
        cases h
        exact ⟨rfl, ha⟩
      · exact And.left
    · rename_i ha
      constructor
      · intro h
        cases h
      · rintro ⟨h, ha'⟩
        cases h
        exact absurd ha' ha

end Registry

end TypedExpr
