import TypedExpr.Proofs.Typing.Bases
import TypedExpr.Proofs.Typing.Overload
/-!
# Values that fit types

A value fits a type if it conforms to it; where no value is expected any value fits. If all bases
are reference types, a value that fits a type fits every type that this type converts to, an integer
that becomes a double apart.

* `Registry.Fits`: a value fits a type.
* `Registry.Fits.passes`: **a value of the type written fits the type asked for.**
* `Value.Plain`: a value of a primitive type that is no handle.
-/

namespace TypedExpr

/-- The value conforms to the type, if one is expected. -/
def Registry.Fits (reg : Registry) (t : Ty) (v : Value) : Prop :=
  t ≠ .void → reg.conforms v t = true

/-- A value of a primitive type that is no handle. -/
inductive Value.Plain : Ty → Value → Prop where
  | int (n : Int64) : Plain .int (.int n)
  | double (x : Float) : Plain .double (.double x)
  | bool (b : Bool) : Plain .bool (.bool b)
  | str (s : String) : Plain .string (.str s)

theorem Value.Plain.type? {t : Ty} {v : Value} (h : v.Plain t) : v.type? = some t := by
  cases h <;> rfl

namespace Registry

variable {reg : Registry} {s t : Ty} {v w : Value}

/-- Only an integer that becomes a double is that far from its target. -/
theorem eq_of_implicitCost?_one (h : reg.implicitCost? s t = some 1) : s = .int ∧ t = .double := by
  unfold implicitCost? at h
  split at h
  · cases h
  · split at h
    · cases h
    · split at h
      · assumption
      · split at h
        · cases h
        · split at h <;> cases h

namespace Fits

theorem of_type? (h : v.type? = some t) : reg.Fits t v := by
  intro _
  unfold conforms
  split
  · cases v <;> simp_all [Value.type?]
  · rw [h]
    exact isSubtype_self reg t

theorem default (t : Ty) : reg.Fits t (Value.default t) := by
  cases t with
  | int | double | bool => exact of_type? rfl
  | void => exact fun h => absurd rfl h
  | _ => exact fun _ => by simp [Value.default, conforms, Value.type?, Ty.isReference]

/-- To what type a value conforms is seen from its own type alone. -/
theorem plain (h : reg.Fits t v) (hv : v.type? = some s) (hw : w.Plain s) : reg.Fits t w := by
  intro ht
  have hc := h ht
  unfold conforms at hc ⊢
  split at hc
  · rename_i ho
    rw [if_pos ho]
    cases hw <;> rfl
  · rename_i ho
    rw [hv] at hc
    rw [if_neg ho, hw.type?]
    exact hc

theorem ne_void (h : reg.Fits t v) (ht : t ≠ .void) : v ≠ .void := by
  rintro rfl
  have hc := h ht
  unfold conforms at hc
  split at hc
  · simp at hc
  · exact ht (isSubtype_of_definition?_eq_none rfl hc)

theorem object (h : reg.Fits t v) (ht : t ≠ .void) : reg.Fits .object v := by
  intro _
  simp [conforms, h.ne_void ht]

variable (hr : reg.ReferenceBases)

include hr

theorem subtype (h : reg.Fits s v) (hs : s ≠ .void) (hst : reg.isSubtype s t = true) :
    reg.Fits t v := by
  by_cases ht : t = .object
  · rw [ht]
    exact h.object hs
  · intro _
    have hc := h hs
    unfold conforms at hc ⊢
    rw [if_neg ht]
    split at hc
    · rename_i ho
      rw [ho] at hst
      exact absurd (isSubtype_of_definition?_eq_none rfl hst) ht
    · cases hvt : v.type? with
      | some actual =>
        rw [hvt] at hc
        exact isSubtype_trans hc hst
      | none =>
        rw [hvt] at hc
        rcases eq_or_base_of_isSubtype hst with rfl | ⟨d, hd⟩
        · exact hc
        · exact hr d t hd

/-- A value that fits a type fits every type that this type converts to, unless that changes it. -/
theorem assignable (h : reg.Fits s v) (ha : reg.isAssignable s t = true)
    (hd : ¬ (s = .int ∧ t = .double)) : reg.Fits t v := by
  unfold isAssignable implicitCost? at ha
  split at ha
  · cases ha
  · rename_i hv
    rw [not_or] at hv
    split at ha
    · rename_i hst
      exact hst ▸ h
    · split at ha
      · exact h.subtype hr hv.1 ‹_›
      · split at ha
        · rename_i ho
          rw [ho]
          exact h.object hv.1
        · cases ha

end Fits

/-- A plain value becomes one that fits the type that its type converts to. -/
theorem Fits.promote_plain (hr : reg.ReferenceBases) (h : v.Plain s)
    (ha : reg.isAssignable s t = true) : reg.Fits t (v.promote t) := by
  by_cases hd : s = .int ∧ t = .double
  · obtain ⟨rfl, rfl⟩ := hd
    cases h with
    | int n => exact of_type? rfl
  · have hsame : v.promote t = v := by
      cases h with
      | int n => exact Value.promote_of_ne (fun ht => hd ⟨rfl, ht⟩) _
      | _ => rfl
    rw [hsame]
    exact (of_type? h.type?).assignable hr ha hd

end Registry

end TypedExpr
