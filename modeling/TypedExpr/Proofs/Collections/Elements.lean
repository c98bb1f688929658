import Mathlib
import TypedExpr.Heap
/-!
# Elements of a set

A set recognises some of its elements by their keys and compares the others with each other. What
this comes to for values: zeros of either sign are one element, all that is no number is one
element, equal numbers, truth values and texts are one element, and so are handles of one place.

* `Value.Merged`: two values are one element.
* `Value.merged_iff_of_key`, `Value.same_iff_merged`: how a set tells these from other values, with
  a key and without.
* `Element`: a value up to this.
* `ElementSet.insert_cases`: all that the insertion of a value can do.
* `ElementSet.contains_insert`, `ElementSet.size_insert`: what is an element after it.
* `ElementSet.insert_fst`: it is answered by whether the value was none before.
-/

namespace TypedExpr

namespace Value

variable {v w : Value}

/-- Two values are one element of a set: doubles that are equal or both no number, handles of one
place, and otherwise values that are the same. -/
def Merged : Value → Value → Prop
  | .double x, .double y => x == y ∨ x.isNaN ∧ y.isNaN
  | .array _ p, .array _ q | .object _ p, .object _ q => p = q
  | v, w => v = w

/-- Doubles have one key if they are equal, as zeros of either sign are, or both no number. -/
theorem key?_double {x y : Float} :
    (Value.double x).key? = (Value.double y).key? ↔ x == y ∨ x.isNaN ∧ y.isNaN := by
  have hnan : Double.nan = Float.nan := rfl
  have hzero : (0 : Float) ≠ Float.nan := by decide
  have hneg : (-0 : Float) ≠ Float.nan := by decide
  have hsigns : (0 : Float) ≠ -0 := by decide
  simp only [key?, Option.some.injEq, ElementKey.double.injEq, Float.isNaN_eq_decide_eq_nan,
    Float.beq_iff_ne_nan_and_eq, hnan, decide_eq_true_eq]
  grind

/-- The place of an array or of an object. -/
def place? : Value → Option (Nat ⊕ Nat)
  | .array _ p => some (.inl p)
  | .object _ p => some (.inr p)
  | _ => none

/-- Two values are one element exactly if they have one key and one place. -/
theorem merged_iff : v.Merged w ↔ v.key? = w.key? ∧ v.place? = w.place? := by
  cases v <;> cases w
  case double.double =>
    rw [key?_double]
    simp [place?, Merged]
  all_goals simp [key?, place?, Merged]

theorem place?_of_key {key : ElementKey} (h : v.key? = some key) : v.place? = none := by
  cases v with
  | array | object => cases h
  | _ => rfl

/-- What is one element with a value that has a key has this key. -/
theorem merged_iff_of_key {key : ElementKey} (h : v.key? = some key) :
    v.Merged w ↔ w.key? = some key := by
  rw [merged_iff, h]
  exact ⟨fun hw => hw.1.symm, fun hw => ⟨hw.symm, (place?_of_key h).trans (place?_of_key hw).symm⟩⟩

/-- Values without a key are one element exactly if they are the same. -/
theorem same_iff_merged (h : v.key? = none) : v.same w ↔ v.Merged w := by
  cases v with
  | array | object | void => cases w <;> simp [same.eq_def, Merged]
  | _ => cases h

instance (v w : Value) : Decidable (v.Merged w) := decidable_of_iff _ merged_iff.symm

/-- Values up to being one element. -/
instance merging : Setoid Value where
  r := Merged
  iseqv :=
    { refl := fun _ => merged_iff.mpr ⟨rfl, rfl⟩
      symm := fun h => merged_iff.mpr ((merged_iff.mp h).imp Eq.symm Eq.symm)
      trans := fun h h' => merged_iff.mpr
        ⟨(merged_iff.mp h).1.trans (merged_iff.mp h').1,
          (merged_iff.mp h).2.trans (merged_iff.mp h').2⟩ }

instance : DecidableRel (HasEquiv.Equiv (α := Value)) :=
  fun v w => inferInstanceAs (Decidable (v.Merged w))

end Value

/-- An element of a set: a value, it being all one which of several that are one element. -/
abbrev Element := Quotient Value.merging

/-- The element that a value is. -/
def Value.element (v : Value) : Element := Quotient.mk _ v

theorem Value.element_eq_iff {v w : Value} : v.element = w.element ↔ v.Merged w := Quotient.eq

namespace ElementSet

variable {s : ElementSet} {v w : Value} {key : ElementKey}

theorem contains_of_key (h : v.key? = some key) : s.contains v ↔ key ∈ s.keys := by
  rw [contains, h]
  exact decide_eq_true_iff

theorem contains_of_keyless (h : v.key? = none) : s.contains v ↔ s.holds v := by
  rw [contains, h]

theorem contains_empty (v : Value) : empty.contains v = false := by
  cases hv : v.key? with
  | some key => simp [contains, hv, empty]
  | none => simp [contains, hv, holds, empty]

/-- The elements without a key are those that are one element with one that is there. -/
theorem holds_iff : s.holds v ↔ ∃ u ∈ s.handles.toList, u.Merged v := by
  rw [holds, Array.any_eq_true']
  refine exists_congr fun u => ?_
  rw [Array.mem_toList_iff]
  exact and_congr_right fun hu => Value.same_iff_merged (s.keyless u (Array.mem_toList_iff.mpr hu))

/-- Which of several values that are one element is asked for makes no difference. -/
theorem contains_congr (h : v.Merged w) : s.contains v ↔ s.contains w := by
  have hkey := (Value.merged_iff.mp h).1
  cases hv : v.key? with
  | some key => rw [contains_of_key hv, contains_of_key (hkey ▸ hv)]
  | none =>
    rw [contains_of_keyless hv, contains_of_keyless (hkey ▸ hv), holds_iff, holds_iff]
    refine exists_congr fun u => and_congr_right fun _ => ⟨fun hu => ?_, fun hu => ?_⟩
    · exact Value.merging.trans hu h
    · exact Value.merging.trans hu (Value.merging.symm h)

/-- With a key, the values that have it become an element. -/
theorem contains_addKey (hkey : v.key? = some key) (h : key ∉ s.keys) :
    (s.addKey key h).contains w ↔ v.Merged w ∨ s.contains w := by
  rw [Value.merged_iff_of_key hkey]
  cases hw : w.key? with
  | some other =>
    rw [contains_of_key hw, contains_of_key hw, Option.some.injEq]
    exact List.mem_cons
  | none =>
    -- The values without a key are not looked up among the keys.
    rw [contains_of_keyless hw, contains_of_keyless hw]
    exact (or_iff_right nofun).symm

/-- With a value without a key, those that are one element with it become an element. -/
theorem contains_addHandle (hkey : v.key? = none) (h : s.holds v = false) :
    (s.addHandle v hkey h).contains w ↔ v.Merged w ∨ s.contains w := by
  cases hw : w.key? with
  | some other =>
    have hother : ¬ v.Merged w := fun h => by
      cases hkey.symm.trans ((Value.merged_iff.mp h).1.trans hw)
    rw [contains_of_key hw, contains_of_key hw]
    exact (or_iff_right hother).symm
  | none =>
    rw [contains_of_keyless hw, contains_of_keyless hw, holds_iff, holds_iff, addHandle,
      Array.toList_push]
    simp [or_and_right, exists_or, or_comm]

theorem size_addKey (h : key ∉ s.keys) : (s.addKey key h).size = s.size + 1 :=
  Nat.add_right_comm ..

theorem size_addHandle (hkey : v.key? = none) (h : s.holds v = false) :
    (s.addHandle v hkey h).size = s.size + 1 :=
  congrArg (s.keys.length + ·) (Array.size_push ..)

/-- An element is not added again. Another value is one more element. -/
theorem insert_cases (s : ElementSet) (v : Value) :
    (s.contains v = true ∧ s.insert v = (false, s)) ∨
    (s.contains v = false ∧ ∃ t, s.insert v = (true, t) ∧ t.size = s.size + 1 ∧
      ∀ w, t.contains w ↔ v.Merged w ∨ s.contains w) := by
  unfold insert
  split
  · rename_i key hkey
    split
    · rename_i h
      exact .inl ⟨(contains_of_key hkey).mpr h, rfl⟩
    · rename_i h
      refine .inr ⟨?_, _, rfl, size_addKey h, fun w => contains_addKey hkey h⟩
      rw [← Bool.not_eq_true, contains_of_key hkey]
      exact h
  · rename_i hkey
    split
    · rename_i h
      exact .inl ⟨(contains_of_keyless hkey).mpr h, rfl⟩
    · rename_i h
      refine .inr ⟨?_, _, rfl, size_addHandle hkey _, fun w => contains_addHandle hkey _⟩
      rw [← Bool.not_eq_true, contains_of_keyless hkey]
      exact h

/-- The insertion is answered by whether the value was no element just before. -/
theorem insert_fst (s : ElementSet) (v : Value) : (s.insert v).1 = !s.contains v := by
  obtain ⟨h, hs⟩ | ⟨h, t, hs, -⟩ := insert_cases s v <;> rw [hs, h] <;> rfl

theorem size_insert (s : ElementSet) (v : Value) :
    (s.insert v).2.size = if s.contains v then s.size else s.size + 1 := by
  obtain ⟨h, hs⟩ | ⟨h, t, hs, hsize, -⟩ := insert_cases s v
  · rw [hs, if_pos h]
  · rw [hs, hsize, h]
    rfl

/-- The elements are those before, and the value that is inserted. -/
theorem contains_insert (s : ElementSet) (v w : Value) :
    (s.insert v).2.contains w ↔ v.Merged w ∨ s.contains w := by
  obtain ⟨h, hs⟩ | ⟨-, t, hs, -, hcontains⟩ := insert_cases s v
  · rw [hs]
    exact (or_iff_right_of_imp fun hw => (contains_congr hw).mp h).symm
  · rw [hs]
    exact hcontains w

end ElementSet

end TypedExpr
