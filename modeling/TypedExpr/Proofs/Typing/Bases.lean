import Mathlib.Data.Finset.Card
import Mathlib.Logic.Relation
import TypedExpr.Registry.Lineage
/-!
# Bases

What a type derives from is what is reached from it from base to base. The shortest way there meets
no definition twice, since the base of a type depends on its definition alone; so the line of a type
holds all of it, and to derive from a type is transitive.

* `Registry.isSubtype_iff`: **a type derives from just what is reached from it from base to base.**
* `Registry.isSubtype_trans`: to derive from a type is transitive.
* `Registry.ReferenceBases`, `Registry.UserBases`, `Registry.Rooted`: what may be asked of the bases
  in a registry.
* `Registry.UserBases.eq_of_isSubtype`: a type that is built in has no types below it.
-/

namespace TypedExpr

/-- The place of the first definition that is not built in. -/
def Registry.firstUser : DefId := 8

/-- The type is declared by the application. -/
def Ty.IsUser (t : Ty) : Prop := ∃ d args, t = .named d args ∧ Registry.firstUser ≤ d

namespace Registry

/-- The type that many bases up the line of a type. -/
def ancestor? (reg : Registry) : Nat → Ty → Option Ty
  | 0, t => some t
  | k + 1, t => (reg.base? t).bind (ancestor? reg k)

variable {reg : Registry} {s t u : Ty} {k m n : Nat}

theorem base?_eq_some (h : reg.base? t = some u) :
    ∃ d args, defOf? t = some (d, args) ∧ (reg.definition d).base = some u := by
  obtain ⟨⟨definition, args⟩, hd, hb⟩ := Option.bind_eq_some_iff.1 h
  obtain ⟨⟨d, args'⟩, hdef, hpair⟩ := Option.map_eq_some_iff.1 hd
  cases hpair
  exact ⟨d, args, hdef, hb⟩

theorem mem_lineUpTo : u ∈ reg.lineUpTo n t ↔ ∃ k < n, reg.ancestor? k t = some u := by
  induction n generalizing t with
  | zero => simp [lineUpTo]
  | succ n ih =>
    have hsplit : (∃ k < n + 1, reg.ancestor? k t = some u) ↔
        t = u ∨ ∃ k < n, (reg.base? t).bind (reg.ancestor? k) = some u := by
      constructor
      · rintro ⟨_ | k, hk, h⟩
        · exact .inl (Option.some.inj h)
        · exact .inr ⟨k, by omega, h⟩
      · rintro (rfl | ⟨k, hk, h⟩)
        · exact ⟨0, by omega, rfl⟩
        · exact ⟨k + 1, by omega, h⟩
    rw [hsplit, lineUpTo]
    cases hb : reg.base? t with
    | none => simp [eq_comm]
    | some b => simp [ih, eq_comm]

theorem ancestor?_add (k m : Nat) (t : Ty) :
    reg.ancestor? (k + m) t = (reg.ancestor? k t).bind (reg.ancestor? m) := by
  induction k generalizing t with
  | zero => rw [Nat.zero_add, ancestor?, Option.bind_some]
  | succ k ih =>
    rw [Nat.succ_add, ancestor?, ancestor?, Option.bind_assoc]
    congr 1
    funext b
    exact ih b

theorem ancestor?_succ (k : Nat) (t : Ty) :
    reg.ancestor? (k + 1) t = (reg.ancestor? k t).bind reg.base? := by
  rw [ancestor?_add]
  congr 1
  funext b
  cases hb : reg.base? b <;> simp [ancestor?, hb]

theorem lt_size_of_base {d : DefId} (h : (reg.definition d).base = some t) :
    d < reg.definitions.size := by
  by_contra hd
  rw [definition, Array.getElem?_eq_none (Nat.le_of_not_lt hd)] at h
  cases h

/-- Each step on the way to an ancestor goes from a definition to its base. -/
theorem exists_definition (h : reg.ancestor? k t = some u) (hm : m < k) :
    ∃ d < reg.definitions.size, reg.ancestor? (m + 1) t = (reg.definition d).base := by
  obtain ⟨j, rfl⟩ := Nat.exists_eq_add_of_lt hm
  rw [show m + j + 1 = m + 1 + j by omega, ancestor?_add] at h
  obtain ⟨b, hb, -⟩ := Option.bind_eq_some_iff.1 h
  have hstep := hb
  rw [ancestor?_succ] at hstep
  obtain ⟨v, -, hbase⟩ := Option.bind_eq_some_iff.1 hstep
  obtain ⟨d, -, -, hd⟩ := base?_eq_some hbase
  exact ⟨d, lt_size_of_base hd, hb.trans hd.symm⟩

/-- Two types of one definition have the same base. So on a way that is longer than there are
definitions, some type is met again. -/
theorem exists_repeat (h : reg.ancestor? k t = some u) (hk : reg.definitions.size < k) :
    ∃ i j, i < j ∧ j < k ∧ reg.ancestor? (i + 1) t = reg.ancestor? (j + 1) t := by
  choose! d hd hbase using fun m => exists_definition (m := m) h
  have hcard : (Finset.range reg.definitions.size).card < (Finset.range k).card := by
    simpa only [Finset.card_range] using hk
  have hmaps : ∀ m ∈ Finset.range k, d m ∈ Finset.range reg.definitions.size :=
    fun m hm => Finset.mem_range.2 (hd m (Finset.mem_range.1 hm))
  obtain ⟨i, hi, j, hj, hne, heq⟩ := Finset.exists_ne_map_eq_of_card_lt_of_maps_to hcard hmaps
  have hi : i < k := Finset.mem_range.1 hi
  have hj : j < k := Finset.mem_range.1 hj
  have hsame : reg.ancestor? (i + 1) t = reg.ancestor? (j + 1) t := by
    rw [hbase i hi, hbase j hj, heq]
  rcases Nat.lt_or_gt_of_ne hne with hij | hij
  · exact ⟨i, j, hij, hj, hsame⟩
  · exact ⟨j, i, hij, hi, hsame.symm⟩

/-- The shortest way to an ancestor meets no definition twice. -/
theorem exists_le_size (h : reg.ancestor? k t = some u) :
    ∃ m ≤ reg.definitions.size, reg.ancestor? m t = some u := by
  induction k using Nat.strong_induction_on with
  | _ k ih =>
    by_cases hk : k ≤ reg.definitions.size
    · exact ⟨k, hk, h⟩
    · -- what lies between two visits of one definition is left out
      obtain ⟨i, j, hij, hj, hsame⟩ := exists_repeat h (Nat.lt_of_not_le hk)
      obtain ⟨r, rfl⟩ := Nat.exists_eq_add_of_lt hj
      rw [show j + r + 1 = j + 1 + r by omega, ancestor?_add, ← hsame, ← ancestor?_add] at h
      exact ih (i + 1 + r) (by omega) h

/-- **A type derives from just what is reached from it from base to base.** -/
theorem isSubtype_iff : reg.isSubtype t u = true ↔ ∃ k, reg.ancestor? k t = some u := by
  rw [isSubtype, decide_eq_true_iff, line, mem_lineUpTo]
  constructor
  · rintro ⟨k, -, h⟩
    exact ⟨k, h⟩
  · rintro ⟨k, h⟩
    obtain ⟨m, hm, h⟩ := exists_le_size h
    exact ⟨m, Nat.lt_succ_of_le hm, h⟩

/-- To derive from a type is transitive. -/
theorem isSubtype_trans (h : reg.isSubtype s t = true) (h' : reg.isSubtype t u = true) :
    reg.isSubtype s u = true := by
  obtain ⟨k, hk⟩ := isSubtype_iff.1 h
  obtain ⟨m, hm⟩ := isSubtype_iff.1 h'
  refine isSubtype_iff.2 ⟨k + m, ?_⟩
  rw [ancestor?_add, hk]
  exact hm

/-- What a type derives from is the type itself or the base of some definition. -/
theorem eq_or_base_of_isSubtype (h : reg.isSubtype t u = true) :
    t = u ∨ ∃ d, (reg.definition d).base = some u := by
  obtain ⟨k, hk⟩ := isSubtype_iff.1 h
  cases k with
  | zero => exact .inl (Option.some.inj hk)
  | succ k =>
    rw [ancestor?_succ] at hk
    obtain ⟨v, -, hbase⟩ := Option.bind_eq_some_iff.1 hk
    obtain ⟨d, -, -, hd⟩ := base?_eq_some hbase
    exact .inr ⟨d, hd⟩

/-! ### What may be asked of bases -/

/-- Every base is a reference type. -/
def ReferenceBases (reg : Registry) : Prop :=
  ∀ d t, (reg.definition d).base = some t → t.isReference = true

/-- Every base is a type of the application. -/
def UserBases (reg : Registry) : Prop :=
  ∀ d t, (reg.definition d).base = some t → t.IsUser

/-- A definition has a base that belongs to another definition. -/
def BaseOf (reg : Registry) (d d' : DefId) : Prop :=
  ∃ args, (reg.definition d).base = some (.named d' args)

/-- Only types of the application are bases, and bases have no cycle. -/
structure Rooted (reg : Registry) : Prop where
  user {d : DefId} {t : Ty} (h : (reg.definition d).base = some t) : t.IsUser
  acyclic (d : DefId) : ¬ Relation.TransGen reg.BaseOf d d

/-- A type that is not declared by the application has no types below it. -/
theorem UserBases.eq_of_isSubtype (hb : reg.UserBases) (h : reg.isSubtype t u = true)
    (hu : ¬ u.IsUser) : t = u := by
  rcases eq_or_base_of_isSubtype h with h | ⟨d, hd⟩
  · exact h
  · exact absurd (hb d u hd) hu

namespace Rooted

variable (hr : reg.Rooted)

include hr

theorem referenceBases : reg.ReferenceBases := by
  intro d t h
  obtain ⟨_, _, rfl, -⟩ := hr.user h
  rfl

theorem userBases : reg.UserBases := fun _ _ h => hr.user h

theorem eq_of_isSubtype (h : reg.isSubtype t u = true) (hu : ¬ u.IsUser) : t = u :=
  hr.userBases.eq_of_isSubtype h hu

end Rooted

end Registry

end TypedExpr
