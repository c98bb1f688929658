import TypedExpr.Proofs.Outline
import TypedExpr.Proofs.Typing.Bases
/-!
# Lines that end

Whether a type derives from another, and which definitions it inherits from, is found out by going
from base to base. Nothing bounds these two loops: they end if the line of the type does, and that
is up to whoever sets the bases. A base that leads back to its own definition makes lines without
end; as long as none does, all lines end.

* `Registry.climbUpTo`, `Registry.gatherUpTo`: the two loops, as far as they get in some rounds.
* `Registry.Ends`: the line of a type ends.
* `Registry.Rooted.ends`: all lines end where bases have no cycle.
* `Registry.ends_iff_acyclic`: all lines end just if no type is among its own ancestors.
* `Registry.ends_setBase`: a base that does not lead back to its definition keeps it so.
* `Registry.lines_end_iff`: **in whatever is built, just when the loops end, and with what result.**
-/

namespace TypedExpr

namespace Registry

/-- The loop that looks for an ancestor, as far as it gets in some rounds. -/
def climbUpTo (reg : Registry) : Nat → Ty → Ty → Option Bool
  | 0, _, _ => none
  | n + 1, t, ancestor =>
    if t = ancestor then some true
    else
      match reg.base? t with
      | some b => climbUpTo reg n b ancestor
      | none => some false

/-- The loop that gathers the definitions along a line, as far as it gets in some rounds. -/
def gatherUpTo (reg : Registry) : Nat → Ty → Option (List (Definition × List Ty))
  | 0, _ => none
  | n + 1, t =>
    match reg.definition? t with
    | none => some []
    | some d =>
      match d.1.base with
      | none => some [d]
      | some b => (gatherUpTo reg n b).map (d :: ·)

/-- From base to base one comes to a type without a base. -/
def Ends (reg : Registry) (t : Ty) : Prop := ∃ k, reg.ancestor? k t = none

/-- No type is reached again from it by way of its bases. -/
def Acyclic (reg : Registry) : Prop := ∀ t k, reg.ancestor? (k + 1) t ≠ some t

/-- From base to base one comes to a type of this definition. -/
def LeadsTo (reg : Registry) (t : Ty) (d : DefId) : Prop :=
  ∃ k u args, reg.ancestor? k t = some u ∧ defOf? u = some (d, args)

variable {reg : Registry} {t u b : Ty} {d : DefId} {k n : Nat}

/-! ### Lines -/

theorem ancestor?_of_base (h : reg.base? t = some b) (k : Nat) :
    reg.ancestor? (k + 1) t = reg.ancestor? k b := by
  rw [ancestor?, h, Option.bind_some]

theorem ancestor?_of_le (h : reg.ancestor? k t = none) (hkn : k ≤ n) :
    reg.ancestor? n t = none := by
  obtain ⟨m, rfl⟩ := Nat.exists_eq_add_of_le hkn
  rw [ancestor?_add, h, Option.bind_none]

theorem ends_of_base (h : ∀ b, reg.base? t = some b → reg.Ends b) : reg.Ends t := by
  cases hb : reg.base? t with
  | none => exact ⟨1, by rw [ancestor?, hb, Option.bind_none]⟩
  | some b =>
    obtain ⟨k, hk⟩ := h b hb
    exact ⟨k + 1, (ancestor?_of_base hb k).trans hk⟩

/-- What holds of a type whenever it holds of its base holds of all types whose lines end. -/
theorem Ends.induct {P : Ty → Prop} (h : reg.Ends t)
    (hstep : ∀ t, (∀ b, reg.base? t = some b → P b) → P t) : P t := by
  obtain ⟨k, hk⟩ := h
  induction k generalizing t with
  | zero => cases hk
  | succ k ih => exact hstep t fun b hb => ih ((ancestor?_of_base hb k).symm.trans hk)

/-- A type that is reached again is reached again and again. -/
theorem not_ends_of_ancestor (h : reg.ancestor? (k + 1) t = some t) : ¬reg.Ends t := by
  have hagain : ∀ n, ∃ m ≥ n, reg.ancestor? m t = some t := by
    intro n
    induction n with
    | zero => exact ⟨0, Nat.le_refl 0, rfl⟩
    | succ n ih =>
      obtain ⟨m, hm, hmt⟩ := ih
      refine ⟨m + (k + 1), by omega, ?_⟩
      rw [ancestor?_add, hmt]
      exact h
  rintro ⟨n, hn⟩
  obtain ⟨m, hm, hmt⟩ := hagain n
  rw [ancestor?_of_le hn hm] at hmt
  cases hmt

/-- On a line that is longer than there are definitions, some type is reached again. -/
theorem exists_cycle (h : reg.ancestor? (reg.definitions.size + 1) t = some u) :
    ∃ m v k, reg.ancestor? m t = some v ∧ reg.ancestor? (k + 1) v = some v := by
  obtain ⟨i, j, hij, hj, hsame⟩ := exists_repeat h (Nat.lt_succ_self _)
  cases hv : reg.ancestor? (i + 1) t with
  | none =>
    rw [ancestor?_of_le hv (by omega)] at h
    cases h
  | some v =>
    obtain ⟨k, rfl⟩ := Nat.exists_eq_add_of_lt hij
    refine ⟨i + 1, v, k, hv, ?_⟩
    have hlong := hsame.symm.trans hv
    rwa [show i + k + 1 + 1 = i + 1 + (k + 1) by omega, ancestor?_add, hv] at hlong

theorem Ends.ancestor (h : reg.Ends t) (hu : reg.ancestor? k t = some u) : reg.Ends u := by
  obtain ⟨n, hn⟩ := h
  refine ⟨n, ?_⟩
  have hlong : reg.ancestor? (k + n) t = none := ancestor?_of_le hn (Nat.le_add_left n k)
  rwa [ancestor?_add, hu] at hlong

/-- A line that ends has no more types than there are definitions, but for the last. -/
theorem Ends.ancestor?_size (h : reg.Ends t) :
    reg.ancestor? (reg.definitions.size + 1) t = none := by
  cases hu : reg.ancestor? (reg.definitions.size + 1) t with
  | none => rfl
  | some u =>
    obtain ⟨m, v, k, hv, hagain⟩ := exists_cycle hu
    exact absurd (h.ancestor hv) (not_ends_of_ancestor hagain)

/-- **All lines end just if no type is among its own ancestors.** -/
theorem ends_iff_acyclic : (∀ t, reg.Ends t) ↔ reg.Acyclic := by
  constructor
  · intro h t k hk
    exact not_ends_of_ancestor hk (h t)
  · intro h t
    refine ⟨reg.definitions.size + 1, ?_⟩
    cases hu : reg.ancestor? (reg.definitions.size + 1) t with
    | none => rfl
    | some u =>
      obtain ⟨m, v, k, -, hagain⟩ := exists_cycle hu
      exact absurd hagain (h v k)

/-! ### Bases without a cycle -/

namespace Rooted

/-- What is reached by way of bases is the base of some definition. -/
theorem isUser_of_ancestor (hr : reg.Rooted) (h : reg.ancestor? (k + 1) t = some u) :
    u.IsUser := by
  obtain ⟨d, -, hd⟩ := exists_definition h (Nat.lt_succ_self k)
  exact hr.user (hd.symm.trans h)

theorem transGen_of_ancestor (hr : reg.Rooted) {d e : DefId} {args args' : List Ty}
    (h : reg.ancestor? (k + 1) (.named d args) = some (.named e args')) :
    Relation.TransGen reg.BaseOf d e := by
  induction k generalizing e args' with
  | zero =>
    obtain ⟨d', _, hdef, hbase⟩ := base?_eq_some ((ancestor?_succ 0 _).symm.trans h)
    cases hdef
    exact .single ⟨args', hbase⟩
  | succ k ih =>
    rw [ancestor?_succ] at h
    obtain ⟨v, hv, hb⟩ := Option.bind_eq_some_iff.1 h
    obtain ⟨c, cargs, rfl, -⟩ := hr.isUser_of_ancestor hv
    obtain ⟨d', _, hdef, hbase⟩ := base?_eq_some hb
    cases hdef
    exact (ih hv).tail ⟨args', hbase⟩

/-- Where bases have no cycle, no type is among its own ancestors, so all lines end. -/
theorem ends (hr : reg.Rooted) (t : Ty) : reg.Ends t := by
  refine ends_iff_acyclic.2 (fun t k h => ?_) t
  obtain ⟨d, args, rfl, -⟩ := hr.isUser_of_ancestor h
  exact hr.acyclic d (hr.transGen_of_ancestor h)

end Rooted

/-! ### The loops -/

theorem isSubtype_iff_base :
    reg.isSubtype t u = true ↔ t = u ∨ ∃ b, reg.base? t = some b ∧ reg.isSubtype b u = true := by
  simp only [isSubtype_iff]
  constructor
  · rintro ⟨_ | k, hk⟩
    · exact .inl (Option.some.inj hk)
    · obtain ⟨b, hb, hk⟩ := Option.bind_eq_some_iff.1 hk
      exact .inr ⟨b, hb, k, hk⟩
  · rintro (rfl | ⟨b, hb, k, hk⟩)
    · exact ⟨0, rfl⟩
    · exact ⟨k + 1, (ancestor?_of_base hb k).trans hk⟩

/-- An ancestor is found, whether the line ends or not. -/
theorem climbUpTo_of_ancestor (h : reg.ancestor? k t = some u) (hkn : k < n) :
    reg.climbUpTo n t u = some true := by
  induction k generalizing t n with
  | zero =>
    obtain rfl : t = u := Option.some.inj h
    obtain ⟨n, rfl⟩ := Nat.exists_eq_add_of_lt hkn
    rw [climbUpTo, if_pos rfl]
  | succ k ih =>
    obtain ⟨b, hb, hk⟩ := Option.bind_eq_some_iff.1 h
    obtain ⟨n, rfl⟩ := Nat.exists_eq_add_of_lt hkn
    rw [climbUpTo]
    split
    · rfl
    · rw [hb]
      exact ih hk (by omega)

/-- On a line that ends, the loop finds out that there is no such ancestor. -/
theorem climbUpTo_of_end (h : reg.ancestor? k t = none) (hu : reg.isSubtype t u = false)
    (hkn : k ≤ n) : reg.climbUpTo n t u = some false := by
  induction k generalizing t n with
  | zero => cases h
  | succ k ih =>
    obtain ⟨n, rfl⟩ := Nat.exists_eq_add_of_le' hkn
    have hstep := mt isSubtype_iff_base.2 (Bool.eq_false_iff.1 hu)
    rw [not_or] at hstep
    rw [← Nat.add_assoc, climbUpTo, if_neg hstep.1]
    cases hb : reg.base? t with
    | none => rfl
    | some b =>
      refine ih ((ancestor?_of_base hb k).symm.trans h) ?_ (by omega)
      exact Bool.eq_false_iff.2 fun hbu => hstep.2 ⟨b, hb, hbu⟩

/-- What is found is an ancestor. -/
theorem isSubtype_of_climbUpTo (h : reg.climbUpTo n t u = some true) :
    reg.isSubtype t u = true := by
  induction n generalizing t with
  | zero => cases h
  | succ n ih =>
    rw [climbUpTo] at h
    refine isSubtype_iff_base.2 ?_
    split at h
    · exact .inl ‹_›
    · cases hb : reg.base? t with
      | none =>
        rw [hb] at h
        cases h
      | some b =>
        rw [hb] at h
        exact .inr ⟨b, rfl, ih h⟩

/-- If there is no such ancestor, the loop only comes to an end where the line does. -/
theorem ends_of_climbUpTo (h : reg.climbUpTo n t u = some false) : reg.Ends t := by
  induction n generalizing t with
  | zero => cases h
  | succ n ih =>
    rw [climbUpTo] at h
    refine ends_of_base fun b hb => ih ?_
    split at h
    · cases h
    · rwa [hb] at h

/-- An ancestor is found in one round more than there are definitions, if not before. -/
theorem climbUpTo_of_isSubtype (h : reg.isSubtype t u = true) (hn : reg.definitions.size < n) :
    reg.climbUpTo n t u = some true := by
  obtain ⟨k, hk⟩ := isSubtype_iff.1 h
  obtain ⟨m, hm, hmt⟩ := exists_le_size hk
  exact climbUpTo_of_ancestor hmt (Nat.lt_of_le_of_lt hm hn)

/-- On a line that ends, the loop says whether there is such an ancestor. -/
theorem Ends.climbUpTo (h : reg.Ends t) (hn : reg.definitions.size < n) (u : Ty) :
    reg.climbUpTo n t u = some (reg.isSubtype t u) := by
  cases hu : reg.isSubtype t u with
  | true => exact climbUpTo_of_isSubtype hu hn
  | false => exact climbUpTo_of_end h.ancestor?_size hu hn

/-- Where bases have no cycle, the loop ends and says whether there is such an ancestor. -/
theorem Rooted.climbUpTo (hr : reg.Rooted) (t u : Ty) :
    reg.climbUpTo (reg.definitions.size + 1) t u = some (reg.isSubtype t u) :=
  (hr.ends t).climbUpTo (Nat.lt_succ_self _) u

/-- On a line without end, the loop goes on for ever if there is no such ancestor. -/
theorem climbUpTo_of_not_ends (h : ¬reg.Ends t) (hu : reg.isSubtype t u = false) (n : Nat) :
    reg.climbUpTo n t u = none := by
  cases hr : reg.climbUpTo n t u with
  | none => rfl
  | some r =>
    cases r with
    | false => exact absurd (ends_of_climbUpTo hr) h
    | true => exact absurd (isSubtype_of_climbUpTo hr) (Bool.eq_false_iff.1 hu)

theorem base?_of_definition? {def' : Definition × List Ty} (h : reg.definition? t = some def') :
    reg.base? t = def'.1.base := by rw [base?, h, Option.bind_some]

theorem gatherUpTo_succ : reg.gatherUpTo (n + 1) t =
    match reg.base? t with
    | none => some (reg.definition? t).toList
    | some b => (reg.gatherUpTo n b).map ((reg.definition? t).toList ++ ·) := by
  rw [gatherUpTo]
  cases hd : reg.definition? t with
  | none => rw [base?, hd]; rfl
  | some def' =>
    rw [base?_of_definition? hd]
    dsimp only
    cases def'.1.base <;> rfl

/-- A line that ends is the same however many more types are asked for. -/
theorem lineUpTo_of_none (h : reg.ancestor? k t = none) (hkn : k ≤ n) :
    reg.lineUpTo n t = reg.lineUpTo k t := by
  induction k generalizing t n with
  | zero => cases h
  | succ k ih =>
    obtain ⟨n, rfl⟩ := Nat.exists_eq_add_of_le' hkn
    rw [← Nat.add_assoc, lineUpTo, lineUpTo]
    cases hb : reg.base? t with
    | none => rfl
    | some b =>
      have hk : reg.ancestor? k b = none := (ancestor?_of_base hb k).symm.trans h
      exact congrArg (t :: ·) (ih hk (by omega))

theorem Ends.lineage_eq (h : reg.Ends t) : reg.lineage t = (reg.definition? t).toList ++
    match reg.base? t with
    | some b => reg.lineage b
    | none => [] := by
  have hline : reg.line t = t :: match reg.base? t with
      | some b => reg.line b
      | none => [] := by
    rw [line, lineUpTo]
    cases hb : reg.base? t with
    | none => rfl
    | some b =>
      have hend : reg.ancestor? reg.definitions.size b = none :=
        (ancestor?_of_base hb _).symm.trans h.ancestor?_size
      exact congrArg (t :: ·) (lineUpTo_of_none hend (Nat.le_succ _)).symm
  unfold lineage
  rw [hline]
  cases reg.base? t <;> cases hd : reg.definition? t <;> simp [hd]

/-- On a line that ends, the loop gathers its definitions. -/
theorem gatherUpTo_of_end (h : reg.ancestor? k t = none) (hkn : k ≤ n) :
    reg.gatherUpTo n t = some (reg.lineage t) := by
  induction k generalizing t n with
  | zero => cases h
  | succ k ih =>
    obtain ⟨n, rfl⟩ := Nat.exists_eq_add_of_le' hkn
    rw [← Nat.add_assoc, gatherUpTo_succ, Ends.lineage_eq ⟨k + 1, h⟩]
    cases hb : reg.base? t with
    | none => simp
    | some b => simp [ih ((ancestor?_of_base hb k).symm.trans h) (by omega : k ≤ n + k)]

/-- The loop only comes to an end where the line does. -/
theorem ends_of_gatherUpTo {ds : List (Definition × List Ty)}
    (h : reg.gatherUpTo n t = some ds) : reg.Ends t := by
  induction n generalizing t ds with
  | zero => cases h
  | succ n ih =>
    refine ends_of_base fun b hb => ?_
    rw [gatherUpTo_succ, hb] at h
    obtain ⟨rest, hrest, -⟩ := Option.map_eq_some_iff.1 h
    exact ih hrest

theorem gatherUpTo_of_not_ends (h : ¬reg.Ends t) (n : Nat) : reg.gatherUpTo n t = none :=
  Option.eq_none_iff_forall_ne_some.2 fun _ hds => h (ends_of_gatherUpTo hds)

/-! ### Setting a base -/

theorem base?_congr {reg' : Registry} (h : reg'.outline = reg.outline) (t : Ty) :
    reg'.base? t = reg.base? t := by
  have hbase (d : DefId) : (reg'.definition d).base = (reg.definition d).base :=
    congrArg (·.2.2) (outline_definition h d)
  unfold base? definition?
  cases defOf? t <;> simp [hbase]

theorem base?_push {reg' : Registry} {name : String} {arity : Nat}
    (h : reg'.definitions = reg.definitions.push (.bare name arity)) (t : Ty) :
    reg'.base? t = reg.base? t := by
  have hbase (d : DefId) : (reg'.definition d).base = (reg.definition d).base := by
    unfold definition
    rw [h, Array.getElem?_push]
    split
    · rename_i hd
      rw [Array.getElem?_eq_none (Nat.le_of_eq hd.symm)]
      rfl
    · rfl
  unfold base? definition?
  cases defOf? t <;> simp [hbase]

theorem ancestor?_congr {reg' : Registry} (h : ∀ t, reg'.base? t = reg.base? t) (k : Nat)
    (t : Ty) : reg'.ancestor? k t = reg.ancestor? k t := by
  induction k generalizing t with
  | zero => rfl
  | succ k ih =>
    rw [ancestor?, ancestor?, h]
    exact Option.bind_congr fun b _ => ih b

theorem Ends.congr {reg' : Registry} (h : reg.Ends t) (hbase : ∀ t, reg'.base? t = reg.base? t) :
    reg'.Ends t := by
  obtain ⟨k, hk⟩ := h
  exact ⟨k, (ancestor?_congr hbase k t).trans hk⟩

section SetBase

variable {reg' : Registry}
  (h : reg'.definitions = reg.definitions.modify d fun def' => { def' with base := some b })

include h

/-- Only types of the definition get another base. -/
theorem base?_setBase (t : Ty) :
    reg'.base? t = reg.base? t ∨ (∃ args, defOf? t = some (d, args)) ∧ reg'.base? t = some b := by
  unfold base? definition?
  cases ht : defOf? t with
  | none => exact .inl rfl
  | some def' =>
    obtain ⟨e, args⟩ := def'
    simp only [Option.map_some, Option.bind_some, definition, h]
    by_cases he : d = e
    · subst he
      cases hd : reg.definitions[d]? with
      | none => exact .inl (by simp [Array.getElem?_modify, hd])
      | some def' => exact .inr ⟨⟨args, rfl⟩, by simp [Array.getElem?_modify, hd]⟩
    · exact .inl (by simp [Array.getElem?_modify, he])

/-- **A base that does not lead back to its definition leaves all lines with an end.** -/
theorem ends_setBase (hall : ∀ t, reg.Ends t) (hb : ¬reg.LeadsTo b d) (t : Ty) : reg'.Ends t := by
  -- the line of the new base does not meet the definition, so it is as before
  have hbase : reg'.Ends b := by
    revert hb
    refine (hall b).induct (P := fun t => ¬reg.LeadsTo t d → reg'.Ends t) fun t ih ht => ?_
    refine ends_of_base fun u hu => ?_
    rcases base?_setBase h t with hsame | ⟨⟨args, hd⟩, -⟩
    · rw [hsame] at hu
      refine ih u hu fun ⟨k, v, args, hk, hv⟩ => ht ⟨k + 1, v, args, ?_, hv⟩
      exact (ancestor?_of_base hu k).trans hk
    · exact absurd ⟨0, t, args, rfl, hd⟩ ht
  refine (hall t).induct (P := reg'.Ends) fun t ih => ends_of_base fun u hu => ?_
  rcases base?_setBase h t with hsame | ⟨-, hset⟩
  · exact ih u (hsame ▸ hu)
  · obtain rfl : b = u := Option.some.inj (hset.symm.trans hu)
    exact hbase

end SetBase

/-- The lines of a preset end, since a base in it has no base. -/
theorem ends_preset (preset : Preset) (t : Ty) : (built preset []).Ends t := by
  have hbases : ∀ def' ∈ (built preset []).definitions, ∀ b ∈ def'.base,
      (built preset []).base? b = none := by
    cases preset <;> decide +kernel
  refine ⟨2, ?_⟩
  rw [ancestor?]
  cases hb : (built preset []).base? t with
  | none => rfl
  | some b =>
    obtain ⟨d, args, -, hd⟩ := base?_eq_some hb
    have hlt := lt_size_of_base hd
    have hmem : (built preset []).definition d ∈ (built preset []).definitions := by
      rw [definition, Array.getElem?_eq_getElem hlt]
      exact Array.getElem_mem hlt
    rw [Option.bind_some, ancestor?, hbases _ hmem b hd]
    rfl

/-- No base in the declarations leads back to its definition, as the registry is when it is set. -/
def LeadsNoneBack (preset : Preset) (decls : List Declaration) : Prop :=
  ∀ i d b, decls[i]? = some (.base d b) → ¬(built preset (decls.take i)).LeadsTo b d

/-- As long as no base leads back to its definition, all lines end. -/
theorem ends_built {preset : Preset} {decls : List Declaration} (h : LeadsNoneBack preset decls)
    (t : Ty) : (built preset decls).Ends t := by
  induction decls using List.reverseRecOn generalizing t with
  | nil => exact ends_preset preset t
  | append_singleton decls decl ih =>
    have hprev : ∀ t, (built preset decls).Ends t := by
      refine ih fun i d b hi => ?_
      have hlt : i < decls.length := (List.getElem?_eq_some_iff.1 hi).1
      have hback := h i d b (by rwa [List.getElem?_append_left hlt])
      rwa [List.take_append_of_le_length (Nat.le_of_lt hlt)] at hback
    have hbuilt : built preset (decls ++ [decl]) =
        (decl.build.run (Builder.built preset decls)).2.registry :=
      congrArg Builder.registry (Builder.built_concat preset decls decl)
    rw [hbuilt]
    rcases decl.outline_build (Builder.built preset decls) with ⟨name, arity, -, hdefs⟩ |
      ⟨d, b, rfl, -, hdefs⟩ | ⟨-, houtline⟩
    · exact (hprev t).congr (base?_push hdefs)
    · have hback := h decls.length d b (by simp)
      rw [List.take_left] at hback
      exact ends_setBase hdefs hprev hback t
    · exact (hprev t).congr (base?_congr houtline)

/-- **When the loops end.** Whatever has been declared in whatever order, all lines end just if no
type is among its own ancestors, which is so if no base led back to its definition when it was set.
Where a line ends, both loops do, for every pair of types, in one round more than there are
definitions at most, and give what the look-ups are made of. Where it does not, the definitions are
never gathered, and a type that is no ancestor is looked for for ever. -/
theorem lines_end_iff (preset : Preset) (decls : List Declaration) :
    ((∀ t, (built preset decls).Ends t) ↔ (built preset decls).Acyclic) ∧
    (LeadsNoneBack preset decls → ∀ t, (built preset decls).Ends t) ∧
    (∀ t, (built preset decls).Ends t → ∀ n > (built preset decls).definitions.size,
      (built preset decls).gatherUpTo n t = some ((built preset decls).lineage t) ∧
      ∀ u, (built preset decls).climbUpTo n t u = some ((built preset decls).isSubtype t u)) ∧
    (∀ t, ¬(built preset decls).Ends t → (∀ n, (built preset decls).gatherUpTo n t = none) ∧
      ∀ u, ((built preset decls).isSubtype t u = true →
          ∀ n > (built preset decls).definitions.size,
            (built preset decls).climbUpTo n t u = some true) ∧
        ((built preset decls).isSubtype t u = false →
          ∀ n, (built preset decls).climbUpTo n t u = none)) :=
  ⟨ends_iff_acyclic, fun h t => ends_built h t,
    fun _ h _ hn => ⟨gatherUpTo_of_end h.ancestor?_size hn, h.climbUpTo hn⟩,
    fun _ h => ⟨gatherUpTo_of_not_ends h, fun _ =>
      ⟨fun hu _ hn => climbUpTo_of_isSubtype hu hn, climbUpTo_of_not_ends h⟩⟩⟩

/-- A square and a shape: the square is below the shape, and below nothing else. -/
theorem lines_end_iff_squares :
    LeadsNoneBack .standard [.type "Shape", .type "Square", .base 9 (.named 8 [])] ∧
      (built .standard [.type "Shape", .type "Square", .base 9 (.named 8 [])]).climbUpTo 11
        (.named 9 []) (.named 8 []) = some true ∧
      (built .standard [.type "Shape", .type "Square", .base 9 (.named 8 [])]).climbUpTo 11
        (.named 9 []) .int = some false := by
  have hback : LeadsNoneBack .standard
      [.type "Shape", .type "Square", .base 9 (.named 8 [])] := by
    intro i d b hi
    match i with
    | 0 | 1 | i + 3 => cases hi
    | 2 =>
      cases hi
      have hroot : (built .standard [.type "Shape", .type "Square"]).base? (.named 8 []) =
          none := by
        decide +kernel
      rintro ⟨k, u, args, hk, hu⟩
      cases k with
      | zero =>
        cases hk
        cases hu
      | succ k =>
        rw [ancestor?] at hk
        rw [show List.take 2 [Declaration.type "Shape", .type "Square", .base 9 (.named 8 [])] =
          [.type "Shape", .type "Square"] from rfl, hroot] at hk
        cases hk
  obtain ⟨-, hends, hloops, -⟩ :=
    lines_end_iff .standard [.type "Shape", .type "Square", .base 9 (.named 8 [])]
  have hclimb := (hloops (.named 9 []) (hends hback _) 11 (by decide +kernel)).2
  refine ⟨hback, (hclimb _).trans (congrArg some ?_), (hclimb _).trans (congrArg some ?_)⟩
  · decide +kernel
  · decide +kernel

/-- A type may be its own base. Then the loops go on for ever. -/
theorem endless_self :
    ¬(built .empty [.type "A", .base 2 (.named 2 [])]).Ends (.named 2 []) ∧ ∀ n,
      (built .empty [.type "A", .base 2 (.named 2 [])]).climbUpTo n (.named 2 []) .int = none ∧
      (built .empty [.type "A", .base 2 (.named 2 [])]).gatherUpTo n (.named 2 []) = none := by
  have hself : (built .empty [.type "A", .base 2 (.named 2 [])]).ancestor? (0 + 1) (.named 2 []) =
      some (.named 2 []) := by decide +kernel
  have hends := not_ends_of_ancestor hself
  exact ⟨hends, fun n =>
    ⟨climbUpTo_of_not_ends hends (by decide +kernel) n, gatherUpTo_of_not_ends hends n⟩⟩

end Registry

end TypedExpr
