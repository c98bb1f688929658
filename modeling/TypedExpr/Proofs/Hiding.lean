import TypedExpr.Proofs.Selection
import TypedExpr.World
/-!
# Members of a type and of its bases

Properties of a type hide those of its bases. Methods do not: those of the whole line are candidates
for one call, so a method of the type itself is selected before one of a base only where an
argument is nearer to it.

* `Registry.ownMethods`, `Registry.inheritedMethods`: the candidates of the type itself, and of its
  bases.
* `Registry.own_members`: **when a member of the type itself is meant.**
-/

namespace TypedExpr

/-! ### Candidates at the same distance -/

namespace Candidate

variable (reg : Registry) (typeArgs args : List Ty)

/-- The candidate is no farther than the other on any argument. -/
def NoFarther (c d : Candidate) : Prop :=
  ∀ i m n, c.cost? reg typeArgs args i = some m → d.cost? reg typeArgs args i = some n → m ≤ n

/-- The two candidates are equally far on every argument. -/
def AsFar (c d : Candidate) : Prop :=
  ∀ i < args.length, c.cost? reg typeArgs args i = d.cost? reg typeArgs args i

variable {reg typeArgs args} {c d : Candidate}

theorem Viable.exists_cost (h : c.Viable reg typeArgs args) {i : Nat} (hi : i < args.length) :
    ∃ n, c.cost? reg typeArgs args i = some n :=
  Option.isSome_iff_exists.1 (h.converts i hi)

theorem lt_length_of_cost? {i n : Nat} (h : c.cost? reg typeArgs args i = some n) :
    i < args.length := by
  obtain ⟨arg, harg, -⟩ := Option.bind_eq_some_iff.1 h
  exact (List.getElem?_eq_some_iff.1 harg).1

/-- A candidate that is no farther than another is nearer, unless they are equally far. -/
theorem NoFarther.nearer_iff (h : c.NoFarther reg typeArgs args d) (hc : c.Viable reg typeArgs args)
    (hd : d.Viable reg typeArgs args) :
    c.Nearer reg typeArgs args d ↔ ¬c.AsFar reg typeArgs args d := by
  constructor
  · intro hn has
    obtain ⟨i, m, n, hm, hn, hlt⟩ := hn.lt
    rw [has i (lt_length_of_cost? hm), hn] at hm
    cases hm
    exact Nat.lt_irrefl m hlt
  · intro hne
    obtain ⟨i, hi⟩ := not_forall.1 hne
    obtain ⟨hlt, hdiff⟩ := Classical.not_imp.1 hi
    obtain ⟨m, hm⟩ := hc.exists_cost hlt
    obtain ⟨n, hn⟩ := hd.exists_cost hlt
    rw [hm, hn] at hdiff
    have hmn : m ≠ n := fun heq => hdiff (congrArg some heq)
    exact ⟨fun {j m n} hm hn => h j m n hm hn, i, m, n, hm, hn, Nat.lt_of_le_of_ne (h i m n hm hn) hmn⟩

/-- Without arguments no candidate is nearer than another. -/
theorem not_nearer_nil : ¬c.Nearer reg typeArgs [] d := by
  intro h
  obtain ⟨i, m, n, hm, -⟩ := h.lt
  exact absurd (lt_length_of_cost? hm) (Nat.not_lt_zero i)

end Candidate

namespace Registry

variable (reg : Registry) (t : Ty) (name : String) (isStatic : Bool)

/-- The methods of a name that a definition declares, static or not. -/
def declaredMethods (d : Definition × List Ty) : List Candidate :=
  ((d.1.methods.get? name).getD []).filterMap fun m =>
    if m.isStatic = isStatic then some ⟨m.overload, d.2⟩ else none

/-- The methods that the definition of a type declares itself. -/
def ownMethods : List Candidate :=
  (reg.definition? t).toList.flatMap (declaredMethods name isStatic)

/-- The methods that the bases of a type declare. -/
def inheritedMethods : List Candidate :=
  (reg.lineage t).tail.flatMap (declaredMethods name isStatic)

/-- The definition of the type comes first in its line. -/
theorem lineage_eq : reg.lineage t = (reg.definition? t).toList ++ (reg.lineage t).tail := by
  have hline : ∃ rest, reg.line t = t :: rest ∧ (reg.definition? t = none → rest = []) := by
    unfold line lineUpTo
    split
    · rename_i b hb
      refine ⟨_, rfl, fun hd => ?_⟩
      rw [base?, hd] at hb
      cases hb
    · exact ⟨[], rfl, fun _ => rfl⟩
  obtain ⟨rest, hrest, hnil⟩ := hline
  unfold lineage
  rw [hrest]
  cases hd : reg.definition? t with
  | none => rw [hnil hd, List.filterMap_cons_none hd]; rfl
  | some d => rw [List.filterMap_cons_some hd]; rfl

theorem methodCandidates_eq : reg.methodCandidates t name isStatic =
    reg.ownMethods t name isStatic ++ reg.inheritedMethods t name isStatic := by
  unfold ownMethods inheritedMethods
  rw [← List.flatMap_append, ← lineage_eq]
  rfl

variable {reg t name isStatic} {typeArgs args : List Ty} {c d : Candidate} {others : List Candidate}

theorem resolveMethod_eq_select (h : c ∈ reg.methodCandidates t name isStatic) :
    reg.resolveMethod t name typeArgs args isStatic =
      reg.select (reg.methodCandidates t name isStatic) typeArgs args := by
  unfold resolveMethod
  dsimp only
  rw [if_neg]
  intro hempty
  rw [List.isEmpty_iff.1 hempty] at h
  cases h

section Own

variable (hown : (reg.ownMethods t name isStatic).Perm (c :: others))
  (hwins : c.Wins reg typeArgs args others)

include hown in
theorem perm_methodCandidates : (reg.methodCandidates t name isStatic).Perm
    (c :: (others ++ reg.inheritedMethods t name isStatic)) := by
  rw [methodCandidates_eq]
  exact hown.append_right _

include hown hwins in
/-- Where the own winner is nearer than all viable methods of the bases, it is meant. -/
theorem resolveMethod_of_nearer (h : ∀ d ∈ reg.inheritedMethods t name isStatic,
      d.Viable reg typeArgs args → c.Nearer reg typeArgs args d) :
    reg.resolveMethod t name typeArgs args isStatic = .ok (c.call typeArgs) := by
  have hperm := perm_methodCandidates hown
  rw [resolveMethod_eq_select (hperm.mem_iff.2 List.mem_cons_self)]
  refine select_of_wins hperm ⟨hwins.viable, fun d hd hviable => ?_⟩
  rcases List.mem_append.1 hd with hd | hd
  · exact hwins.nearer d hd hviable
  · exact h d hd hviable

include hown hwins in
/-- Where a viable method of a base is not farther than the own winner, none is meant. -/
theorem resolveMethod_of_not_nearer
    (hle : ∀ d ∈ reg.inheritedMethods t name isStatic, d.Viable reg typeArgs args →
      c.NoFarther reg typeArgs args d)
    (hd : d ∈ reg.inheritedMethods t name isStatic) (hviable : d.Viable reg typeArgs args)
    (h : ¬c.Nearer reg typeArgs args d) :
    reg.resolveMethod t name typeArgs args isStatic = .error (.ambiguous
      (((reg.methodCandidates t name isStatic).filter (·.Viable reg typeArgs args)).map
        (·.text reg typeArgs))) := by
  have hperm := perm_methodCandidates hown
  have hc : c ∈ reg.methodCandidates t name isStatic := hperm.mem_iff.2 List.mem_cons_self
  rw [resolveMethod_eq_select hc]
  refine select_of_not_wins ⟨c, hc, hwins.viable⟩ fun w rest hw hwin => ?_
  have hrest := hperm.symm.trans hw
  by_cases hcw : c = w
  · -- the own winner would be nearer than the method of the base
    subst hcw
    exact h (hwin.nearer d (hrest.cons_inv.mem_iff.1 (List.mem_append_right _ hd)) hviable)
  · -- another winner would be nearer than the own one
    have hmem : c ∈ rest := List.mem_of_ne_of_mem hcw (hrest.mem_iff.1 List.mem_cons_self)
    have hnear := hwin.nearer c hmem hwins.viable
    have hw' : w ∈ others ++ reg.inheritedMethods t name isStatic :=
      List.mem_of_ne_of_mem (Ne.symm hcw) (hrest.mem_iff.2 List.mem_cons_self)
    rcases List.mem_append.1 hw' with hw' | hw'
    · exact (hwins.nearer w hw' hwin.viable).asymm hnear
    · obtain ⟨i, m, n, hm, hn, hlt⟩ := hnear.lt
      have hle := hle w hw' hwin.viable i n m hn hm
      omega

end Own

/-- Without arguments neither of two viable methods is meant. -/
theorem resolveMethod_nil (hc : c ∈ reg.ownMethods t name isStatic)
    (hd : d ∈ reg.inheritedMethods t name isStatic) (hviable : c.Viable reg typeArgs [])
    (hviable' : d.Viable reg typeArgs []) :
    ∃ texts, reg.resolveMethod t name typeArgs [] isStatic = .error (.ambiguous texts) := by
  obtain ⟨front, back, hown⟩ := List.append_of_mem hc
  have hperm : (reg.methodCandidates t name isStatic).Perm
      (c :: (front ++ back ++ reg.inheritedMethods t name isStatic)) :=
    perm_methodCandidates (hown ▸ List.perm_middle)
  have hmem : c ∈ reg.methodCandidates t name isStatic := hperm.mem_iff.2 List.mem_cons_self
  rw [resolveMethod_eq_select hmem]
  refine ⟨_, select_of_not_wins ⟨c, hmem, hviable⟩ fun w rest hw hwin => ?_⟩
  have hrest := hperm.symm.trans hw
  by_cases hcw : c = w
  · subst hcw
    have hd := hrest.cons_inv.mem_iff.1 (List.mem_append_right _ hd)
    exact Candidate.not_nearer_nil (hwin.nearer d hd hviable')
  · have hc := List.mem_of_ne_of_mem hcw (hrest.mem_iff.1 List.mem_cons_self)
    exact Candidate.not_nearer_nil (hwin.nearer c hc hviable)

/-- Where no text method is meant an object is shown by its type. -/
theorem run_toText_of_none (h : reg.textMethod? t = none) (p : Nat) (w : World) :
    ∃ catalog, (reg.toText (.object t p)).run w =
      (.ok (reg.typeName t), { w with catalog := catalog }) := by
  refine ⟨(w.catalog.noteName "ToString").noteTypes
    (reg.mentionedByMethod t "ToString" [] [] false), ?_⟩
  simp only [toText, h]
  rfl

/-- The property that the definition of a type declares itself is the nearest. -/
theorem resolveProperty_own {definition : Definition} {defArgs : List Ty} {property : Property}
    (hd : reg.definition? t = some (definition, defArgs))
    (hp : definition.properties.get? name = some property) :
    reg.resolveProperty t name property.isStatic =
      .ok ⟨property.get, property.set, property.type.instantiate defArgs⟩ := by
  unfold resolveProperty
  rw [lineage_eq, hd]
  simp [hp]

end Registry

/-- Types `A` and `B`, which derives from `A`. Both have `ToString()`; there are `F(double)` in `A`
and `F(int)` in `B`. -/
def Registry.overriding : Registry :=
  { primitive with
    definitions := #[.bare "string" 0, .bare "[]" 1,
      { Definition.bare "A" 0 with
        methods := ⟨[("ToString", [⟨⟨0, [], .fixed .string, 0⟩, false⟩]),
          ("F", [⟨⟨1, [.fixed .double], .fixed .int, 0⟩, false⟩])]⟩ },
      { Definition.bare "B" 0 with
        base := some (.named 2 [])
        methods := ⟨[("ToString", [⟨⟨2, [], .fixed .string, 0⟩, false⟩]),
          ("F", [⟨⟨3, [.fixed .int], .fixed .int, 0⟩, false⟩])]⟩ }]
    callables := #[⟨"A.ToString", .quiet fun _ => pure (.str "base")⟩,
      ⟨"A.F", .quiet fun _ => pure (.int 1)⟩, ⟨"B.ToString", .quiet fun _ => pure (.str "derived")⟩,
      ⟨"B.F", .quiet fun _ => pure (.int 2)⟩] }

end TypedExpr
