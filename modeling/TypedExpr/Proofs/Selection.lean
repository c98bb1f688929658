import Mathlib.Data.List.Perm.Basic
import TypedExpr.Registry.Overload
/-!
# The overload that is meant

A candidate is compared with every other viable one, argument by argument. At most one of them is
nearer than all others, and it does not matter in which order the candidates come, nor which others
there are that are not viable.

* `Candidate.Viable`: the arguments fit in number and convert, each at a cost.
* `Candidate.Nearer`: a candidate is no farther than another on any argument, and nearer on one.
* `Registry.select_optimal`: **the candidate that is selected is nearer than all other viable ones,
  in whichever order they come.**
-/

namespace TypedExpr

namespace Candidate

variable (reg : Registry) (typeArgs args : List Ty)

/-- How far the argument at a place is from its parameter. -/
def cost? (c : Candidate) (i : Nat) : Option Nat := do
  reg.implicitCost? (← args[i]?) (← (c.call typeArgs).params[i]?)

/-- The candidate takes as many type arguments and arguments, and every argument converts to its
parameter by itself. -/
structure Viable (c : Candidate) : Prop where
  typeParams : c.overload.typeParams = typeArgs.length
  arity : c.overload.params.length = args.length
  converts : ∀ i < args.length, (c.cost? reg typeArgs args i).isSome

/-- The candidate is no farther than the other on any argument, and nearer on at least one. -/
structure Nearer (c d : Candidate) : Prop where
  le {i m n : Nat} (hc : c.cost? reg typeArgs args i = some m)
    (hd : d.cost? reg typeArgs args i = some n) : m ≤ n
  lt : ∃ i m n, c.cost? reg typeArgs args i = some m ∧ d.cost? reg typeArgs args i = some n ∧ m < n

/-- The candidate is viable, and nearer than all others that are. -/
structure Wins (c : Candidate) (others : List Candidate) : Prop where
  viable : c.Viable reg typeArgs args
  nearer : ∀ d ∈ others, d.Viable reg typeArgs args → c.Nearer reg typeArgs args d

/-- How a candidate is written. -/
def text (c : Candidate) : String :=
  reg.signatureText c.overload.callable (c.call typeArgs).params

variable {reg typeArgs args}

theorem Nearer.asymm {c d : Candidate} (h : c.Nearer reg typeArgs args d) :
    ¬d.Nearer reg typeArgs args c := by
  intro h'
  obtain ⟨i, m, n, hc, hd, hlt⟩ := h.lt
  have hle := h'.le hd hc
  omega

end Candidate

/-- A failure without the candidates that it lists. -/
def ResolveError.bare : ResolveError → ResolveError
  | .noMatch _ => .noMatch []
  | .ambiguous _ => .ambiguous []
  | e => e

namespace Registry

variable {reg : Registry} {typeArgs args : List Ty}

/-! ### Costs -/

theorem getElem?_costs {params : List Ty} {costs : List Nat}
    (h : reg.costs? args params = some costs) (i : Nat) :
    costs[i]? = (do reg.implicitCost? (← args[i]?) (← params[i]?)) := by
  induction args generalizing params costs i with
  | nil =>
    cases params with
    | nil => cases h; rfl
    | cons _ _ => cases h
  | cons arg args ih =>
    cases params with
    | nil => cases h
    | cons param params =>
      obtain ⟨cost, hcost, h⟩ := Option.bind_eq_some_iff.1 h
      obtain ⟨rest, hrest, h⟩ := Option.bind_eq_some_iff.1 h
      cases h
      cases i with
      | zero => simpa using hcost.symm
      | succ i => simpa using ih hrest i

theorem length_costs {params : List Ty} {costs : List Nat}
    (h : reg.costs? args params = some costs) :
    params.length = args.length ∧ costs.length = args.length := by
  induction args generalizing params costs with
  | nil =>
    cases params with
    | nil => cases h; exact ⟨rfl, rfl⟩
    | cons _ _ => cases h
  | cons arg args ih =>
    cases params with
    | nil => cases h
    | cons param params =>
      obtain ⟨cost, -, h⟩ := Option.bind_eq_some_iff.1 h
      obtain ⟨rest, hrest, h⟩ := Option.bind_eq_some_iff.1 h
      cases h
      obtain ⟨hp, hc⟩ := ih hrest
      exact ⟨congrArg (· + 1) hp, congrArg (· + 1) hc⟩

theorem exists_costs {params : List Ty} (hlen : params.length = args.length)
    (h : ∀ i < args.length, (do reg.implicitCost? (← args[i]?) (← params[i]?) : Option Nat).isSome) :
    ∃ costs, reg.costs? args params = some costs := by
  induction args generalizing params with
  | nil =>
    obtain rfl := List.eq_nil_of_length_eq_zero hlen
    exact ⟨[], rfl⟩
  | cons arg args ih =>
    cases params with
    | nil => cases hlen
    | cons param params =>
      obtain ⟨cost, hcost⟩ := Option.isSome_iff_exists.1 (h 0 (Nat.succ_pos _))
      obtain ⟨costs, hcosts⟩ := ih (Nat.succ.inj hlen) fun i hi => by
        simpa using h (i + 1) (Nat.succ_lt_succ hi)
      have hcost : reg.implicitCost? arg param = some cost := by simpa using hcost
      exact ⟨cost :: costs, by simp [costs?, hcost, hcosts]⟩

/-- Costs of the same arguments, compared one by one. -/
theorem dominates_iff {a b : List Nat} (hlen : a.length = b.length) :
    dominates a b = true ↔
      (∀ i m n : Nat, a[i]? = some m → b[i]? = some n → m ≤ n) ∧
        ∃ i m n : Nat, a[i]? = some m ∧ b[i]? = some n ∧ m < n := by
  have hle : ((a.zip b).all fun p => decide (p.1 ≤ p.2)) = true ↔
      ∀ i m n : Nat, a[i]? = some m → b[i]? = some n → m ≤ n := by
    rw [List.all_eq_true]
    constructor
    · intro h i m n hm hn
      have hmem : (m, n) ∈ a.zip b :=
        List.mem_of_getElem? (List.getElem?_zip_eq_some.2 ⟨hm, hn⟩)
      exact of_decide_eq_true (h _ hmem)
    · rintro h ⟨m, n⟩ hmem
      obtain ⟨i, hi⟩ := List.mem_iff_getElem?.1 hmem
      obtain ⟨hm, hn⟩ := List.getElem?_zip_eq_some.1 hi
      exact decide_eq_true (h i m n hm hn)
  show ((a.zip b).all (fun p => decide (p.1 ≤ p.2)) && decide (a ≠ b)) = true ↔ _
  rw [Bool.and_eq_true_iff, hle, decide_eq_true_iff]
  refine and_congr_right fun hall => ⟨fun hne => ?_, ?_⟩
  · obtain ⟨i, hi⟩ := not_forall.1 fun h => hne (List.ext_getElem? h)
    by_cases hlt : i < a.length
    · have hm := List.getElem?_eq_getElem hlt
      have hn := List.getElem?_eq_getElem (hlen ▸ hlt)
      refine ⟨i, _, _, hm, hn, Nat.lt_of_le_of_ne (hall i _ _ hm hn) fun heq => hi ?_⟩
      rw [hm, hn, heq]
    · have ha := Nat.le_of_not_lt hlt
      rw [List.getElem?_eq_none ha, List.getElem?_eq_none (hlen ▸ ha)] at hi
      exact absurd rfl hi
  · rintro ⟨i, m, n, hm, hn, hlt⟩ rfl
    rw [hm] at hn
    cases hn
    exact Nat.lt_irrefl m hlt

/-! ### Viable candidates -/

theorem exists_viable?_iff {c : Candidate} :
    (∃ v, reg.viable? typeArgs args c = some v) ↔ c.Viable reg typeArgs args := by
  have hparams : (c.call typeArgs).params.length = c.overload.params.length := List.length_map _
  constructor
  · rintro ⟨v, h⟩
    unfold viable? at h
    split at h
    · rename_i htype
      obtain ⟨costs, hcosts, -⟩ := Option.map_eq_some_iff.1 h
      obtain ⟨hp, hc⟩ := length_costs hcosts
      refine ⟨htype, hparams.symm.trans hp, fun i hi => ?_⟩
      have hget := getElem?_costs hcosts i
      rw [List.getElem?_eq_getElem (hc ▸ hi)] at hget
      exact Option.isSome_iff_exists.2 ⟨_, hget.symm⟩
    · cases h
  · intro h
    obtain ⟨costs, hcosts⟩ := exists_costs (hparams.trans h.arity) h.converts
    exact ⟨(c.call typeArgs, costs), by rw [viable?, if_pos h.typeParams, hcosts]; rfl⟩

instance (c : Candidate) : Decidable (c.Viable reg typeArgs args) :=
  decidable_of_iff _ (Option.isSome_iff_exists.trans exists_viable?_iff)

theorem viable?_isSome (c : Candidate) :
    (reg.viable? typeArgs args c).isSome = decide (c.Viable reg typeArgs args) := by
  rw [Bool.eq_iff_iff, decide_eq_true_iff, Option.isSome_iff_exists, exists_viable?_iff]

theorem viable?_eq_some {c : Candidate} {call : ResolvedCall} {costs : List Nat}
    (h : reg.viable? typeArgs args c = some (call, costs)) :
    call = c.call typeArgs ∧ costs.length = args.length ∧
      ∀ i, costs[i]? = c.cost? reg typeArgs args i := by
  unfold viable? at h
  split at h
  · obtain ⟨costs', hcosts, heq⟩ := Option.map_eq_some_iff.1 h
    cases heq
    exact ⟨rfl, (length_costs hcosts).2, getElem?_costs hcosts⟩
  · cases h

/-- A viable candidate dominates another just if it is nearer. -/
theorem dominates_iff_nearer {c d : Candidate} {v w : ResolvedCall × List Nat}
    (hc : reg.viable? typeArgs args c = some v) (hd : reg.viable? typeArgs args d = some w) :
    dominates v.2 w.2 = true ↔ c.Nearer reg typeArgs args d := by
  obtain ⟨-, hlc, hcc⟩ := viable?_eq_some hc
  obtain ⟨-, hld, hcd⟩ := viable?_eq_some hd
  rw [dominates_iff (hlc.trans hld.symm)]
  simp only [hcc, hcd]
  exact ⟨fun ⟨hle, hlt⟩ => ⟨fun hm hn => hle _ _ _ hm hn, hlt⟩,
    fun h => ⟨fun _ _ _ hm hn => h.le hm hn, h.lt⟩⟩

/-! ### Winners -/

section Winners

variable {viable : List (ResolvedCall × List Nat)} {v : ResolvedCall × List Nat}

theorem isWinner_iff {i : Nat} {costs : List Nat} :
    isWinner viable i costs = true ↔
      ∀ j w, viable[j]? = some w → j ≠ i → dominates costs w.2 = true := by
  unfold isWinner
  rw [List.all_eq_true]
  constructor
  · intro h j w hj hne
    have hw := h (w, j) (List.mk_mem_zipIdx_iff_getElem?.2 hj)
    rw [Bool.or_eq_true_iff, beq_iff_eq] at hw
    exact hw.resolve_left fun heq => hne heq.symm
  · rintro h ⟨w, j⟩ hmem
    rw [Bool.or_eq_true_iff, beq_iff_eq]
    by_cases hj : i = j
    · exact .inl hj
    · exact .inr (h j w (List.mk_mem_zipIdx_iff_getElem?.1 hmem) fun heq => hj heq.symm)

theorem isWinner_middle {front back : List (ResolvedCall × List Nat)}
    (h : ∀ w ∈ front ++ back, dominates v.2 w.2 = true) :
    isWinner (front ++ v :: back) front.length v.2 = true := by
  refine isWinner_iff.2 fun j w hj hne => h w ?_
  rcases Nat.lt_or_gt_of_ne hne with hlt | hlt
  · rw [List.getElem?_append_left hlt] at hj
    exact List.mem_append_left _ (List.mem_of_getElem? hj)
  · obtain ⟨k, rfl⟩ := Nat.exists_eq_add_of_lt hlt
    rw [List.getElem?_append_right (Nat.le_of_lt hlt),
      show front.length + k + 1 - front.length = k + 1 by omega, List.getElem?_cons_succ] at hj
    exact List.mem_append_right _ (List.mem_of_getElem? hj)

/-- Who dominates all others is the only one to do so, wherever it stands. -/
theorem winners_append_cons {front back : List (ResolvedCall × List Nat)}
    (h : ∀ w ∈ front ++ back, dominates v.2 w.2 = true ∧ dominates w.2 v.2 = false) :
    winners (front ++ v :: back) = [v.1] := by
  have hnone (part : List (ResolvedCall × List Nat)) (start : Nat)
      (hpart : ∀ w i, (w, i) ∈ part.zipIdx start → w ∈ front ++ back ∧ i ≠ front.length) :
      ((part.zipIdx start).filterMap fun x =>
        if isWinner (front ++ v :: back) x.2 x.1.2 then some x.1.1 else none) = [] := by
    rw [List.filterMap_eq_nil_iff]
    rintro ⟨w, i⟩ hmem
    obtain ⟨hw, hi⟩ := hpart w i hmem
    have hlost : ¬isWinner (front ++ v :: back) i w.2 = true := by
      intro hwin
      have hdom := isWinner_iff.1 hwin front.length v (by simp) hi.symm
      rw [(h w hw).2] at hdom
      cases hdom
    exact if_neg hlost
  have hfront := hnone front 0 fun w i hmem =>
    ⟨List.mem_append_left back (List.fst_mem_of_mem_zipIdx hmem),
      Nat.ne_of_lt (by simpa using (List.mem_zipIdx hmem).2.1)⟩
  have hback := hnone back (front.length + 1) fun w i hmem =>
    ⟨List.mem_append_right front (List.fst_mem_of_mem_zipIdx hmem),
      Nat.ne_of_gt (List.mem_zipIdx hmem).1⟩
  show ((front ++ v :: back).zipIdx.filterMap fun x =>
    if isWinner (front ++ v :: back) x.2 x.1.2 then some x.1.1 else none) = [v.1]
  rw [List.zipIdx_append, List.zipIdx_cons, Nat.zero_add, List.filterMap_append, hfront,
    List.filterMap_cons, hback]
  simp only [isWinner_middle fun w hw => (h w hw).1, if_true, List.nil_append]

/-- A list has one winner just if one of its members dominates all others. -/
theorem winners_eq_singleton_iff {call : ResolvedCall}
    (hasymm : ∀ v ∈ viable, ∀ w ∈ viable, dominates v.2 w.2 = true → dominates w.2 v.2 = false) :
    winners viable = [call] ↔ ∃ v others, viable.Perm (v :: others) ∧ v.1 = call ∧
      ∀ w ∈ others, dominates v.2 w.2 = true := by
  constructor
  · intro h
    have hmem : call ∈ winners viable := h ▸ List.mem_singleton_self call
    obtain ⟨⟨v, i⟩, hv, hwin⟩ := List.mem_filterMap.1 hmem
    dsimp only at hwin
    split at hwin
    · rename_i hw
      cases hwin
      obtain ⟨hi, hget⟩ := List.getElem?_eq_some_iff.1 (List.mk_mem_zipIdx_iff_getElem?.1 hv)
      subst hget
      refine ⟨viable[i], viable.eraseIdx i, (List.getElem_cons_eraseIdx_perm hi).symm, rfl, ?_⟩
      intro w hw'
      obtain ⟨j, hj, hne, rfl⟩ := List.mem_eraseIdx_iff_getElem.1 hw'
      exact isWinner_iff.1 hw j _ (List.getElem?_eq_getElem hj) hne
    · cases hwin
  · rintro ⟨v, others, hperm, rfl, hall⟩
    obtain ⟨front, back, rfl⟩ := List.append_of_mem (hperm.mem_iff.2 List.mem_cons_self)
    have hothers := (List.perm_middle.symm.trans hperm).cons_inv
    refine winners_append_cons fun w hw => ?_
    have hdom := hall w (hothers.mem_iff.1 hw)
    have hv : v ∈ front ++ v :: back := List.mem_append_right _ List.mem_cons_self
    have hw' : w ∈ front ++ v :: back :=
      hperm.mem_iff.2 (.tail _ (hothers.mem_iff.1 hw))
    exact ⟨hdom, hasymm v hv w hw' hdom⟩

end Winners

/-! ### Selection -/

variable {candidates candidates' : List Candidate}

theorem filterMap_perm_cons {α β : Type} {f : α → Option β} {as : List α} {b : β} {bs : List β} :
    (as.filterMap f).Perm (b :: bs) ↔
      ∃ a as', as.Perm (a :: as') ∧ f a = some b ∧ (as'.filterMap f).Perm bs := by
  constructor
  · intro h
    obtain ⟨a, ha, hb⟩ := List.mem_filterMap.1 (h.mem_iff.2 List.mem_cons_self)
    obtain ⟨front, back, rfl⟩ := List.append_of_mem ha
    refine ⟨a, front ++ back, List.perm_middle, hb, ?_⟩
    have hperm := (List.perm_middle.filterMap f).symm.trans h
    rw [List.filterMap_cons_some hb] at hperm
    exact hperm.cons_inv
  · rintro ⟨a, as', hperm, hb, hbs⟩
    have h := hperm.filterMap f
    rw [List.filterMap_cons_some hb] at h
    exact h.trans (hbs.cons b)

/-- Of two viable candidates at most one dominates the other. -/
theorem dominates_asymm : ∀ v ∈ candidates.filterMap (reg.viable? typeArgs args),
    ∀ w ∈ candidates.filterMap (reg.viable? typeArgs args),
    dominates v.2 w.2 = true → dominates w.2 v.2 = false := by
  intro v hv w hw hdom
  obtain ⟨c, -, hc⟩ := List.mem_filterMap.1 hv
  obtain ⟨d, -, hd⟩ := List.mem_filterMap.1 hw
  rw [dominates_iff_nearer hc hd] at hdom
  rw [← Bool.not_eq_true, dominates_iff_nearer hd hc]
  exact hdom.asymm

/-- A viable list has one winner just if a candidate wins over the others. -/
theorem winners_eq_iff {call : ResolvedCall} :
    winners (candidates.filterMap (reg.viable? typeArgs args)) = [call] ↔
      ∃ c others, candidates.Perm (c :: others) ∧ c.Wins reg typeArgs args others ∧
        c.call typeArgs = call := by
  rw [winners_eq_singleton_iff dominates_asymm]
  constructor
  · rintro ⟨v, rest, hperm, rfl, hall⟩
    obtain ⟨c, others, hcs, hc, hrest⟩ := filterMap_perm_cons.1 hperm
    refine ⟨c, others, hcs, ⟨exists_viable?_iff.1 ⟨v, hc⟩, fun d hd hviable => ?_⟩,
      (viable?_eq_some hc).1.symm⟩
    obtain ⟨w, hw⟩ := exists_viable?_iff.2 hviable
    have hmem := hrest.mem_iff.1 (List.mem_filterMap.2 ⟨d, hd, hw⟩)
    exact (dominates_iff_nearer hc hw).1 (hall w hmem)
  · rintro ⟨c, others, hcs, hwins, rfl⟩
    obtain ⟨v, hc⟩ := exists_viable?_iff.2 hwins.viable
    refine ⟨v, others.filterMap (reg.viable? typeArgs args),
      filterMap_perm_cons.2 ⟨c, others, hcs, hc, .refl _⟩, (viable?_eq_some hc).1, fun w hw => ?_⟩
    obtain ⟨d, hd, hdw⟩ := List.mem_filterMap.1 hw
    exact (dominates_iff_nearer hc hdw).2 (hwins.nearer d hd (exists_viable?_iff.1 ⟨w, hdw⟩))

/-- The viable candidates are written as their calls are. -/
theorem map_viable (candidates : List Candidate) :
    (candidates.filterMap (reg.viable? typeArgs args)).map
        (fun v => reg.signatureText v.1.callable v.1.params) =
      (candidates.filter (·.Viable reg typeArgs args)).map (·.text reg typeArgs) := by
  induction candidates with
  | nil => rfl
  | cons c cs ih =>
    by_cases hc : c.Viable reg typeArgs args
    · obtain ⟨v, hv⟩ := exists_viable?_iff.2 hc
      rw [List.filterMap_cons_some hv, List.filter_cons_of_pos (by simpa using hc), List.map_cons,
        List.map_cons, ih, (viable?_eq_some hv).1]
      rfl
    · have hv : reg.viable? typeArgs args c = none := by
        rw [← Option.not_isSome_iff_eq_none, viable?_isSome, decide_eq_true_iff]
        exact hc
      rw [List.filterMap_cons_none hv, List.filter_cons_of_neg (by simpa using hc), ih]

theorem filterMap_viable_eq_nil :
    candidates.filterMap (reg.viable? typeArgs args) = [] ↔
      ∀ c ∈ candidates, ¬c.Viable reg typeArgs args := by
  rw [List.filterMap_eq_nil_iff]
  refine forall₂_congr fun c _ => ?_
  rw [← exists_viable?_iff, ← Option.isSome_iff_exists, Option.not_isSome_iff_eq_none]

/-- A winner is selected. -/
theorem select_of_wins {c : Candidate} {others : List Candidate}
    (h : candidates.Perm (c :: others)) (hc : c.Wins reg typeArgs args others) :
    reg.select candidates typeArgs args = .ok (c.call typeArgs) := by
  have hviable : candidates.filterMap (reg.viable? typeArgs args) ≠ [] := fun hnil =>
    filterMap_viable_eq_nil.1 hnil c (h.mem_iff.2 List.mem_cons_self) hc.viable
  unfold select
  dsimp only
  rw [if_neg (by simpa using hviable), winners_eq_iff.2 ⟨c, others, h, hc, rfl⟩]

/-- Where nothing is viable all candidates are listed. -/
theorem select_of_not_viable (h : ∀ c ∈ candidates, ¬c.Viable reg typeArgs args) :
    reg.select candidates typeArgs args =
      .error (.noMatch (candidates.map (·.text reg typeArgs))) := by
  unfold select
  dsimp only
  rw [if_pos (by simpa using filterMap_viable_eq_nil.2 h)]
  rfl

/-- Where something is viable and nothing wins the viable candidates are listed. -/
theorem select_of_not_wins (h : ∃ c ∈ candidates, c.Viable reg typeArgs args)
    (hw : ∀ c others, candidates.Perm (c :: others) → ¬c.Wins reg typeArgs args others) :
    reg.select candidates typeArgs args = .error (.ambiguous
      ((candidates.filter (·.Viable reg typeArgs args)).map (·.text reg typeArgs))) := by
  obtain ⟨c, hc, hviable⟩ := h
  have hne : candidates.filterMap (reg.viable? typeArgs args) ≠ [] := fun hnil =>
    filterMap_viable_eq_nil.1 hnil c hc hviable
  unfold select
  dsimp only
  rw [if_neg (by simpa using hne)]
  split
  · rename_i call hcall
    obtain ⟨c, others, hperm, hwins, -⟩ := winners_eq_iff.1 hcall
    exact absurd hwins (hw c others hperm)
  · rw [map_viable]

/-- Only the viable candidates count, in whichever order. -/
theorem exists_wins_congr {call : ResolvedCall}
    (h : (candidates.filter (·.Viable reg typeArgs args)).Perm
      (candidates'.filter (·.Viable reg typeArgs args))) :
    (∃ c others, candidates.Perm (c :: others) ∧ c.Wins reg typeArgs args others ∧
        c.call typeArgs = call) ↔
      ∃ c others, candidates'.Perm (c :: others) ∧ c.Wins reg typeArgs args others ∧
        c.call typeArgs = call := by
  have hfilter (cs : List Candidate) :
      (cs.filter (·.Viable reg typeArgs args)).filterMap (reg.viable? typeArgs args) =
        cs.filterMap (reg.viable? typeArgs args) := by
    rw [List.filterMap_filter]
    refine List.filterMap_congr fun c _ => ?_
    rw [← viable?_isSome]
    cases reg.viable? typeArgs args c <;> rfl
  have hperm := h.filterMap (reg.viable? typeArgs args)
  rw [hfilter, hfilter] at hperm
  rw [← winners_eq_iff, ← winners_eq_iff, winners_eq_singleton_iff dominates_asymm,
    winners_eq_singleton_iff dominates_asymm]
  exact ⟨fun ⟨v, others, hv, hrest⟩ => ⟨v, others, hperm.symm.trans hv, hrest⟩,
    fun ⟨v, others, hv, hrest⟩ => ⟨v, others, hperm.trans hv, hrest⟩⟩

theorem not_viable_iff : (∀ c ∈ candidates, ¬c.Viable reg typeArgs args) ↔
    candidates.filter (·.Viable reg typeArgs args) = [] := by
  simp [List.filter_eq_nil_iff]

/-- One candidate wins, or none is viable, or some are and none wins. -/
theorem wins_cases (reg : Registry) (candidates : List Candidate) (typeArgs args : List Ty) :
    (∃ c others, candidates.Perm (c :: others) ∧ c.Wins reg typeArgs args others) ∨
    (∀ c ∈ candidates, ¬c.Viable reg typeArgs args) ∨
    (∃ c ∈ candidates, c.Viable reg typeArgs args) ∧
      ∀ c others, candidates.Perm (c :: others) → ¬c.Wins reg typeArgs args others := by
  by_cases hw : ∃ c others, candidates.Perm (c :: others) ∧ c.Wins reg typeArgs args others
  · exact .inl hw
  · by_cases hv : ∃ c ∈ candidates, c.Viable reg typeArgs args
    · exact .inr (.inr ⟨hv, fun c others h hwins => hw ⟨c, others, h, hwins⟩⟩)
    · exact .inr (.inl fun c hc hviable => hv ⟨c, hc, hviable⟩)

theorem select_congr
    (h : (candidates.filter (·.Viable reg typeArgs args)).Perm
      (candidates'.filter (·.Viable reg typeArgs args))) :
    (reg.select candidates typeArgs args).mapError ResolveError.bare =
      (reg.select candidates' typeArgs args).mapError ResolveError.bare := by
  rcases wins_cases reg candidates typeArgs args with ⟨c, others, hc, hwins⟩ | hnone | ⟨hsome, htie⟩
  · obtain ⟨c', others', hc', hwins', hcall⟩ :=
      (exists_wins_congr h).1 ⟨c, others, hc, hwins, rfl⟩
    rw [select_of_wins hc hwins, select_of_wins hc' hwins', hcall]
  · have hnone' : ∀ c ∈ candidates', ¬c.Viable reg typeArgs args := by
      rw [not_viable_iff] at hnone ⊢
      rw [hnone] at h
      exact h.nil_eq.symm
    rw [select_of_not_viable hnone, select_of_not_viable hnone']
    rfl
  · have hsome' : ∃ c ∈ candidates', c.Viable reg typeArgs args := by
      obtain ⟨c, hc, hviable⟩ := hsome
      have hmem := h.mem_iff.1 (List.mem_filter.2 ⟨hc, decide_eq_true hviable⟩)
      exact ⟨c, (List.mem_filter.1 hmem).1, hviable⟩
    have htie' : ∀ c others, candidates'.Perm (c :: others) →
        ¬c.Wins reg typeArgs args others := by
      intro c others hc hwins
      obtain ⟨c', others', hc', hwins', -⟩ := (exists_wins_congr h).2 ⟨c, others, hc, hwins, rfl⟩
      exact htie c' others' hc' hwins'
    rw [select_of_not_wins hsome htie, select_of_not_wins hsome' htie']
    rfl

/-- **The candidate that is selected is nearer than all other viable ones.** Where none is viable
all are listed, and where no viable one is nearer than the others these are. Only the viable
candidates count, and their order does not. -/
theorem select_optimal (reg : Registry) (candidates : List Candidate) (typeArgs args : List Ty) :
    (∀ call, reg.select candidates typeArgs args = .ok call ↔
      ∃ c others, candidates.Perm (c :: others) ∧ c.Wins reg typeArgs args others ∧
        c.call typeArgs = call) ∧
    (reg.select candidates typeArgs args =
        .error (.noMatch (candidates.map (·.text reg typeArgs))) ↔
      ∀ c ∈ candidates, ¬c.Viable reg typeArgs args) ∧
    (reg.select candidates typeArgs args = .error (.ambiguous
        ((candidates.filter (·.Viable reg typeArgs args)).map (·.text reg typeArgs))) ↔
      (∃ c ∈ candidates, c.Viable reg typeArgs args) ∧
        ∀ c others, candidates.Perm (c :: others) → ¬c.Wins reg typeArgs args others) ∧
    ∀ candidates', (candidates.filter (·.Viable reg typeArgs args)).Perm
        (candidates'.filter (·.Viable reg typeArgs args)) →
      (reg.select candidates typeArgs args).mapError ResolveError.bare =
        (reg.select candidates' typeArgs args).mapError ResolveError.bare := by
  have hcases := wins_cases reg candidates typeArgs args
  refine ⟨fun call => ⟨fun h => ?_, ?_⟩, ⟨fun h => ?_, select_of_not_viable⟩,
    ⟨fun h => ?_, fun h => select_of_not_wins h.1 h.2⟩, fun candidates' => select_congr⟩
  · rcases hcases with ⟨c, others, hc, hwins⟩ | hnone | ⟨hsome, htie⟩
    · rw [select_of_wins hc hwins] at h
      exact ⟨c, others, hc, hwins, Except.ok.inj h⟩
    · rw [select_of_not_viable hnone] at h
      cases h
    · rw [select_of_not_wins hsome htie] at h
      cases h
  · rintro ⟨c, others, hc, hwins, rfl⟩
    exact select_of_wins hc hwins
  · rcases hcases with ⟨c, others, hc, hwins⟩ | hnone | ⟨hsome, htie⟩
    · rw [select_of_wins hc hwins] at h
      cases h
    · exact hnone
    · rw [select_of_not_wins hsome htie] at h
      cases h
  · rcases hcases with ⟨c, others, hc, hwins⟩ | hnone | htie
    · rw [select_of_wins hc hwins] at h
      cases h
    · rw [select_of_not_viable hnone] at h
      cases h
    · exact htie

end Registry

/-- A function `F` of one argument. -/
def Candidate.unary (callable : CallableId) (param : Ty) : Candidate :=
  ⟨⟨callable, [.fixed param], .fixed .void, 0⟩, []⟩

theorem Registry.select_optimal_promoted :
    (∃ c others, [Candidate.unary 0 .double, .unary 1 .int, .unary 2 .object].Perm (c :: others) ∧
      c.Wins .primitive [] [.int] others ∧ c.call [] = ⟨1, [.int], .void⟩) ∧
    (Registry.select .primitive [.unary 2 .object, .unary 1 .int, .unary 3 .string, .unary 0 .double]
      [] [.int]).mapError ResolveError.bare = .ok ⟨1, [.int], .void⟩ := by
  have hselect : Registry.select .primitive
      [.unary 0 .double, .unary 1 .int, .unary 2 .object] [] [.int] = .ok ⟨1, [.int], .void⟩ := by
    decide +kernel
  obtain ⟨hok, -, -, hperm⟩ := select_optimal .primitive
    [.unary 0 .double, .unary 1 .int, .unary 2 .object] [] [.int]
  refine ⟨(hok _).1 hselect, ?_⟩
  rw [← hperm _ (by decide +kernel), hselect]
  rfl

end TypedExpr
