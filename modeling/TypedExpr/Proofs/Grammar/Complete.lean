import TypedExpr.Proofs.Grammar.Sweep
/-!
# A derivation is built

Each pass applies what its level says and nothing else, so the passes take a typed tree over the
items from stage to stage until it has been built.

* `Parser.applyPasses_advances`: all passes together take a tree over the items to its last stage.
* `Parser.applyOperators_complete`: **items with a derivation whose nodes have types are put
  together, and what is built has its shape.**
-/

namespace TypedExpr

/-! ### What a pass skips -/

/-- The last pass that may apply an item where it stands. -/
def ItemKind.lastPass (before : Option Item) : ItemKind → Nat
  | .value _ | .typeName _ => 0
  | .index _ => 1
  | .cast _ | .operator .tilde => 5
  | .operator (.step _) => if Parser.isPrefixPosition before then 3 else 2
  | .operator (.binary op) => op.level
  | .operator .bang => 10
  | .operator .question => 15
  | .operator (.assign _) => 16

namespace Parser

open TypedExpr.Tree

/-- What is applied later is applied by the last pass for it at the latest. -/
theorem Later.lt_lastPass {n : Nat} {before : Option Item} {i : Item} (h : Later n before i)
    {kind : ItemKind} (hk : i.kind = kind) (hv : ∀ e, kind ≠ .value e) :
    n + 1 < kind.lastPass before := by
  cases h with
  | value hi => exact absurd (hk.symm.trans hi) (hv _)
  | suffixed hi hn =>
    cases hi with
    | index hi => cases hk.symm.trans hi; exact hn
    | step hi =>
      cases hk.symm.trans hi
      have hn : n + 1 < 2 := hn
      simp only [ItemKind.lastPass]
      split <;> omega
  | prefixed hi hn hb =>
    cases hi with
    | step hi =>
      cases hk.symm.trans hi
      simp only [ItemKind.lastPass, hb, if_true]
      exact hn
    | minus hi ht | tilde hi ht =>
      cases hk.symm.trans hi
      simp only [ItemKind.lastPass, BinaryOp.level, Tree.level] at hn ⊢
      omega
    | cast hi | not hi => cases hk.symm.trans hi; exact hn
  | infixed hi hn =>
    cases hi with
    | power hi | binary _ hi | assign hi => cases hk.symm.trans hi; exact hn
  | question hi hn => cases hk.symm.trans hi; exact hn

/-! ### To the right -/

section Sweeps

variable {s : Setting} {n : Nat}

theorem applyStepsAfter_sweep (s : Setting) : LeftSweep s.registry 1 (applyStepsAfter s) where
  level := by decide
  skip {i done rest} hi := by
    rw [applyStepsAfter.eq_def]
    dsimp only
    split
    · rename_i target below hop
      have hlate : 2 < if isPrefixPosition (target :: below).head? then 3 else 2 :=
        hi.lt_lastPass (operator?_eq.1 hop) nofun
      have hb : isPrefixPosition (target :: below).head? = true := by
        by_contra hb
        rw [if_neg hb] at hlate
        omega
      have hm : target.isModifiable = false := by
        obtain ⟨kind, span, line⟩ := target
        cases kind <;> simp_all [Item.isModifiable, isPrefixPosition, Item.endsOperand]
      rw [hm]
      rfl
    · rfl
  suffixed {t t' i c} hi hn ht hc done rest p := by
    cases hi with
    | index => cases hn
    | @step op hk _ =>
      obtain ⟨e, he, hfit⟩ := hc
      have hm : e.isModifiable = true := by
        rw [← hfit.modifiable]
        by_contra hm
        rw [Tree.Typed, type?, if_neg hm] at ht
        cases ht
      have hmc : c.isModifiable = true := by rw [Item.isModifiable, he]; exact hm
      have ho : (operand s (some c) i "left").run p = (.ok (c, e), p) :=
        operand_ok.2 ⟨rfl, c, e, rfl, he, (Expr.isModifiable_iff.1 hm).1, rfl⟩
      have hb := buildStep_makes op true hfit hm i (c.span.merge i.span)
      obtain ⟨a, q, ha⟩ := hb.complete ht p
      refine ⟨c.withValue a (c.span.merge i.span), q, ⟨a, rfl, (hb.sound ha).2⟩, ?_⟩
      rw [applyStepsAfter.eq_def]
      simp only [operator?_eq.2 hk, hmc, if_true]
      rw [run_bind_of_ok ho, run_bind_of_ok ha]
  infixed hi hn := by
    have := hi.level
    omega

variable (hfold : s.options.fold = false)

include hfold

theorem applyIndexes_sweep : LeftSweep s.registry 0 (applyIndexes s) where
  level := by decide
  skip {i done rest} hi := by
    obtain ⟨kind, span, line⟩ := i
    cases kind with
    | index e => exact absurd (hi.lt_lastPass rfl nofun) (Nat.lt_irrefl 1)
    | _ => rfl
  suffixed {t t' i c} hi hn ht hc done rest p := by
    cases hi with
    | @index e hk _ =>
      obtain ⟨kind, span, line⟩ := i
      cases hk
      have hb := buildIndex_makes hfold (i := e) ⟨.index e, span, line⟩ hc
      obtain ⟨j, q, hj⟩ := hb.complete ht p
      exact ⟨j, q, (hb.sound hj).2, run_bind_of_ok hj⟩
    | step => cases hn
  infixed hi hn := by
    have := hi.level
    omega

theorem applyLeftward_sweep {ops : List BinaryOp} (hn : 6 < n + 1 ∧ n + 1 < 15 ∧ n + 1 ≠ 10)
    (hops : ∀ op, op ∈ ops ↔ op.level = n + 1) :
    LeftSweep s.registry n (applyLeftward s ops) where
  level := .inr hn
  skip {i done rest} hi := by
    have hnone : isOneOf? ops i = none := by
      rw [← Option.not_isSome_iff_eq_none]
      intro hsome
      obtain ⟨op, hop⟩ := Option.isSome_iff_exists.1 hsome
      obtain ⟨hk, hmem⟩ := isOneOf?_eq.1 hop
      have := (hops op).1 hmem
      have : n + 1 < op.level := hi.lt_lastPass hk nofun
      omega
    rw [applyLeftward.eq_def]
    simp only [hnone]
  suffixed hi hn' := by
    have := hi.level
    omega
  infixed {l r t' i a b} hi hn' ht ha hb done rest p := by
    cases hi with
    | power | assign =>
      simp only [Tree.level, BinaryOp.level] at hn'
      omega
    | binary _ hk =>
      rename_i op _ _ _
      have hop : isOneOf? ops i = some op := isOneOf?_eq.2 ⟨hk, (hops op).2 hn'⟩
      have hmakes := applyBinary_makes hfold op i ha hb
      obtain ⟨j, q, hj⟩ := hmakes.complete ht p
      refine ⟨j, q, (hmakes.sound hj).2, ?_⟩
      rw [applyLeftward.eq_def]
      simp only [hop, List.head?_cons, List.tail_cons]
      exact run_bind_of_ok hj

/-! ### To the left -/

theorem applyRightward_sweep : RightSweep s.registry 5 (applyRightward s [.pow]) where
  level := by decide
  skip {i done rest} hi := by
    have hnone : isOneOf? [.pow] i = none := by
      rw [← Option.not_isSome_iff_eq_none]
      intro hsome
      obtain ⟨op, hop⟩ := Option.isSome_iff_exists.1 hsome
      obtain ⟨hk, hmem⟩ := isOneOf?_eq.1 hop
      cases List.mem_singleton.1 hmem
      exact absurd (hi.lt_lastPass hk nofun) (Nat.lt_irrefl 6)
    rw [applyRightward.eq_def]
    simp only [hnone]
  infixed {l r t' i a b} hi hn ht ha hb done rest p := by
    cases hi with
    | binary hop =>
      rename_i op _ _ _
      have := op.level_bounds
      simp only [Tree.level] at hn
      grind
    | assign => cases hn
    | power hk =>
      have hop : isOneOf? [.pow] i = some .pow := isOneOf?_eq.2 ⟨hk, List.mem_singleton_self _⟩
      have hmakes := applyBinary_makes hfold .pow i ha hb
      obtain ⟨j, q, hj⟩ := hmakes.complete ht p
      refine ⟨j, q, (hmakes.sound hj).2, ?_⟩
      rw [applyRightward.eq_def]
      simp only [hop, List.head?_cons, List.tail_cons]
      exact run_bind_of_ok hj
  choice _ hn := by omega

theorem applyTernaries_sweep : RightSweep s.registry 14 (applyTernaries s) where
  level := by decide
  skip {i done rest} hi := by
    rw [applyTernaries.eq_def]
    dsimp only
    rw [if_neg]
    intro hop
    exact absurd (hi.lt_lastPass (operator?_eq.1 hop) fun _ h => by cases h) (Nat.lt_irrefl 15)
  infixed hi hn := by
    have := hi.level
    omega
  choice {t m y k c yes no} hi hn ht hc done rest p := by
    have hmakes := applyTernary_makes hfold m hc hi.yes hi.no done
    obtain ⟨_, q, hrun⟩ := hmakes.complete ht p
    obtain ⟨-, j, rfl, hj⟩ := hmakes.sound hrun
    refine ⟨j, q, hj, ?_⟩
    rw [applyTernaries.eq_def]
    simp only [operator?_eq.2 hi.question, if_true]
    rw [run_bind_of_ok hrun]

theorem applyAssignments_sweep : RightSweep s.registry 15 (applyAssignments s) where
  level := by decide
  skip {i done rest} hi := by
    rw [applyAssignments.eq_def]
    dsimp only
    split
    · rename_i hop
      exact absurd (hi.lt_lastPass (operator?_eq.1 hop) nofun) (Nat.lt_irrefl 16)
    · rename_i hop
      exact absurd (hi.lt_lastPass (operator?_eq.1 hop) nofun) (Nat.lt_irrefl 16)
    · rfl
  infixed {l r t' i a b} hi hn ht ha hb done rest p := by
    cases hi with
    | binary hop =>
      rename_i op _ _ _
      have := op.level_bounds
      simp only [Tree.level] at hn
      omega
    | power => cases hn
    | assign hk =>
      rename_i op _ _
      have hmakes := applyAssign_makes hfold op i ha hb
      obtain ⟨j, q, hj⟩ := hmakes.complete ht p
      refine ⟨j, q, (hmakes.sound hj).2, ?_⟩
      rw [applyAssignments.eq_def]
      simp only [operator?_eq.2 hk, List.head?_cons, List.tail_cons]
      exact run_bind_of_ok hj
  choice _ hn := by omega

/-! ### Back from the right -/

omit hfold in
theorem prefixOperator?_eq_none {before : Option Item} {i : Item}
    (h : isPrefixPosition before = true → ∀ t t', ¬ Prefixed i t t') :
    prefixOperator? before i = none := by
  by_contra hop
  obtain ⟨op, hop⟩ := Option.ne_none_iff_exists'.1 hop
  have hb : isPrefixPosition before = true := by
    obtain ⟨o, -, ho⟩ := Option.bind_eq_some_iff.1 hop
    by_contra hb
    simp [hb] at ho
  rcases prefixOperator?_eq hop with ⟨hk, rfl⟩ | ⟨hk, rfl⟩
  · exact h hb (.operand default) _ (.minus hk (by simp))
  · exact h hb (.operand default) _ (.tilde hk (by simp))

omit hfold in
theorem prefixOperator?_of_minus {before : Option Item} {i : Item}
    (hi : i.kind = .operator (.binary .sub)) (hb : isPrefixPosition before = true) :
    prefixOperator? before i = some .neg := by
  simp [prefixOperator?, operator?_eq.2 hi, hb, Operator.startsOperand, Operator.unary?]

omit hfold in
theorem prefixOperator?_of_tilde {before : Option Item} {i : Item}
    (hi : i.kind = .operator .tilde) (hb : isPrefixPosition before = true) :
    prefixOperator? before i = some .bitNot := by
  simp [prefixOperator?, operator?_eq.2 hi, hb, Operator.startsOperand, Operator.unary?]

omit hfold in
theorem applyWaiting_eq {before : Option Item} {i : Item} {isCast : Bool} {rest : List Item}
    (h : prefixOperator? before i = none) :
    applyWaiting s before i isCast rest = pure (i :: rest, false) := by
  unfold applyWaiting
  rw [h]
  cases isCast <;> rfl

omit hfold in
/-- A chain with a cast in it begins with what an operator before it waits for. -/
theorem isWaiting_of_stage {reg : Registry} {t : Tree} {cur : List Item} (h : Stage reg 4 t cur)
    (ht : t.level = 5) : ∃ i cur', cur = i :: cur' ∧ isWaiting i = true := by
  cases h with
  | done hk => omega
  | suffixed _ _ hi =>
    have := hi.level
    omega
  | prefixed _ _ hi =>
    refine ⟨_, _, rfl, ?_⟩
    cases hi with
    | step | not => cases ht
    | minus hi | tilde hi | cast hi => simp [isWaiting, hi, Operator.startsOperand]
  | infixed _ _ _ hi =>
    have := hi.level
    omega
  | choice => cases ht

/-- Apply a cast to the first of the items after it. -/
theorem applyCast_makes (type : Ty) {i c : Item} {t : Tree} (hc : t.Cell s.registry c)
    (tail : List Item) :
    Makes (do
      let (target, e) ← operand s (c :: tail).head? i "right"
      let span := i.span.merge target.span
      let e ← buildCast s e type i span
      return (i.withValue e span :: tail, true))
      ((Tree.cast type t).Typed s.registry) fun b =>
      ∃ j, b = (j :: tail, true) ∧ (Tree.cast type t).Cell s.registry j := by
  obtain ⟨e, hk, h⟩ := hc
  refine Makes.congr (c := e.type ≠ .void ∧ (s.registry.explicitCast? e.type type).isSome = true)
    ?_ ?_
  · refine (operand_makes hk _ _).bind fun r hr => ?_
    obtain ⟨rfl, hv⟩ := hr
    refine (buildCast_makes hfold type h hv _ _).before fun a ha => ?_
    exact .pure ⟨_, rfl, a, rfl, ha⟩
  · rw [Tree.Typed, type?, h.valueType]
    by_cases hv : e.type = .void <;> simp [hv]

omit hfold in
theorem applyStepsBefore_sweep (s : Setting) :
    BackSweep s.registry 2 (applyStepsBefore s) id fun _ => true where
  level := by decide
  skip before {i rest p q b} hi _ h := by
    refine ⟨i :: b, q, run_bind_ok.2 ⟨b, q, h, ?_⟩, rfl⟩
    split
    · rename_i hop
      exact absurd (hi.lt_lastPass (operator?_eq.1 hop) nofun) (Nat.lt_irrefl 3)
    · rfl
  wait {t t' before i cur rest tail p q b} hi hn _ _ _ h := by
    refine ⟨i :: b, q, run_bind_ok.2 ⟨b, q, h, ?_⟩, rfl⟩
    split
    · have hk := operator?_eq.1 ‹_›
      cases hi <;> simp_all [Tree.level]
    · rfl
  apply {t t' before i c rest tail p q b} hi hn _ ht hc hout _ h := by
    cases hi with
    | step hk =>
      rename_i op _
      cases hout
      have hmakes := applyStepBefore_makes op i hc before tail
      obtain ⟨_, q', hrun⟩ := hmakes.complete ht q
      obtain ⟨-, j, rfl, hj⟩ := hmakes.sound hrun
      refine ⟨j :: tail, q', j, run_bind_ok.2 ⟨_, q, h, ?_⟩, hj, rfl, rfl⟩
      rw [operator?_eq.2 hk]
      exact hrun
    | _ => simp only [Tree.level] at hn; omega

theorem applyPrefixes_sweep : BackSweep s.registry 3 (applyPrefixes s) id fun _ => true where
  level := by decide
  skip before {i rest p q b} _ hp h := by
    refine ⟨i :: b, q, run_bind_ok.2 ⟨b, q, h, ?_⟩, rfl⟩
    rw [prefixOperator?_eq_none hp]
    rfl
  wait {t t' before i cur rest tail p q b} hi hn hb hc hout h := by
    refine ⟨i :: b, q, run_bind_ok.2 ⟨b, q, h, ?_⟩, rfl⟩
    split
    · rename_i op hop
      have ht : t.level = 5 := by
        rcases prefixOperator?_eq hop with ⟨hk, -⟩ | ⟨hk, -⟩ <;> cases hi <;>
          simp_all [Tree.level] <;> omega
      obtain ⟨j, cur', rfl, hj⟩ := isWaiting_of_stage hc ht
      cases hout
      simp only [List.head?_cons, Option.any_some, hj, if_true]
      rfl
    · rfl
  apply {t t' before i c rest tail p q b} hi hn hb ht hc hout _ h := by
    cases hout
    have hwait : (c :: tail).head?.any isWaiting = false := by
      obtain ⟨e, he, -⟩ := hc
      simp [isWaiting, he]
    have unary {op : UnaryOp} (hop : prefixOperator? before i = some op)
        (ht : (Tree.unary op t).Typed s.registry) :
        ∃ b' q' j, (applyPrefixes s before (i :: rest)).run p = (.ok b', q') ∧
          (Tree.unary op t).Cell s.registry j ∧ b' = j :: tail ∧ true = true := by
      have hmakes := applyUnary_makes hfold op i hc tail
      obtain ⟨_, q', hrun⟩ := hmakes.complete ht q
      obtain ⟨-, j, rfl, hj⟩ := hmakes.sound hrun
      refine ⟨j :: tail, q', j, run_bind_ok.2 ⟨_, q, h, ?_⟩, hj, rfl, rfl⟩
      simp only [hop, hwait]
      exact hrun
    cases hi with
    | minus hk => exact unary (prefixOperator?_of_minus hk hb) ht
    | tilde hk => exact unary (prefixOperator?_of_tilde hk hb) ht
    | _ => cases hn

theorem applyCastsFrom_sweep :
    BackSweep s.registry 4 (applyCastsFrom s) Prod.fst Prod.snd where
  level := by decide
  skip before {i rest p q b} hi hp h := by
    refine ⟨(i :: b.1, false), q, run_bind_ok.2 ⟨b, q, h, ?_⟩, rfl⟩
    dsimp only
    split
    · exact absurd (hi.lt_lastPass ‹i.kind = .cast _› nofun) (Nat.lt_irrefl 5)
    · rw [applyWaiting_eq (prefixOperator?_eq_none hp)]
      rfl
  wait {t t' before i cur rest tail p q b} hi hn hb hc hout h := by
    refine ⟨(i :: b.1, false), q, run_bind_ok.2 ⟨b, q, h, ?_⟩, rfl⟩
    cases hi with
    | not hk =>
      have hop : prefixOperator? before i = none := by
        simp [prefixOperator?, operator?_eq.2 hk, Operator.startsOperand]
      simp only [hk]
      rw [applyWaiting_eq hop]
      rfl
    | _ => simp at hn <;> omega
  apply {t t' before i c rest tail p q b} hi hn hb ht hc hout hmade h := by
    obtain ⟨_, made⟩ := b
    cases hout
    have unary {op : UnaryOp} (hop : prefixOperator? before i = some op)
        (hk : ∀ type, i.kind ≠ .cast type) (hm : made = true)
        (ht : (Tree.unary op t).Typed s.registry) :
        ∃ b' q' j, (applyCastsFrom s before (i :: rest)).run p = (.ok b', q') ∧
          (Tree.unary op t).Cell s.registry j ∧ b'.1 = j :: tail ∧ b'.2 = true := by
      have hmakes := applyUnary_makes hfold op i hc tail
      obtain ⟨_, q', hrun⟩ := hmakes.complete ht q
      obtain ⟨-, j, rfl, hj⟩ := hmakes.sound hrun
      refine ⟨(j :: tail, true), q', j, run_bind_ok.2 ⟨_, q, h, ?_⟩, hj, rfl, rfl⟩
      dsimp only
      split
      · exact absurd ‹_› (hk _)
      · simp only [applyWaiting, hop, hm]
        exact run_bind_ok.2 ⟨_, q', hrun, rfl⟩
    have hm : t.level = 5 → made = true := hmade
    cases hi with
    | minus hk => 
      simp only [Tree.level] at hn
      exact unary (prefixOperator?_of_minus hk hb) (by simp [hk]) (hm (by omega)) ht
    | tilde hk => 
      simp only [Tree.level] at hn
      exact unary (prefixOperator?_of_tilde hk hb) (by simp [hk]) (hm (by omega)) ht
    | cast hk =>
      rename_i type _
      have hmakes := applyCast_makes hfold type (i := i) hc tail
      obtain ⟨b', q', hrun⟩ := hmakes.complete ht q
      obtain ⟨-, j, rfl, hj⟩ := hmakes.sound hrun
      refine ⟨(j :: tail, true), q', j, run_bind_ok.2 ⟨_, q, h, ?_⟩, hj, rfl, rfl⟩
      simp only [hk]
      exact hrun
    | _ => cases hn

theorem applyNot_sweep : BackSweep s.registry 9 (fun _ => applyNot s) id fun _ => true where
  level := by decide
  skip before {i rest p q b} hi hp h := by
    refine ⟨i :: b, q, run_bind_ok.2 ⟨b, q, h, ?_⟩, rfl⟩
    rw [if_neg]
    · rfl
    · intro hop
      exact absurd (hi.lt_lastPass (operator?_eq.1 hop) nofun) (Nat.lt_irrefl 10)
  wait {t t' before i cur rest tail p q b} hi hn := by
    have := hi.level
    omega
  apply {t t' before i c rest tail p q b} hi hn hb ht hc hout hmade h := by
    cases hi with
    | not hk =>
      cases hout
      have hmakes := applyUnary_makes hfold .not i hc tail
      obtain ⟨_, q', hrun⟩ := hmakes.complete ht q
      obtain ⟨-, j, rfl, hj⟩ := hmakes.sound hrun
      refine ⟨j :: tail, q', j, run_bind_ok.2 ⟨_, q, h, ?_⟩, hj, rfl, rfl⟩
      rw [if_pos (operator?_eq.2 hk)]
      exact hrun
    | _ => simp at hn <;> omega

end Sweeps

/-! ### One pass after the other -/

/-- From items over which the tree is spread after some passes to such items after some more. -/
def Advances (reg : Registry) (t : Tree) (n m : Nat) (pass : List Item → Parser (List Item)) :
    Prop :=
  ∀ cur : List Item, Stage reg n t cur → ∀ p, ∃ cur' q, (pass cur).run p = (.ok cur', q) ∧
    Stage reg m t cur'

section Passes

variable {reg : Registry} {n m k : Nat} {t : Tree}

theorem Advances.andThen {f g : List Item → Parser (List Item)} (hf : Advances reg t n m f)
    (hg : Advances reg t m k g) : Advances reg t n k fun items => f items >>= g := by
  intro cur h p
  obtain ⟨cur₁, p₁, h₁, hcur₁⟩ := hf cur h p
  obtain ⟨cur₂, p₂, h₂, hcur₂⟩ := hg cur₁ hcur₁ p₁
  exact ⟨cur₂, p₂, run_bind_ok.2 ⟨cur₁, p₁, h₁, h₂⟩, hcur₂⟩

theorem LeftSweep.advances {sweep : List Item → List Item → Parser (List Item)}
    (hs : LeftSweep reg n sweep) (hnil : ∀ done, sweep done [] = pure done.reverse)
    (ht : t.Typed reg) : Advances reg t n (n + 1) (sweep []) := by
  intro cur h p
  have hpos : isPrefixPosition ([] : List Item).head? = true := rfl
  obtain ⟨cur', q, hcur, hrun⟩ := hs.run h ht hpos [] p
  refine ⟨cur', q, ?_, hcur⟩
  rw [List.append_nil] at hrun
  rw [hrun, hnil, List.append_nil, List.reverse_reverse]
  rfl

theorem RightSweep.advances {sweep : List Item → List Item → Parser (List Item)}
    (hs : RightSweep reg n sweep) (hnil : ∀ done, sweep done [] = pure done)
    (ht : t.Typed reg) : Advances reg t n (n + 1) fun items => sweep [] items.reverse := by
  intro cur h p
  obtain ⟨cur', q, hcur, hrun⟩ := hs.run h ht [] [] p
  refine ⟨cur', q, ?_, hcur⟩
  rw [List.append_nil] at hrun
  rw [hrun, hnil, List.append_nil]
  rfl

theorem BackSweep.advances {β : Type} {sweep : Option Item → List Item → Parser β}
    {out : β → List Item} {made : β → Bool} (hs : BackSweep reg n sweep out made) {b : β}
    (hnil : ∀ before, sweep before [] = pure b) (hb : out b = []) (ht : t.Typed reg) :
    Advances reg t n (n + 1) fun items => do return out (← sweep none items) := by
  intro cur h p
  have hlevel := hs.level
  obtain ⟨z, hz, -⟩ := h.endsOperand (by omega)
  have hrest : (sweep (some z) []).run p = (.ok b, p) := by
    rw [hnil]
    rfl
  have hpos : isPrefixPosition none = true := rfl
  obtain ⟨cur', b', q, hcur, hrun, hout, -⟩ := hs.run h ht hpos hz hrest
  rw [List.append_nil] at hrun
  rw [hb, List.append_nil] at hout
  exact ⟨cur', q, run_bind_ok.2 ⟨b', q, hrun, by rw [hout]; rfl⟩, hcur⟩

variable {s : Setting} {items : List Item} (hfold : s.options.fold = false)

include hfold

/-- The passes take a tree whose nodes have types from the beginning to the end. -/
theorem applyPasses_advances (ht : t.Typed s.registry) :
    Advances s.registry t 0 16 (applyPasses s) := by
  have left {n : Nat} (ops : List BinaryOp) (hn : 6 < n + 1 ∧ n + 1 < 15 ∧ n + 1 ≠ 10)
      (hops : ∀ op, op ∈ ops ↔ op.level = n + 1) :
      Advances s.registry t n (n + 1) (applyLeftward s ops []) :=
    (applyLeftward_sweep hfold hn hops).advances (fun _ => rfl) ht
  have back {n : Nat} {sweep : Option Item → List Item → Parser (List Item)}
      (hs : BackSweep s.registry n sweep id fun _ => true)
      (hnil : ∀ before, sweep before [] = pure []) :
      Advances s.registry t n (n + 1) (sweep none) := by
    have := hs.advances hnil rfl ht
    simpa using this
  refine ((applyIndexes_sweep hfold).advances (fun _ => rfl) ht).andThen ?_
  refine ((applyStepsAfter_sweep s).advances (fun _ => rfl) ht).andThen ?_
  refine (back (applyStepsBefore_sweep s) fun _ => rfl).andThen ?_
  refine (back (applyPrefixes_sweep hfold) fun _ => rfl).andThen ?_
  refine ((applyCastsFrom_sweep hfold).advances (fun _ => rfl) rfl ht).andThen ?_
  refine ((applyRightward_sweep hfold).advances (fun _ => rfl) ht).andThen ?_
  refine (left _ (by decide) fun op => by cases op <;> decide).andThen ?_
  refine (left _ (by decide) fun op => by cases op <;> decide).andThen ?_
  refine (left _ (by decide) fun op => by cases op <;> decide).andThen ?_
  refine (back (applyNot_sweep hfold) fun _ => rfl).andThen ?_
  refine (left _ (by decide) fun op => by cases op <;> decide).andThen ?_
  refine (left _ (by decide) fun op => by cases op <;> decide).andThen ?_
  refine (left _ (by decide) fun op => by cases op <;> decide).andThen ?_
  refine (left _ (by decide) fun op => by cases op <;> decide).andThen ?_
  refine ((applyTernaries_sweep hfold).advances (fun _ => rfl) ht).andThen ?_
  exact (applyAssignments_sweep hfold).advances (fun _ => rfl) ht

/-- A derivation whose nodes have types is built. -/
theorem applyOperators_complete (h : Derives 10 16 items t) (ht : t.Typed s.registry)
    (p : ParseState) :
    ∃ e q, (applyOperators s items).run p = (.ok (some e), q) ∧ t.Fits s.registry e := by
  obtain ⟨hstage, hlevel⟩ : Stage s.registry 0 t items ∧ t.level ≤ 16 := h.stage
  obtain ⟨out, q, hrun, hout⟩ := applyPasses_advances hfold ht items hstage p
  obtain ⟨i, rfl, e, hk, hfit⟩ := hout.eq_done hlevel
  refine ⟨e, q, run_bind_ok.2 ⟨[i], q, hrun, ?_⟩, hfit⟩
  simp [remaining, List.find?, isUnapplied, hk]
  rfl

end Passes

end Parser

end TypedExpr
