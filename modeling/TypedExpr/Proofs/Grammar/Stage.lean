import TypedExpr.Proofs.Grammar.Sound
/-!
# Trees in the middle of the passes

After some passes the tree over the items at the beginning has been built where it binds tightly,
and the rest of it is still spread over the items, in order.

* `Tree.level`: the pass that applies the operator at the top of a tree.
* `Tree.Stage`: the items over which a tree is spread after some passes.
* `Derives.stage`: at the beginning these are the items of a derivation.
-/

namespace TypedExpr

theorem BinaryOp.level_bounds (op : BinaryOp) :
    6 ≤ op.level ∧ op.level ≤ 14 ∧ op.level ≠ 10 ∧ (op.level = 6 ↔ op = .pow) := by
  cases op <;> decide

namespace Tree

/-- The pass that applies the operator at the top. One in front of a cast waits for it. -/
@[simp] def level : Tree → Nat
  | operand _ => 0
  | index _ _ => 1
  | step _ after _ => if after then 2 else 3
  | unary .not _ => 10
  | unary _ t => max 4 t.level
  | cast _ _ => 5
  | binary op _ _ => op.level
  | ternary _ _ _ => 15
  | assign _ _ _ => 16

variable {reg : Registry} {k : Nat} {t t' c l r : Tree} {i : Item} {cur cl cr : List Item}

/-- The item applies an operator to the tree before it. -/
inductive Suffixed : Tree → Item → Tree → Prop where
  | index {t : Tree} {i : Item} {e : Expr} (hi : i.kind = .index e) (ht : t.level ≤ 1) :
    Suffixed t i (.index t e)
  | step {t : Tree} {i : Item} {op : StepOp} (hi : i.kind = .operator (.step op))
    (ht : t.level ≤ 2) : Suffixed t i (.step op true t)

/-- The item applies an operator to the tree after it. -/
inductive Prefixed : Item → Tree → Tree → Prop where
  | step {t : Tree} {i : Item} {op : StepOp} (hi : i.kind = .operator (.step op))
    (ht : t.level ≤ 3) : Prefixed i t (.step op false t)
  | minus {t : Tree} {i : Item} (hi : i.kind = .operator (.binary .sub)) (ht : t.level ≤ 5) :
    Prefixed i t (.unary .neg t)
  | tilde {t : Tree} {i : Item} (hi : i.kind = .operator .tilde) (ht : t.level ≤ 5) :
    Prefixed i t (.unary .bitNot t)
  | cast {t : Tree} {i : Item} {type : Ty} (hi : i.kind = .cast type) (ht : t.level ≤ 5) :
    Prefixed i t (.cast type t)
  | not {t : Tree} {i : Item} (hi : i.kind = .operator .bang) (ht : t.level ≤ 10) :
    Prefixed i t (.unary .not t)

/-- The item applies an operator to the trees on both sides. -/
inductive Infixed : Tree → Item → Tree → Tree → Prop where
  | power {l r : Tree} {i : Item} (hi : i.kind = .operator (.binary .pow)) (hl : l.level ≤ 5)
    (hr : r.level ≤ 6) : Infixed l i r (.binary .pow l r)
  | binary {l r : Tree} {i : Item} {op : BinaryOp} (hop : op ≠ .pow)
    (hi : i.kind = .operator (.binary op)) (hl : l.level ≤ op.level) (hr : r.level < op.level) :
    Infixed l i r (.binary op l r)
  | assign {l r : Tree} {i : Item} {op : AssignOp} (hi : i.kind = .operator (.assign op))
    (hl : l.level ≤ 15) (hr : r.level ≤ 16) : Infixed l i r (.assign op l r)

/-- The items apply a conditional to the tree before them. -/
structure Choice (c : Tree) (q y n : Item) (yes no : Expr) : Prop where
  question : q.kind = .operator .question
  yes : y.kind = .value yes
  no : n.kind = .value no
  level : c.level ≤ 14

/-- The items over which a tree is spread after the passes up to a level. -/
inductive Stage (reg : Registry) (k : Nat) : Tree → List Item → Prop where
  | done {t : Tree} {i : Item} (hk : t.level ≤ k) (hc : t.Cell reg i) : Stage reg k t [i]
  | suffixed {t t' : Tree} {i : Item} {cur : List Item} (hk : k < t'.level)
    (h : Stage reg k t cur) (hi : Suffixed t i t') : Stage reg k t' (cur ++ [i])
  | prefixed {t t' : Tree} {i : Item} {cur : List Item} (hk : k < t'.level)
    (h : Stage reg k t cur) (hi : Prefixed i t t') : Stage reg k t' (i :: cur)
  | infixed {l r t' : Tree} {i : Item} {cl cr : List Item} (hk : k < t'.level)
    (hl : Stage reg k l cl) (hr : Stage reg k r cr) (hi : Infixed l i r t') :
    Stage reg k t' (cl ++ i :: cr)
  | choice {c : Tree} {q y n : Item} {yes no : Expr} {cur : List Item} (hk : k < 15)
    (h : Stage reg k c cur) (hi : Choice c q y n yes no) :
    Stage reg k (.ternary c yes no) (cur ++ [q, y, n])

/-! ### Levels -/

theorem Suffixed.level (h : Suffixed t i t') : t.level ≤ t'.level ∧ t'.level ≤ 2 := by
  cases h with
  | index _ ht => exact ⟨ht, by simp⟩
  | step _ ht => exact ⟨ht, by simp⟩

theorem Prefixed.level (h : Prefixed i t t') : t.level ≤ t'.level ∧
    (t'.level = 3 ∨ t'.level = 4 ∨ t'.level = 5 ∨ t'.level = 10) := by
  cases h <;> simp only [Tree.level] <;> grind

theorem Infixed.level (h : Infixed l i r t') : l.level ≤ t'.level ∧ r.level ≤ t'.level ∧
    6 ≤ t'.level ∧ t'.level ≠ 10 ∧ t'.level ≠ 15 := by
  cases h with
  | power _ hl hr =>
    refine ⟨?_, hr, ?_⟩ <;> simp only [Tree.level, BinaryOp.level] <;> omega
  | binary _ _ hl hr =>
    have := BinaryOp.level_bounds ‹_›
    exact ⟨hl, Nat.le_of_lt hr, by simp only [Tree.level]; omega⟩
  | assign _ hl hr => 
    refine ⟨?_, hr, ?_⟩ <;> simp only [Tree.level] <;> omega

/-- Only powers and assignments group to the right. -/
theorem Infixed.level_right (h : Infixed l i r t') (ht : t'.level ≠ 6) (ht' : t'.level ≠ 16) :
    r.level < t'.level := by
  cases h with
  | power => exact absurd rfl ht
  | binary _ _ _ hr => exact hr
  | assign => exact absurd rfl ht'

theorem Infixed.level_left (h : Infixed l i r t') (ht : t'.level = 6 ∨ t'.level = 16) :
    l.level < t'.level := by
  cases h with
  | power _ hl _ => exact Nat.lt_succ_of_le hl
  | @binary op hop => 
    have := BinaryOp.level_bounds ‹_›
    simp only [Tree.level] at ht
    grind
  | assign _ hl _ => exact Nat.lt_succ_of_le hl

/-! ### Types -/

/-- Every node of the tree has a type. -/
def Typed (reg : Registry) (t : Tree) : Prop := (t.type? reg).isSome = true

theorem Suffixed.typed (h : Suffixed t i t') (ht : t'.Typed reg) : t.Typed reg := by
  unfold Typed at ht ⊢
  cases htype : t.type? reg <;> cases h <;> simp_all [type?, valueType?]

theorem Prefixed.typed (h : Prefixed i t t') (ht : t'.Typed reg) : t.Typed reg := by
  unfold Typed at ht ⊢
  cases htype : t.type? reg <;> cases h <;> simp_all [type?, valueType?]

theorem Infixed.typed (h : Infixed l i r t') (ht : t'.Typed reg) : l.Typed reg ∧ r.Typed reg := by
  unfold Typed at ht ⊢
  cases hl : l.type? reg <;> cases hr : r.type? reg <;> cases h <;> 
    simp_all [type?, valueType?]

theorem typed_of_ternary {yes no : Expr} (h : (ternary c yes no).Typed reg) : c.Typed reg := by
  unfold Typed at h ⊢
  cases hc : c.type? reg <;> simp_all [type?, valueType?]

/-! ### Stages -/

namespace Stage

/-- A tree that binds tightly enough has been built. -/
theorem eq_done (h : Stage reg k t cur) (ht : t.level ≤ k) : ∃ i, cur = [i] ∧ t.Cell reg i := by
  cases h with
  | done _ hc => exact ⟨_, rfl, hc⟩
  | choice hk => exact absurd ht (Nat.not_le.2 hk)
  | _ hk => exact absurd ht (Nat.not_le.2 hk)

/-- After the steps the items of a tree end with an operand. -/
theorem endsOperand (h : Stage reg k t cur) (hk : 2 ≤ k) :
    ∃ z, cur.getLast? = some z ∧ z.endsOperand = true := by
  induction h with
  | done _ hc =>
    obtain ⟨e, he, -⟩ := hc
    exact ⟨_, rfl, by simp [Item.endsOperand, he]⟩
  | suffixed hk' _ hi =>
    have := hi.level
    omega
  | prefixed _ _ _ ih | infixed _ _ _ _ _ ih =>
    obtain ⟨z, hz, he⟩ := ih
    exact ⟨z, by simp [List.getLast?_append, List.getLast?_cons, hz], he⟩
  | @choice _ _ _ n _ _ _ _ _ hi =>
    exact ⟨n, by simp [List.getLast?_append], by simp [Item.endsOperand, hi.no]⟩

end Stage

end Tree

open TypedExpr.Tree

/-- At the beginning a tree is spread over the items of its derivation. -/
theorem Derives.stage {reg : Registry} {n : Nat} {xs : List Item} {t : Tree}
    (h : Derives 10 n xs t) :
    Stage reg 0 t xs ∧ t.level ≤ n := by
  induction h with
  | @operand i e hi => exact ⟨.done (Nat.le_refl _) ⟨e, hi, .operand reg e⟩, Nat.le_refl _⟩
  | looser _ hn ih => exact ⟨ih.1, Nat.le_trans ih.2 hn⟩
  | index _ hi ih => exact ⟨.suffixed (by simp) ih.1 (.index hi ih.2), Nat.le_refl _⟩
  | stepAfter _ hi ih => exact ⟨.suffixed (by simp) ih.1 (.step hi ih.2), by simp⟩
  | stepBefore _ hi ih => exact ⟨.prefixed (by simp) ih.1 (.step hi ih.2), by simp⟩
  | minus _ hi ih =>
    refine ⟨.prefixed ?_ ih.1 (.minus hi ih.2), ?_⟩ <;> simp only [level] <;> omega
  | tilde _ hi ih =>
    refine ⟨.prefixed ?_ ih.1 (.tilde hi ih.2), ?_⟩ <;> simp only [level] <;> omega
  | cast _ hi ih => exact ⟨.prefixed (by simp) ih.1 (.cast hi ih.2), Nat.le_refl _⟩
  | power _ _ hi ihl ihr =>
    exact ⟨.infixed (by simp [BinaryOp.level]) ihl.1 ihr.1 (.power hi ihl.2 ihr.2),
      Nat.le_refl _⟩
  | @binary i op ls rs l r hop _ _ hi ihl ihr =>
    have hlevel := op.level_bounds
    refine ⟨.infixed ?_ ihl.1 ihr.1 (.binary hop hi ihl.2 ?_), Nat.le_refl _⟩
    · simp only [level]
      omega
    · omega
  | not _ hi ih => exact ⟨.prefixed (by simp) ih.1 (.not hi ih.2), Nat.le_refl _⟩
  | ternary _ hq hy hn ih => exact ⟨.choice (by omega) ih.1 ⟨hq, hy, hn, ih.2⟩, Nat.le_refl _⟩
  | assign _ _ hi ihl ihr =>
    exact ⟨.infixed (by simp) ihl.1 ihr.1 (.assign hi ihl.2 ihr.2), Nat.le_refl _⟩

end TypedExpr
