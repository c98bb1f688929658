import TypedExpr.Proofs.Grammar.Stage
/-!
# Sweeps over the items of a tree

A pass goes over the items from the left, from the right, or comes back from the right. If it
applies what it should and skips everything else, it takes a tree from one stage to the next.

* `LeftSweep`, `RightSweep`, `BackSweep`: what a pass does with one item.
* `LeftSweep.run`, `RightSweep.run`, `BackSweep.run`: what it does with a whole tree.
-/

namespace TypedExpr

namespace Parser

open TypedExpr.Tree

/-- The pass after a level does not apply the item where it stands. -/
inductive Later (n : Nat) (before : Option Item) (i : Item) : Prop where
  | value {e : Expr} (hi : i.kind = .value e)
  | suffixed {t t' : Tree} (hi : Suffixed t i t') (hn : n + 1 < t'.level)
  | prefixed {t t' : Tree} (hi : Prefixed i t t') (hn : n + 1 < t'.level)
    (hb : isPrefixPosition before = true)
  | infixed {l r t' : Tree} (hi : Infixed l i r t') (hn : n + 1 < t'.level)
  | question (hi : i.kind = .operator .question) (hn : n + 1 < 15)

/-- The pass after a level goes to the right. -/
structure LeftSweep (reg : Registry) (n : Nat)
    (sweep : List Item → List Item → Parser (List Item)) : Prop where
  level : n + 1 < 3 ∨ 6 < n + 1 ∧ n + 1 < 15 ∧ n + 1 ≠ 10
  skip {i : Item} {done rest : List Item} (hi : Later n done.head? i) :
    sweep done (i :: rest) = sweep (i :: done) rest
  suffixed {t t' : Tree} {i c : Item} (hi : Suffixed t i t') (hn : t'.level = n + 1)
    (ht : t'.Typed reg) (hc : t.Cell reg c) (done rest : List Item) (p : ParseState) :
    ∃ j q, t'.Cell reg j ∧
      (sweep (c :: done) (i :: rest)).run p = (sweep (j :: done) rest).run q
  infixed {l r t' : Tree} {i a b : Item} (hi : Infixed l i r t') (hn : t'.level = n + 1)
    (ht : t'.Typed reg) (ha : l.Cell reg a) (hb : r.Cell reg b) (done rest : List Item)
    (p : ParseState) :
    ∃ j q, t'.Cell reg j ∧
      (sweep (a :: done) (i :: b :: rest)).run p = (sweep (j :: done) rest).run q

/-- The pass after a level goes to the left. -/
structure RightSweep (reg : Registry) (n : Nat)
    (sweep : List Item → List Item → Parser (List Item)) : Prop where
  level : n + 1 = 6 ∨ n + 1 = 15 ∨ n + 1 = 16
  skip {i : Item} {done rest : List Item} (hi : Later n none i) :
    sweep done (i :: rest) = sweep (i :: done) rest
  infixed {l r t' : Tree} {i a b : Item} (hi : Infixed l i r t') (hn : t'.level = n + 1)
    (ht : t'.Typed reg) (ha : l.Cell reg a) (hb : r.Cell reg b) (done rest : List Item)
    (p : ParseState) :
    ∃ j q, t'.Cell reg j ∧
      (sweep (b :: done) (i :: a :: rest)).run p = (sweep (j :: done) rest).run q
  choice {t : Tree} {q y k c : Item} {yes no : Expr} (hi : Choice t q y k yes no) (hn : n + 1 = 15)
    (ht : (Tree.ternary t yes no).Typed reg) (hc : t.Cell reg c) (done rest : List Item)
    (p : ParseState) :
    ∃ j p', (Tree.ternary t yes no).Cell reg j ∧
      (sweep (y :: k :: done) (q :: c :: rest)).run p = (sweep (j :: done) rest).run p'

/-- The pass after a level comes back to an item with the outcome for the items after it, which
says what these items have become, and whether the first of them has been put together by it. -/
structure BackSweep {β : Type} (reg : Registry) (n : Nat)
    (sweep : Option Item → List Item → Parser β) (out : β → List Item) (made : β → Bool) : Prop where
  level : n + 1 = 3 ∨ n + 1 = 4 ∨ n + 1 = 5 ∨ n + 1 = 10
  skip (before : Option Item) {i : Item} {rest : List Item} {p q : ParseState} {b : β}
    (hi : Later n none i) (hp : isPrefixPosition before = true → ∀ t t', ¬ Prefixed i t t')
    (h : (sweep (some i) rest).run p = (.ok b, q)) :
    ∃ b' q', (sweep before (i :: rest)).run p = (.ok b', q') ∧ out b' = i :: out b
  wait {t t' : Tree} {before : Option Item} {i : Item} {cur rest tail : List Item}
    {p q : ParseState} {b : β} (hi : Prefixed i t t') (hn : n + 1 < t'.level)
    (hb : isPrefixPosition before = true) (hc : Stage reg (n + 1) t cur)
    (hout : out b = cur ++ tail)
    (h : (sweep (some i) rest).run p = (.ok b, q)) :
    ∃ b' q', (sweep before (i :: rest)).run p = (.ok b', q') ∧ out b' = i :: out b
  apply {t t' : Tree} {before : Option Item} {i c : Item} {rest tail : List Item}
    {p q : ParseState} {b : β} (hi : Prefixed i t t') (hn : t'.level = n + 1)
    (hb : isPrefixPosition before = true) (ht : t'.Typed reg) (hc : t.Cell reg c)
    (hout : out b = c :: tail) (hmade : t.level = n + 1 → made b = true)
    (h : (sweep (some i) rest).run p = (.ok b, q)) :
    ∃ b' q' j, (sweep before (i :: rest)).run p = (.ok b', q') ∧ t'.Cell reg j ∧
      out b' = j :: tail ∧ made b' = true

variable {reg : Registry} {n : Nat} {t t' : Tree} {i : Item} {cur : List Item}

/-! ### What stands where -/

theorem isPrefixPosition_of_prefixed (h : Prefixed i t t') : isPrefixPosition (some i) = true := by
  cases h <;> simp_all [isPrefixPosition, Item.endsOperand]

theorem isPrefixPosition_of_infixed {l r : Tree} (h : Infixed l i r t') :
    isPrefixPosition (some i) = true := by
  cases h <;> simp_all [isPrefixPosition, Item.endsOperand]

theorem value_of_cell (h : t.Cell reg i) (before : Option Item) : Later n before i := by
  obtain ⟨e, he, -⟩ := h
  exact .value he

/-- **A pass to the right takes a tree to the next stage.** -/
theorem LeftSweep.run {sweep : List Item → List Item → Parser (List Item)}
    (hs : LeftSweep reg n sweep) (h : Stage reg n t cur) (ht : t.Typed reg)
    {done : List Item} (hd : isPrefixPosition done.head? = true) (rest : List Item)
    (p : ParseState) :
    ∃ cur' q, Stage reg (n + 1) t cur' ∧
      (sweep done (cur ++ rest)).run p = (sweep (cur'.reverse ++ done) rest).run q := by
  have hlevel := hs.level
  -- on how the stage is put together; the items after it, `rest`, are passed on untouched
  induction h generalizing done rest p with
  | done hk hc =>
    refine ⟨_, p, .done (Nat.le_succ_of_le hk) hc, ?_⟩
    rw [List.singleton_append, hs.skip (value_of_cell hc _)]
    rfl
  | @suffixed t t' i cur hk h hi ih =>
    obtain ⟨cur', p₁, hcur, hrun⟩ := ih (hi.typed ht) hd (i :: rest) p
    rw [List.append_assoc, List.singleton_append, hrun]
    by_cases hn : t'.level = n + 1
    · -- the tree is of the level of the pass, so its part is one item by now
      have := hi.level
      obtain ⟨c, rfl, hc⟩ := hcur.eq_done (by omega)
      obtain ⟨j, q, hj, hrun⟩ := hs.suffixed hi hn ht hc done rest p₁
      exact ⟨[j], q, .done (by omega) hj, hrun⟩
    · have hn : n + 1 < t'.level := by omega
      refine ⟨cur' ++ [i], p₁, .suffixed hn hcur hi, ?_⟩
      rw [hs.skip (.suffixed hi hn)]
      simp
  | @prefixed t t' i cur hk h hi ih =>
    have := hi.level
    have hn : n + 1 < t'.level := by omega
    have hpos : isPrefixPosition (i :: done).head? = true := isPrefixPosition_of_prefixed hi
    obtain ⟨cur', p₁, hcur, hrun⟩ := ih (hi.typed ht) hpos rest p
    refine ⟨i :: cur', p₁, .prefixed hn hcur hi, ?_⟩
    rw [List.cons_append, hs.skip (.prefixed hi hn hd), hrun]
    simp
  | @infixed l r t' i cl cr hk hl hr hi ihl ihr =>
    obtain ⟨cl', p₁, hcl, hrun⟩ := ihl (hi.typed ht).1 hd (i :: (cr ++ rest)) p
    rw [List.append_assoc, List.cons_append, hrun]
    have hlevels := hi.level
    by_cases hn : t'.level = n + 1
    · have := hi.level_right (by omega) (by omega)
      obtain ⟨a, rfl, ha⟩ := hcl.eq_done (by omega)
      obtain ⟨b, rfl, hb⟩ := hr.eq_done (by omega)
      obtain ⟨j, q, hj, hrun⟩ := hs.infixed hi hn ht ha hb done rest p₁
      exact ⟨[j], q, .done (by omega) hj, hrun⟩
    · have hn : n + 1 < t'.level := by omega
      have hpos : isPrefixPosition (i :: (cl'.reverse ++ done)).head? = true :=
        isPrefixPosition_of_infixed hi
      obtain ⟨cr', p₂, hcr, hrun⟩ := ihr (hi.typed ht).2 hpos rest p₁
      refine ⟨cl' ++ i :: cr', p₂, .infixed hn hcl hcr hi, ?_⟩
      rw [hs.skip (.infixed hi hn), hrun]
      simp
  | @choice c q y k yes no cur hk h hi ih =>
    obtain ⟨cur', p₁, hcur, hrun⟩ := ih (typed_of_ternary ht) hd (q :: y :: k :: rest) p
    refine ⟨cur' ++ [q, y, k], p₁, .choice (by omega) hcur hi, ?_⟩
    rw [List.append_assoc, List.cons_append, List.cons_append, List.singleton_append, hrun,
      hs.skip (.question hi.question (by omega)), hs.skip (.value hi.yes), hs.skip (.value hi.no)]
    simp

/-- **A pass to the left takes a tree to the next stage.** -/
theorem RightSweep.run {sweep : List Item → List Item → Parser (List Item)}
    (hs : RightSweep reg n sweep) (h : Stage reg n t cur) (ht : t.Typed reg)
    (done rest : List Item) (p : ParseState) :
    ∃ cur' q, Stage reg (n + 1) t cur' ∧
      (sweep done (cur.reverse ++ rest)).run p = (sweep (cur' ++ done) rest).run q := by
  have hlevel := hs.level
  induction h generalizing done rest p with
  | done hk hc =>
    refine ⟨_, p, .done (Nat.le_succ_of_le hk) hc, ?_⟩
    rw [List.reverse_singleton, List.singleton_append, hs.skip (value_of_cell hc _)]
    rfl
  | suffixed hk _ hi =>
    have := hi.level
    omega
  | @prefixed t t' i cur hk h hi ih =>
    have := hi.level
    have hn : n + 1 < t'.level := by omega
    obtain ⟨cur', p₁, hcur, hrun⟩ := ih (hi.typed ht) done (i :: rest) p
    refine ⟨i :: cur', p₁, .prefixed hn hcur hi, ?_⟩
    rw [List.reverse_cons, List.append_assoc, List.singleton_append, hrun,
      hs.skip (.prefixed hi hn rfl)]
    rfl
  | @infixed l r t' i cl cr hk hl hr hi ihl ihr =>
    obtain ⟨cr', p₁, hcr, hrun⟩ := ihr (hi.typed ht).2 done (i :: (cl.reverse ++ rest)) p
    have hlist : (cl ++ i :: cr).reverse ++ rest = cr.reverse ++ i :: (cl.reverse ++ rest) := by
      simp
    rw [hlist, hrun]
    have hlevels := hi.level
    by_cases hn : t'.level = n + 1
    · have := hi.level_left (by omega)
      obtain ⟨a, rfl, ha⟩ := hl.eq_done (by omega)
      obtain ⟨b, rfl, hb⟩ := hcr.eq_done (by omega)
      obtain ⟨j, q, hj, hrun⟩ := hs.infixed hi hn ht ha hb done rest p₁
      exact ⟨[j], q, .done (by omega) hj, hrun⟩
    · have hn : n + 1 < t'.level := by omega
      obtain ⟨cl', p₂, hcl, hrun⟩ := ihl (hi.typed ht).1 (i :: (cr' ++ done)) rest p₁
      refine ⟨cl' ++ i :: cr', p₂, .infixed hn hcl hcr hi, ?_⟩
      rw [hs.skip (.infixed hi hn), hrun]
      simp
  | @choice c q y k yes no cur hk h hi ih =>
    have hlist : (cur ++ [q, y, k]).reverse ++ rest = k :: y :: q :: (cur.reverse ++ rest) := by
      simp
    rw [hlist, hs.skip (.value hi.no), hs.skip (.value hi.yes)]
    by_cases hn : n + 1 = 15
    · obtain ⟨a, rfl, ha⟩ := h.eq_done (by have := hi.level; omega)
      obtain ⟨j, q, hj, hrun⟩ := hs.choice hi hn ht ha done rest p
      exact ⟨[j], q, .done (by simp only [Tree.level]; omega) hj, hrun⟩
    · obtain ⟨cur', p₁, hcur, hrun⟩ := ih (typed_of_ternary ht) (q :: y :: k :: done) rest p
      refine ⟨cur' ++ [q, y, k], p₁, .choice (by omega) hcur hi, ?_⟩
      rw [hs.skip (.question hi.question (by omega)), hrun]
      simp

/-- **A pass that comes back takes a tree to the next stage.** -/
theorem BackSweep.run {β : Type} {sweep : Option Item → List Item → Parser β} {out : β → List Item}
    {made : β → Bool} (hs : BackSweep reg n sweep out made) (h : Stage reg n t cur)
    (ht : t.Typed reg) {before : Option Item} (hb : isPrefixPosition before = true) {z : Item}
    (hz : cur.getLast? = some z) {rest : List Item} {p q : ParseState} {b : β}
    (hrest : (sweep (some z) rest).run p = (.ok b, q)) :
    ∃ cur' b' q', Stage reg (n + 1) t cur' ∧ (sweep before (cur ++ rest)).run p = (.ok b', q') ∧
      out b' = cur' ++ out b ∧ (t.level = n + 1 → made b' = true) := by
  have hlevel := hs.level
  induction h generalizing before z rest p q b with
  | @done t i hk hc =>
    cases hz
    have hp (t t' : Tree) : ¬ Prefixed i t t' := by
      obtain ⟨e, he, -⟩ := hc
      rintro ⟨⟩ <;> simp_all
    obtain ⟨b', q', hrun, hout⟩ := hs.skip _ (value_of_cell hc none) (fun _ => hp) hrest
    exact ⟨[i], b', q', .done (Nat.le_succ_of_le hk) hc, hrun, hout, by omega⟩
  | suffixed hk _ hi =>
    have := hi.level
    omega
  | @prefixed t t' i cur hk h hi ih =>
    have hlevels := hi.level
    obtain ⟨y, hy, -⟩ := h.endsOperand (by omega)
    have hzy : z = y := by simpa [List.getLast?_cons, hy] using hz.symm
    subst hzy
    obtain ⟨cur', b₁, q₁, hcur, hrun, hout, hmade⟩ :=
      ih (hi.typed ht) (isPrefixPosition_of_prefixed hi) hy hrest
    by_cases hn : t'.level = n + 1
    · obtain ⟨c, rfl, hc⟩ := hcur.eq_done (by omega)
      obtain ⟨b', q', j, hrun, hj, hout', hmade'⟩ := hs.apply hi hn hb ht hc hout hmade hrun
      exact ⟨[j], b', q', .done (by omega) hj, hrun, hout', fun _ => hmade'⟩
    · have hn : n + 1 < t'.level := by omega
      obtain ⟨b', q', hrun, hout'⟩ := hs.wait hi hn hb hcur hout hrun
      exact ⟨i :: cur', b', q', .prefixed hn hcur hi, hrun, by simp [hout', hout], by omega⟩
  | @infixed l r t' i cl cr hk hl hr hi ihl ihr =>
    have hlevels := hi.level
    obtain ⟨y, hy, -⟩ := hr.endsOperand (by omega)
    obtain ⟨x, hx, hxe⟩ := hl.endsOperand (by omega)
    have hzy : z = y := by simpa [List.getLast?_append, List.getLast?_cons, hy] using hz.symm
    subst hzy
    obtain ⟨cr', b₁, q₁, hcr, hrun, hout, -⟩ :=
      ihr (hi.typed ht).2 (isPrefixPosition_of_infixed hi) hy hrest
    have hn : n + 1 < t'.level := by omega
    obtain ⟨b₂, q₂, hrun, hout₂⟩ := hs.skip (some x) (.infixed hi hn)
      (by simp [isPrefixPosition, hxe]) hrun
    obtain ⟨cl', b', q', hcl, hrun, hout', -⟩ := ihl (hi.typed ht).1 hb hx hrun
    refine ⟨cl' ++ i :: cr', b', q', .infixed hn hcl hcr hi, ?_, ?_, by omega⟩
    · rw [List.append_assoc]
      exact hrun
    · simp [hout', hout₂, hout]
  | @choice c m y k yes no cur hk h hi ih =>
    obtain ⟨x, hx, hxe⟩ := h.endsOperand (by omega)
    have hzk : z = k := by simpa [List.getLast?_append] using hz.symm
    subst hzk
    have hvalue {j : Item} {e : Expr} (hj : j.kind = .value e) (t t' : Tree) :
        ¬ Prefixed j t t' := by rintro ⟨⟩ <;> simp_all
    obtain ⟨b₁, q₁, hrun, hout₁⟩ := hs.skip (some y) (.value hi.no)
      (fun _ => hvalue hi.no) hrest
    obtain ⟨b₂, q₂, hrun, hout₂⟩ := hs.skip (some m) (.value hi.yes)
      (fun _ => hvalue hi.yes) hrun
    obtain ⟨b₃, q₃, hrun, hout₃⟩ := hs.skip (some x) (.question hi.question (by omega))
      (by simp [isPrefixPosition, hxe]) hrun
    obtain ⟨cur', b', q', hcur, hrun, hout', -⟩ := ih (typed_of_ternary ht) hb hx hrun
    refine ⟨cur' ++ [m, y, z], b', q', .choice (by omega) hcur hi, ?_, ?_, ?_⟩
    · rw [List.append_assoc]
      exact hrun
    · simp [hout', hout₃, hout₂, hout₁]
    · simp only [Tree.level]
      omega

end Parser

end TypedExpr
