import TypedExpr.Proofs.Grammar.Built
import TypedExpr.Proofs.Parse.Built
/-!
# What is built has a derivation

After each pass every item stands for some of the items at the beginning: a value for items that
derive a tree by the rules applied so far, everything else for itself. At the end one value stands
for all of them.

* `Covers`: some items stand for others, in order.
* `Parser.applyPasses_covers`: **what remains stands for what was there.**
-/

namespace TypedExpr

namespace Derives

variable {bang n : Nat} {xs : List Item} {t : Tree}

theorem ne_nil (h : Derives bang n xs t) : xs ≠ [] := by
  induction h <;> simp_all

/-- A conditional binds loosest of what is not an assignment. -/
theorem ne_question (h : Derives bang n xs t) (hb : bang ≤ 14) (hn : n ≤ 14) :
    ∀ i ∈ xs, i.kind ≠ .operator .question := by
  induction h with
  | @binary i op ls rs l r hop hl hr hi ihl ihr =>
    have := ihl hn
    have := ihr (by omega)
    grind
  | _ => grind

/-- There is nothing to apply among values, so there is just one. -/
theorem eq_operand (h : Derives bang n xs t) (hv : ∀ i ∈ xs, ∃ e, i.kind = .value e) :
    ∃ i e, xs = [i] ∧ i.kind = .value e ∧ t = .operand e := by
  induction h with
  | operand hi => exact ⟨_, _, rfl, hi, rfl⟩
  | looser _ _ ih => exact ih hv
  | _ => simp_all [or_imp, forall_and]

end Derives

/-- The items are as they are collected: if there is a conditional, its branches are the last of
them. -/
inductive Collected : List Item → Prop where
  | plain {xs : List Item} (h : ∀ i ∈ xs, i.kind ≠ .operator .question) : Collected xs
  | choice {xs : List Item} {q y n : Item} {yes no : Expr}
    (h : ∀ i ∈ xs, i.kind ≠ .operator .question) (hq : q.kind = .operator .question)
    (hy : y.kind = .value yes) (hn : n.kind = .value no) : Collected (xs ++ [q, y, n])

variable (reg : Registry) (n : Nat)

/-- The item stands for some items, to which operators have been applied down to a level. -/
inductive Reads : List Item → Item → Prop where
  | value {xs : List Item} {t : Tree} {i : Item} (h : Derives 10 n xs t) (hc : t.Cell reg i) :
    Reads xs i
  | other {i : Item} (h : i.value? = none) : Reads [i] i

/-- Items stand for others, in order. -/
inductive Covers : List Item → List Item → Prop where
  | nil : Covers [] []
  | cons {xs ys items : List Item} {i : Item} (hi : Reads reg n xs i) (h : Covers ys items) :
    Covers (xs ++ ys) (i :: items)

variable {reg n} {m : Nat} {xs ys items items' : List Item} {i : Item} {e : Expr}

namespace Reads

theorem mono (h : Reads reg n xs i) (hn : n ≤ m) : Reads reg m xs i := by
  cases h with
  | value h hc => exact .value (.looser h hn) hc
  | other h => exact .other h

theorem value? (h : Reads reg n xs i) (hi : i.kind = .value e) :
    ∃ t, Derives 10 n xs t ∧ t.Cell reg i := by
  cases h with
  | value h hc => exact ⟨_, h, hc⟩
  | other h => simp [Item.value?, hi] at h

theorem eq_of_value? (h : Reads reg n xs i) (hi : i.value? = none) : xs = [i] := by
  cases h with
  | value _ hc =>
    obtain ⟨e, hk, -⟩ := hc
    simp [Item.value?, hk] at hi
  | other _ => rfl

end Reads

namespace Covers

theorem single (h : Reads reg n xs i) : Covers reg n xs [i] := by
  simpa using cons h nil

theorem append (h : Covers reg n xs items) (h' : Covers reg n ys items') :
    Covers reg n (xs ++ ys) (items ++ items') := by
  induction h with
  | nil => exact h'
  | cons hi _ ih =>
    rw [List.append_assoc]
    exact cons hi ih

theorem mono (h : Covers reg n xs items) (hn : n ≤ m) : Covers reg m xs items := by
  induction h with
  | nil => exact nil
  | cons hi _ ih => exact cons (hi.mono hn) ih

/-- At the beginning every item stands for itself. -/
theorem self (items : List Item) : Covers reg 0 items items := by
  induction items with
  | nil => exact nil
  | cons i items ih =>
    have hi : Reads reg 0 [i] i := by
      obtain ⟨kind, span, line⟩ := i
      cases kind with
      | value e => exact .value (.operand rfl) ⟨e, rfl, .operand reg e⟩
      | _ => exact .other rfl
    exact cons hi ih

theorem head (h : Covers reg n xs (i :: items)) :
    ∃ ys zs, xs = ys ++ zs ∧ Reads reg n ys i ∧ Covers reg n zs items := by
  cases h with
  | cons hi h => exact ⟨_, _, rfl, hi, h⟩

theorem split (h : Covers reg n xs (items ++ items')) :
    ∃ ys zs, xs = ys ++ zs ∧ Covers reg n ys items ∧ Covers reg n zs items' := by
  induction items generalizing xs with
  | nil => exact ⟨[], xs, rfl, nil, h⟩
  | cons i items ih =>
    obtain ⟨ys, zs, rfl, hi, h⟩ := head h
    obtain ⟨us, vs, rfl, hu, hv⟩ := ih h
    exact ⟨ys ++ us, vs, by simp, cons hi hu, hv⟩

theorem last (h : Covers reg n xs (i :: items).reverse) :
    ∃ ys zs, xs = ys ++ zs ∧ Covers reg n ys items.reverse ∧ Reads reg n zs i := by
  rw [List.reverse_cons] at h
  obtain ⟨ys, zs, rfl, hys, hzs⟩ := split h
  obtain ⟨us, vs, rfl, hi, hv⟩ := head hzs
  cases hv
  exact ⟨ys, us, by simp, hys, hi⟩

theorem snoc (h : Covers reg n xs items.reverse) (hi : Reads reg n ys i) :
    Covers reg n (xs ++ ys) (i :: items).reverse := by
  rw [List.reverse_cons]
  exact h.append (single hi)

/-- An item has been applied to the one after it. -/
theorem push {j : Item} {t : Tree} (ht : Derives 10 n (i :: xs) t) (hc : t.Cell reg j)
    (h : Covers reg n ys items) : Covers reg n ([i] ++ (xs ++ ys)) (j :: items) := by
  have hj : Reads reg n (i :: xs) j := .value ht hc
  simpa using cons hj h

theorem eq_nil (h : Covers reg n xs []) : xs = [] := by
  cases h
  rfl

/-- A `?` stands for itself before the pass for conditionals. -/
theorem cut {question : Item} (h : Covers reg n (xs ++ question :: ys) items) (hn : n ≤ 14)
    (hq : question.kind = .operator .question) :
    ∃ us vs, items = us ++ question :: vs ∧ Covers reg n xs us ∧ Covers reg n ys vs := by
  generalize hzs : xs ++ question :: ys = zs at h
  induction h generalizing xs with
  | nil => simp at hzs
  | @cons us vs items i hi h ih =>
    rcases List.append_eq_append_iff.1 hzs with ⟨ws, rfl, hws⟩ | ⟨ws, rfl, rfl⟩
    · cases ws with
      | nil =>
        obtain ⟨us', vs', rfl, hu, hv⟩ := @ih [] hws
        rw [List.append_nil] at hi
        exact ⟨i :: us', vs', rfl, by simpa using cons hi hu, hv⟩
      | cons w ws =>
        obtain ⟨rfl, rfl⟩ := List.cons.inj hws
        generalize hus : xs ++ question :: ws = us at hi
        cases hi with
        | value ht _ => exact absurd hq (ht.ne_question (by omega) hn _ (by simp [← hus]))
        | other _ =>
          obtain ⟨rfl, hi⟩ | ⟨-, hi⟩ := List.append_eq_singleton_iff.1 hus
          · obtain ⟨rfl, rfl⟩ := List.cons.inj hi
            exact ⟨[], items, rfl, nil, h⟩
          · simp at hi
    · obtain ⟨us', vs', rfl, hu, hv⟩ := ih rfl
      exact ⟨i :: us', vs', rfl, cons hi hu, hv⟩

/-- Values stand for themselves. -/
theorem map_kind (h : Covers reg n xs items) (hx : ∀ i ∈ xs, ∃ e, i.kind = .value e) :
    items.map (·.kind) = xs.map (·.kind) := by
  induction h with
  | nil => rfl
  | cons hi _ ih =>
    rw [List.forall_mem_append] at hx
    rw [List.map_cons, ih hx.2, List.map_append]
    cases hi with
    | value ht hc =>
      obtain ⟨j, e, rfl, hj, rfl⟩ := ht.eq_operand hx.1
      obtain ⟨_, hk, hfit⟩ := hc
      cases hfit.shape
      rw [hk, ← hj]
      rfl
    | other _ => rfl

end Covers

namespace Parser

variable {s : Setting} {p q : ParseState} {ds ps done rest out : List Item} {before : Option Item}

/-! ### Operands are values -/

theorem operand_value {item : Option Item} {operator : Item} {side : String} {r : Item × Expr}
    (h : (operand s item operator side).run p = (.ok r, q)) :
    ∃ i e, item = some i ∧ i.kind = .value e := by
  obtain ⟨-, i, e, hi, hk, -⟩ := operand_ok.1 h
  exact ⟨i, e, hi, hk⟩

theorem buildIndex_value {container bracket item : Item} {i : Expr}
    (h : (buildIndex s container i bracket).run p = (.ok item, q)) :
    ∃ e, container.kind = .value e := by
  obtain ⟨kind, span, line⟩ := container
  cases kind with
  | value e => exact ⟨e, rfl⟩
  | _ => cases h

theorem applyUnary_value {op : UnaryOp} {operator : Item}
    (h : (applyUnary s op operator rest).run p = (.ok out, q)) :
    ∃ i tail e, rest = i :: tail ∧ i.kind = .value e := by
  obtain ⟨_, _, h, -⟩ := run_bind_ok.1 h
  obtain ⟨i, e, hi, hk⟩ := operand_value h
  cases rest with
  | nil => cases hi
  | cons j tail =>
    cases hi
    exact ⟨i, tail, e, rfl, hk⟩

theorem applyStepBefore_value {op : StepOp} {operator : Item}
    (h : (applyStepBefore s op before operator rest).run p = (.ok out, q)) :
    ∃ i tail e, rest = i :: tail ∧ i.kind = .value e := by
  obtain ⟨_, _, -, h⟩ := run_bind_ok.1 h
  obtain ⟨_, _, h, -⟩ := run_bind_ok.1 h
  obtain ⟨i, e, hi, hk⟩ := operand_value (placeOperand_ok.1 h).1
  cases rest with
  | nil => cases hi
  | cons j tail =>
    obtain ⟨hj, -⟩ := Option.filter_eq_some_iff.1 hi
    cases hj
    exact ⟨i, tail, e, rfl, hk⟩

theorem applyBinary_value {op : BinaryOp} {left right : Option Item} {operator item : Item}
    (h : (applyBinary s op left operator right).run p = (.ok item, q)) :
    ∃ i j a b, left = some i ∧ right = some j ∧ i.kind = .value a ∧ j.kind = .value b := by
  obtain ⟨_, _, hl, h⟩ := run_bind_ok.1 h
  obtain ⟨_, _, hr, -⟩ := run_bind_ok.1 h
  obtain ⟨i, a, hi, ha⟩ := operand_value hl
  obtain ⟨j, b, hj, hb⟩ := operand_value hr
  exact ⟨i, j, a, b, hi, hj, ha, hb⟩

theorem applyAssign_value {op : AssignOp} {left right : Option Item} {operator item : Item}
    (h : (applyAssign s op left operator right).run p = (.ok item, q)) :
    ∃ i j a b, left = some i ∧ right = some j ∧ i.kind = .value a ∧ j.kind = .value b := by
  obtain ⟨_, _, hl, h⟩ := run_bind_ok.1 h
  obtain ⟨_, _, hr, -⟩ := run_bind_ok.1 h
  obtain ⟨i, a, hi, ha⟩ := operand_value (placeOperand_ok.1 hl).1
  obtain ⟨j, b, hj, hb⟩ := operand_value hr
  exact ⟨i, j, a, b, hi, hj, ha, hb⟩

theorem remaining_eq_some (h : (remaining s items).run p = (.ok (some e), q)) :
    ∃ i, items = [i] ∧ i.kind = .value e := by
  unfold remaining at h
  split at h
  · cases h
  · split at h
    · cases h
    · split at h
      · cases h
        exact ⟨_, rfl, ‹_›⟩
      · cases h
    · cases h

/-! ### Operators with one operand -/

theorem operator?_eq {item : Item} {op : Operator} :
    item.operator? = some op ↔ item.kind = .operator op := by
  unfold Item.operator?
  split <;> simp_all

theorem value?_of_operator {item : Item} {op : Operator} (h : item.kind = .operator op) :
    item.value? = none := by
  rw [Item.value?, h]

variable (hfold : s.options.fold = false)

include hfold

omit hfold in
theorem prefixOperator?_eq {op : UnaryOp} {item : Item}
    (h : prefixOperator? before item = some op) :
    item.kind = .operator (.binary .sub) ∧ op = .neg ∨
      item.kind = .operator .tilde ∧ op = .bitNot := by
  obtain ⟨kind, span, line⟩ := item
  unfold prefixOperator? Item.operator? at h
  cases kind with
  | operator o => 
    cases o <;> grind [Operator.startsOperand, Operator.unary?]
  | _ => simp at h

theorem applyIndexes_covers (hd : Covers s.registry 1 ds done.reverse)
    (h : Covers s.registry 0 xs items) (hr : (applyIndexes s done items).run p = (.ok out, q)) :
    Covers s.registry 1 (ds ++ xs) out := by
  induction items generalizing done ds xs p with
  | nil =>
    cases h.eq_nil
    cases hr
    simpa using hd
  | cons item rest ih =>
    obtain ⟨ys, zs, rfl, hi, hrest⟩ := h.head
    rw [← List.append_assoc]
    have skip (hr : (applyIndexes s (item :: done) rest).run p = (.ok out, q)) :=
      ih (hd.snoc (hi.mono (by omega))) hrest hr
    obtain ⟨kind, span, line⟩ := item
    cases kind with
    | index i =>
      cases done with
      | nil => cases hr
      | cons c done =>
        obtain ⟨node, p', hb, hr⟩ := run_bind_ok.1 hr
        obtain ⟨us, vs, rfl, hus, hvs⟩ := hd.last
        obtain ⟨e, hk⟩ := buildIndex_value hb
        obtain ⟨t, ht, hc⟩ := hvs.value? hk
        cases hi.eq_of_value? rfl
        have hnode := ((buildIndex_makes hfold _ hc).sound hb).2
        rw [List.append_assoc us]
        exact ih (hus.snoc (.value (.index ht rfl) hnode)) hrest hr
    | _ => exact skip hr

omit hfold in
theorem applyStepsAfter_covers (hd : Covers s.registry 2 ds done.reverse)
    (h : Covers s.registry 1 xs items) (hr : (applyStepsAfter s done items).run p = (.ok out, q)) :
    Covers s.registry 2 (ds ++ xs) out := by
  induction items generalizing done ds xs p with
  | nil =>
    cases h.eq_nil
    cases hr
    simpa using hd
  | cons item rest ih =>
    obtain ⟨ys, zs, rfl, hi, hrest⟩ := h.head
    rw [← List.append_assoc]
    have skip (hr : (applyStepsAfter s (item :: done) rest).run p = (.ok out, q)) :=
      ih (hd.snoc (hi.mono (by omega))) hrest hr
    unfold applyStepsAfter at hr
    split at hr
    · rename_i op target below hop
      split at hr
      · rename_i hm
        obtain ⟨⟨_, e⟩, p₁, ho, hr₁⟩ := run_bind_ok.1 hr
        obtain ⟨node, p₂, hb, hr₂⟩ := run_bind_ok.1 hr₁
        obtain ⟨rfl, _, _, hj, hk, -, hje⟩ := operand_ok.1 ho
        cases hj
        cases hje
        obtain ⟨us, vs, rfl, hus, hvs⟩ := hd.last
        obtain ⟨t, ht, e', hk', hfit⟩ := hvs.value? hk
        cases hk.symm.trans hk'
        have hme : e.isModifiable = true := by simpa [Item.isModifiable, hk] using hm
        have hnode : (Tree.step op true t).Cell s.registry
            (target.withValue node (target.span.merge item.span)) :=
          ⟨node, rfl, ((buildStep_makes op true hfit hme _ _).sound hb).2⟩
        have hop := operator?_eq.1 hop
        cases hi.eq_of_value? (value?_of_operator hop)
        rw [List.append_assoc us]
        exact ih (hus.snoc (.value (.stepAfter ht hop) hnode)) hrest hr₂
      · exact skip hr
    · exact skip hr

omit hfold in
theorem applyStepsBefore_covers (h : Covers s.registry 2 xs items)
    (hr : (applyStepsBefore s before items).run p = (.ok out, q)) :
    Covers s.registry 3 xs out := by
  induction items generalizing before xs p q out with
  | nil =>
    cases hr
    exact h.mono (by omega)
  | cons item rest ih =>
    obtain ⟨ys, zs, rfl, hi, hrest⟩ := h.head
    obtain ⟨rest', p', hrun, hr⟩ := run_bind_ok.1 hr
    have hrest := ih hrest hrun
    split at hr
    · rename_i op hop
      obtain ⟨j, tail, e, rfl, hk⟩ := applyStepBefore_value hr
      obtain ⟨us, vs, rfl, hj, htail⟩ := hrest.head
      obtain ⟨t, ht, hc⟩ := hj.value? hk
      obtain ⟨-, node, rfl, hnode⟩ := (applyStepBefore_makes op _ hc _ _).sound hr
      have hop := operator?_eq.1 hop
      cases hi.eq_of_value? (value?_of_operator hop)
      exact .push (.stepBefore ht hop) hnode htail
    · cases hr
      exact .cons (hi.mono (by omega)) hrest

theorem applyUnary_covers {op : UnaryOp} {item : Item}
    (hop : ∀ {xs t}, Derives 10 m xs t → Derives 10 n (item :: xs) (.unary op t)) (hmn : m ≤ n)
    (h : Covers s.registry m xs rest) (hr : (applyUnary s op item rest).run p = (.ok out, q)) :
    Covers s.registry n (item :: xs) out := by
  obtain ⟨j, tail, e, rfl, hk⟩ := applyUnary_value hr
  obtain ⟨us, vs, rfl, hj, htail⟩ := h.head
  obtain ⟨t, ht, hc⟩ := hj.value? hk
  obtain ⟨-, node, rfl, hnode⟩ := (applyUnary_makes hfold op _ hc _).sound hr
  exact .cons (.value (hop ht) hnode) (htail.mono hmn)

omit hfold in
theorem prefixOperator?_derives {op : UnaryOp} {item : Item}
    (h : prefixOperator? before item = some op) :
    item.value? = none ∧
      ∀ {bang xs t}, Derives bang 5 xs t → Derives bang 5 (item :: xs) (.unary op t) := by
  rcases prefixOperator?_eq h with ⟨hk, rfl⟩ | ⟨hk, rfl⟩
  · exact ⟨value?_of_operator hk, fun h => .minus h hk⟩
  · exact ⟨value?_of_operator hk, fun h => .tilde h hk⟩

theorem applyPrefixes_covers (h : Covers s.registry 3 xs items)
    (hr : (applyPrefixes s before items).run p = (.ok out, q)) :
    Covers s.registry 5 xs out := by
  induction items generalizing before xs p q out with
  | nil =>
    cases hr
    exact h.mono (by omega)
  | cons item rest ih =>
    obtain ⟨ys, zs, rfl, hi, hrest⟩ := h.head
    obtain ⟨rest', p', hrun, hr⟩ := run_bind_ok.1 hr
    have hrest := ih hrest hrun
    have skip : Covers s.registry 5 (ys ++ zs) (item :: rest') := .cons (hi.mono (by omega)) hrest
    split at hr
    · rename_i op hop
      split at hr
      · cases hr
        exact skip
      · obtain ⟨hv, hop⟩ := prefixOperator?_derives hop
        cases hi.eq_of_value? hv
        exact applyUnary_covers hfold hop (Nat.le_refl _) hrest hr
    · cases hr
      exact skip

theorem applyCastsFrom_covers {r : List Item × Bool} (h : Covers s.registry 5 xs items)
    (hr : (applyCastsFrom s before items).run p = (.ok r, q)) : Covers s.registry 5 xs r.1 := by
  induction items generalizing before xs p q r with
  | nil =>
    cases hr
    exact h
  | cons item rest ih =>
    obtain ⟨ys, zs, rfl, hi, hrest⟩ := h.head
    obtain ⟨⟨rest', isCast⟩, p', hrun, hr⟩ := run_bind_ok.1 hr
    have hrest := ih hrest hrun
    have waiting (hr : (applyWaiting s before item isCast rest').run p' = (.ok r, q)) :
        Covers s.registry 5 (ys ++ zs) r.1 := by
      unfold applyWaiting at hr
      split at hr
      · obtain ⟨out, p₁, hu, hr⟩ := run_bind_ok.1 hr
        cases hr
        obtain ⟨hv, hop⟩ := prefixOperator?_derives ‹_›
        cases hi.eq_of_value? hv
        exact applyUnary_covers hfold hop (Nat.le_refl _) hrest hu
      · cases hr
        exact .cons hi hrest
    obtain ⟨kind, span, line⟩ := item
    cases kind with
    | cast type =>
      obtain ⟨⟨j, e⟩, p₁, ho, hr⟩ := run_bind_ok.1 hr
      obtain ⟨node, p₂, hb, hr⟩ := run_bind_ok.1 hr
      cases hr
      obtain ⟨rfl, _, _, hj, hk, hv, hje⟩ := operand_ok.1 ho
      cases hje
      cases rest' with
      | nil => cases hj
      | cons j tail =>
        cases hj
        obtain ⟨us, vs, rfl, hj, htail⟩ := hrest.head
        obtain ⟨t, ht, e', hk', hfit⟩ := hj.value? hk
        cases hk.symm.trans hk'
        have hnode := ((buildCast_makes hfold type hfit hv _ _).sound hb).2
        cases hi.eq_of_value? rfl
        exact .push (.cast ht rfl) ⟨_, rfl, hnode⟩ htail
    | _ => exact waiting hr

theorem applyNot_covers (h : Covers s.registry 9 xs items)
    (hr : (applyNot s items).run p = (.ok out, q)) : Covers s.registry 10 xs out := by
  induction items generalizing xs p q out with
  | nil =>
    cases hr
    exact h.mono (by omega)
  | cons item rest ih =>
    obtain ⟨ys, zs, rfl, hi, hrest⟩ := h.head
    obtain ⟨rest', p', hrun, hr⟩ := run_bind_ok.1 hr
    have hrest := ih hrest hrun
    split at hr
    · rename_i hop
      have hop := operator?_eq.1 hop
      have hv := value?_of_operator hop
      cases hi.eq_of_value? hv
      exact applyUnary_covers hfold (fun h => .not h hop) (Nat.le_refl _) hrest hr
    · cases hr
      exact .cons (hi.mono (by omega)) hrest

/-! ### Operators with two operands -/

omit hfold in
theorem isOneOf?_eq {ops : List BinaryOp} {item : Item} {op : BinaryOp} :
    isOneOf? ops item = some op ↔ item.kind = .operator (.binary op) ∧ op ∈ ops := by
  obtain ⟨kind, span, line⟩ := item
  unfold isOneOf? Item.operator?
  cases kind with
  | operator o => cases o <;> grind
  | _ => simp

theorem applyLeftward_covers {ops : List BinaryOp} (hops : ∀ op ∈ ops, op.level = n + 1)
    (hn : 6 ≤ n) (hd : Covers s.registry (n + 1) ds done.reverse) (h : Covers s.registry n xs items)
    (hr : (applyLeftward s ops done items).run p = (.ok out, q)) :
    Covers s.registry (n + 1) (ds ++ xs) out := by
  fun_induction applyLeftward s ops done items generalizing ds xs p with
  | case1 =>
    cases h.eq_nil
    cases hr
    simpa using hd
  | case2 done item op right rest hop ih =>
    obtain ⟨ys, zs, rfl, hi, hrest⟩ := h.head
    obtain ⟨us, vs, rfl, hright, hrest⟩ := hrest.head
    obtain ⟨hop, hmem⟩ := isOneOf?_eq.1 hop
    cases hi.eq_of_value? (value?_of_operator hop)
    obtain ⟨node, p', hb, hr⟩ := run_bind_ok.1 hr
    obtain ⟨l, _, a, b, hl, hj, ha, hb'⟩ := applyBinary_value hb
    cases hj
    cases done with
    | nil => cases hl
    | cons _ done =>
      cases hl
      obtain ⟨ls, ms, rfl, hds, hl⟩ := hd.last
      obtain ⟨t, ht, hc⟩ := hl.value? ha
      obtain ⟨t', ht', hc'⟩ := hright.value? hb'
      have hnode := ((applyBinary_makes hfold op _ hc hc').sound hb).2
      have hlevel := hops op hmem
      -- grouping left: what is to the left has the level of the operator, what is to the right a
      -- tighter one
      have hbin : Derives 10 (n + 1) (ms ++ item :: us) (.binary op t t') := by
        rw [← hlevel] at ht ⊢
        refine .binary ?_ ht ?_ hop
        · rintro rfl
          have : BinaryOp.pow.level = 6 := rfl
          omega
        · rwa [hlevel]
      have := ih node (hds.snoc (.value hbin hnode)) hrest hr
      simpa using this
  | case3 done item op hop =>
    obtain ⟨node, p', hb, hr⟩ := run_bind_ok.1 hr
    obtain ⟨_, _, _, _, _, hj, -⟩ := applyBinary_value hb
    cases hj
  | case4 done item rest hop ih =>
    obtain ⟨ys, zs, rfl, hi, hrest⟩ := h.head
    rw [← List.append_assoc]
    exact ih (hd.snoc (hi.mono (by omega))) hrest hr

theorem applyRightward_covers (hd : Covers s.registry 6 ds done)
    (h : Covers s.registry 5 xs items.reverse)
    (hr : (applyRightward s [.pow] done items).run p = (.ok out, q)) :
    Covers s.registry 6 (xs ++ ds) out := by
  fun_induction applyRightward s [.pow] done items generalizing ds xs p with
  | case1 =>
    cases h.eq_nil
    cases hr
    exact hd
  | case2 done item op left rest hop ih =>
    obtain ⟨ys, zs, rfl, hrest, hi⟩ := h.last
    obtain ⟨us, vs, rfl, hrest, hleft⟩ := hrest.last
    obtain ⟨hop, hmem⟩ := isOneOf?_eq.1 hop
    cases List.mem_singleton.1 hmem
    cases hi.eq_of_value? (value?_of_operator hop)
    obtain ⟨node, p', hb, hr⟩ := run_bind_ok.1 hr
    obtain ⟨_, r, a, b, hj, hr', ha, hb'⟩ := applyBinary_value hb
    cases hj
    cases done with
    | nil => cases hr'
    | cons _ done =>
      cases hr'
      obtain ⟨rs, ms, rfl, hr', hds⟩ := hd.head
      obtain ⟨t, ht, hc⟩ := hleft.value? ha
      obtain ⟨t', ht', hc'⟩ := hr'.value? hb'
      have hnode := ((applyBinary_makes hfold .pow _ hc hc').sound hb).2
      have := ih node (.cons (.value (.power ht ht' hop) hnode) hds) hrest hr
      simpa using this
  | case3 done item op hop =>
    obtain ⟨node, p', hb, hr⟩ := run_bind_ok.1 hr
    obtain ⟨_, _, _, _, hj, -⟩ := applyBinary_value hb
    cases hj
  | case4 done item rest hop ih =>
    obtain ⟨ys, zs, rfl, hrest, hi⟩ := h.last
    rw [List.append_assoc]
    exact ih (.cons (hi.mono (by omega)) hd) hrest hr

theorem applyAssignments_covers (hd : Covers s.registry 16 ds done)
    (h : Covers s.registry 15 xs items.reverse)
    (hr : (applyAssignments s done items).run p = (.ok out, q)) :
    Covers s.registry 16 (xs ++ ds) out := by
  fun_induction applyAssignments s done items generalizing ds xs p with
  | case1 =>
    cases h.eq_nil
    cases hr
    exact hd
  | case2 done item op target rest hop ih =>
    obtain ⟨ys, zs, rfl, hrest, hi⟩ := h.last
    obtain ⟨us, vs, rfl, hrest, hleft⟩ := hrest.last
    have hop := operator?_eq.1 hop
    cases hi.eq_of_value? (value?_of_operator hop)
    obtain ⟨node, p', hb, hr⟩ := run_bind_ok.1 hr
    obtain ⟨_, r, a, b, hj, hr', ha, hb'⟩ := applyAssign_value hb
    cases hj
    cases done with
    | nil => cases hr'
    | cons _ done =>
      cases hr'
      obtain ⟨rs, ms, rfl, hr', hds⟩ := hd.head
      obtain ⟨t, ht, hc⟩ := hleft.value? ha
      obtain ⟨t', ht', hc'⟩ := hr'.value? hb'
      have hnode := ((applyAssign_makes hfold op _ hc hc').sound hb).2
      have := ih node (.cons (.value (.assign ht ht' hop) hnode) hds) hrest hr
      simpa using this
  | case3 done item op hop =>
    obtain ⟨node, p', hb, hr⟩ := run_bind_ok.1 hr
    obtain ⟨_, _, _, _, hj, -⟩ := applyAssign_value hb
    cases hj
  | case4 done item rest _ _ ih =>
    obtain ⟨ys, zs, rfl, hrest, hi⟩ := h.last
    rw [List.append_assoc]
    exact ih (.cons (hi.mono (by omega)) hd) hrest hr

/-! ### Conditionals -/

omit hfold in
theorem applyTernaries_append (s : Setting) (done rest : List Item)
    (h : ∀ i ∈ items, i.kind ≠ .operator .question) :
    applyTernaries s done (items ++ rest) = applyTernaries s (items.reverse ++ done) rest := by
  induction items generalizing done with
  | nil => rfl
  | cons item items ih =>
    rw [List.cons_append, applyTernaries.eq_def]
    dsimp only
    rw [if_neg fun hop => h item List.mem_cons_self (operator?_eq.1 hop),
      ih _ fun i hi => h i (List.mem_cons_of_mem _ hi)]
    simp

omit hfold in
theorem applyTernaries_eq (s : Setting) (done : List Item)
    (h : ∀ i ∈ items, i.kind ≠ .operator .question) :
    applyTernaries s done items = pure (items.reverse ++ done) := by
  have := applyTernaries_append s done [] h
  rwa [List.append_nil] at this

omit hfold in
theorem ne_question_of_covers (h : Covers s.registry n xs items)
    (hx : ∀ i ∈ xs, i.kind ≠ .operator .question) : ∀ i ∈ items, i.kind ≠ .operator .question := by
  induction h with
  | nil => exact hx
  | cons hi _ ih =>
    rw [List.forall_mem_append] at hx
    refine List.forall_mem_cons.2 ⟨?_, ih hx.2⟩
    cases hi with
    | value _ hc =>
      obtain ⟨e, hk, -⟩ := hc
      simp [hk]
    | other _ => exact hx.1 _ List.mem_cons_self

theorem applyTernaries_covers (hx : Collected xs) (h : Covers s.registry 14 xs items)
    (hr : (applyTernaries s [] items.reverse).run p = (.ok out, q)) :
    Covers s.registry 15 xs out := by
  cases hx with
  | plain hx =>
    rw [applyTernaries_eq s [] (by simpa using ne_question_of_covers h hx)] at hr
    cases hr
    simpa using h.mono (by omega)
  | @choice xs question y n yes no hx hq hy hn =>
    obtain ⟨us, vs, rfl, hus, hvs⟩ := h.cut (Nat.le_refl _) hq
    have hkind := hvs.map_kind (by simp [hy, hn])
    obtain ⟨i, vs, rfl⟩ := List.exists_cons_of_ne_nil (l := vs) (by rintro rfl; simp at hkind)
    obtain ⟨j, vs, rfl⟩ := List.exists_cons_of_ne_nil (l := vs) (by rintro rfl; simp at hkind)
    simp only [List.map_cons, hy, hn, List.map_nil, List.cons.injEq, List.map_eq_nil_iff] at hkind
    obtain ⟨hi, hj, rfl⟩ := hkind
    rw [show (us ++ [question, i, j]).reverse = [j, i] ++ question :: us.reverse by simp,
      applyTernaries_append s [] _ (by simp [hi, hj]), applyTernaries.eq_def] at hr
    dsimp only at hr
    rw [if_pos (operator?_eq.2 hq)] at hr
    have hlast : ∀ i ∈ us, i.kind ≠ .operator .question := ne_question_of_covers hus hx
    cases hrev : us.reverse with
    | nil =>
      rw [hrev] at hr
      obtain ⟨_, _, ho, -⟩ := run_bind_ok.1 hr
      obtain ⟨_, _, hc, -⟩ := operand_value ho
      cases hc
    | cons c us' =>
      rw [hrev] at hr
      obtain ⟨made, p', hmade, hr⟩ := run_bind_ok.1 hr
      obtain ⟨_, _, ho, -⟩ := run_bind_ok.1 hmade
      obtain ⟨_, e, hc, hk⟩ := operand_value ho
      cases hc
      obtain rfl : us = us'.reverse ++ [c] := by rw [← List.reverse_reverse us, hrev]; simp
      obtain ⟨zs, ws, rfl, hzs, hws⟩ := hus.split
      obtain ⟨cs, vs, rfl, hcs, hvs⟩ := hws.head
      cases hvs.eq_nil
      obtain ⟨t, ht, hcell⟩ := hcs.value? hk
      obtain ⟨-, node, rfl, hnode⟩ := (applyTernary_makes hfold _ hcell hi hj []).sound hmade
      rw [applyTernaries_eq s _ fun i hi => hlast i (by simp_all)] at hr
      cases hr
      have hchoice := Derives.ternary ht hq hy hn
      have := (hzs.mono (by omega)).append (.single (.value hchoice hnode))
      simpa using this

/-! ### All passes -/

/-- **What remains stands for what was there.** -/
theorem applyPasses_covers (hx : Collected items)
    (hr : (applyPasses s items).run p = (.ok out, q)) :
    Covers s.registry 16 items out := by
  obtain ⟨_, _, h₁, hr⟩ := run_bind_ok.1 hr
  have c₁ := applyIndexes_covers hfold .nil (.self items) h₁
  obtain ⟨_, _, h₂, hr⟩ := run_bind_ok.1 hr
  have c₂ := applyStepsAfter_covers .nil c₁ h₂
  obtain ⟨_, _, h₃, hr⟩ := run_bind_ok.1 hr
  have c₃ := applyStepsBefore_covers c₂ h₃
  obtain ⟨_, _, h₄, hr⟩ := run_bind_ok.1 hr
  have c₄ := applyPrefixes_covers hfold c₃ h₄
  obtain ⟨_, _, h₅, hr⟩ := run_bind_ok.1 hr
  obtain ⟨r, _, h₅, hr'⟩ := run_bind_ok.1 h₅
  cases hr'
  have c₅ := applyCastsFrom_covers hfold c₄ h₅
  obtain ⟨_, _, h₆, hr⟩ := run_bind_ok.1 hr
  have c₆ := applyRightward_covers hfold .nil (by simpa using c₅) h₆
  obtain ⟨_, _, h₇, hr⟩ := run_bind_ok.1 hr
  have c₇ := applyLeftward_covers hfold (by decide) (by omega) .nil c₆ h₇
  obtain ⟨_, _, h₈, hr⟩ := run_bind_ok.1 hr
  have c₈ := applyLeftward_covers hfold (by decide) (by omega) .nil c₇ h₈
  obtain ⟨_, _, h₉, hr⟩ := run_bind_ok.1 hr
  have c₉ := applyLeftward_covers hfold (by decide) (by omega) .nil c₈ h₉
  obtain ⟨_, _, h₁₀, hr⟩ := run_bind_ok.1 hr
  have c₁₀ := applyNot_covers hfold c₉ h₁₀
  obtain ⟨_, _, h₁₁, hr⟩ := run_bind_ok.1 hr
  have c₁₁ := applyLeftward_covers hfold (by decide) (by omega) .nil c₁₀ h₁₁
  obtain ⟨_, _, h₁₂, hr⟩ := run_bind_ok.1 hr
  have c₁₂ := applyLeftward_covers hfold (by decide) (by omega) .nil c₁₁ h₁₂
  obtain ⟨_, _, h₁₃, hr⟩ := run_bind_ok.1 hr
  have c₁₃ := applyLeftward_covers hfold (by decide) (by omega) .nil c₁₂ h₁₃
  obtain ⟨_, _, h₁₄, hr⟩ := run_bind_ok.1 hr
  have c₁₄ := applyLeftward_covers hfold (by decide) (by omega) .nil c₁₃ h₁₄
  obtain ⟨_, _, h₁₅, hr⟩ := run_bind_ok.1 hr
  simp only [List.nil_append, List.append_nil] at c₁₄
  have c₁₅ := applyTernaries_covers hfold hx c₁₄ h₁₅
  have c₁₆ := applyAssignments_covers hfold .nil (by simpa using c₁₅) hr
  simpa using c₁₆

/-- **What is built has a derivation.** -/
theorem applyOperators_sound {e : Expr} (hx : Collected items)
    (hr : (applyOperators s items).run p = (.ok (some e), q)) :
    ∃ t, Derives 10 16 items t ∧ t.Fits s.registry e := by
  obtain ⟨out, p', hp, hr⟩ := run_bind_ok.1 hr
  have hc := applyPasses_covers hfold hx hp
  obtain ⟨i, rfl, hi⟩ := remaining_eq_some hr
  obtain ⟨ys, zs, rfl, hi', hnil⟩ := hc.head
  cases hnil
  obtain ⟨t, ht, e', hk, hfit⟩ := hi'.value? hi
  cases hi.symm.trans hk
  rw [List.append_nil]
  exact ⟨t, ht, hfit⟩

end Parser

end TypedExpr
