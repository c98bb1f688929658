import TypedExpr.Proofs.Fragments.Building
import TypedExpr.Proofs.Parse.Front
/-!
# Passes over fragments

Each pass over the items builds from what is in hand, where the items are: what an operator takes
stands beside it, and what comes of it is put in their place.

* `Parser.applyUnary_builds`, `Parser.applyBinary_builds`, …: one operator and its operands.
* `Parser.applyOperators_builds`: all passes together make one expression of all fragments.
-/

namespace TypedExpr.Parser

variable {s : Setting} {p q : ParseState}

/-! ### Operands -/

/-- The item is a value. -/
theorem operand_fragments {item : Option Item} {operator : Item} {side : String} {r : Item × Expr}
    (h : (operand s item operator side).run p = (.ok r, q)) :
    p = q ∧ item = some r.1 ∧ r.1.fragments = [.part r.2] := by
  obtain ⟨rfl, i, e, rfl, hk, -, rfl⟩ := operand_ok.1 h
  exact ⟨rfl, rfl, Item.fragments_of_value hk⟩

theorem placeOperand_fragments {item : Option Item} {operator : Item} {side : String}
    {r : Item × Expr} (h : (placeOperand s item operator side).run p = (.ok r, q)) :
    p = q ∧ item = some r.1 ∧ r.1.fragments = [.part r.2] :=
  operand_fragments (placeOperand_ok.1 h).1

theorem eq_cons_of_head? {items : List Item} {i : Item} (h : items.head? = some i) :
    items = i :: items.tail := by
  cases items with
  | nil => cases h
  | cons j items =>
    cases h
    rfl

/-! ### Operators with one operand -/

theorem applyIndexes_builds {done items items' : List Item}
    (h : (applyIndexes s done items).run p = (.ok items', q)) :
    Builds s p q (.of (done.reverse ++ items)) (.of items') := by
  induction items generalizing done p with
  | nil =>
    cases h
    simpa using Builds.refl s _ _
  | cons item rest ih =>
    have skip (h : (applyIndexes s (item :: done) rest).run p = (.ok items', q)) :
        Builds s p q (.of (done.reverse ++ item :: rest)) (.of items') := by simpa using ih h
    obtain ⟨kind, span, line⟩ := item
    cases kind with
    | index i =>
      cases done with
      | nil => cases h
      | cons container done =>
        obtain ⟨element, p₁, he, h⟩ := run_bind_ok.1 h
        have hstep := (buildIndex_builds he).between (.of done.reverse) (.of rest)
        simpa [Item.fragments] using hstep.trans (by simpa using ih h)
    | _ => exact skip h

theorem applyStepsAfter_builds {done items items' : List Item}
    (h : (applyStepsAfter s done items).run p = (.ok items', q)) :
    Builds s p q (.of (done.reverse ++ items)) (.of items') := by
  induction items generalizing done p with
  | nil =>
    cases h
    simpa using Builds.refl s _ _
  | cons item rest ih =>
    have skip (h : (applyStepsAfter s (item :: done) rest).run p = (.ok items', q)) :
        Builds s p q (.of (done.reverse ++ item :: rest)) (.of items') := by simpa using ih h
    unfold applyStepsAfter at h
    split at h
    · rename_i op target below hop
      split at h
      · obtain ⟨r, p₁, hr, h⟩ := run_bind_ok.1 h
        obtain ⟨rfl, ht, hfragments⟩ := operand_fragments hr
        obtain rfl := Option.some.inj ht
        obtain ⟨e, p₂, he, h⟩ := run_bind_ok.1 h
        have hstep := (buildStep_builds he).between (.of below.reverse) (.of rest)
        simpa [Form.fragments, Item.fragments_of_operator? hop, hfragments] using
          hstep.trans (by simpa using ih h)
      · exact skip h
    · exact skip h

theorem applyStepBefore_builds {op : StepOp} {before : Option Item} {operator : Item}
    {rest items' : List Item} (hop : operator.operator? = some (.step op))
    (h : (applyStepBefore s op before operator rest).run p = (.ok items', q)) :
    Builds s p q (.of (operator :: rest)) (.of items') := by
  obtain ⟨_, p₁, hc, h⟩ := run_bind_ok.1 h
  obtain rfl : p = p₁ := by
    unfold checkStep at hc
    split at hc
    · split at hc <;> cases hc
      rfl
    · cases hc
      rfl
  obtain ⟨r, p₂, hr, h⟩ := run_bind_ok.1 h
  obtain ⟨rfl, ht, hfragments⟩ := placeOperand_fragments hr
  obtain ⟨e, p₃, he, h⟩ := run_bind_ok.1 h
  cases h
  rw [eq_cons_of_head? (Option.filter_eq_some_iff.1 ht).1]
  have hstep := (buildStep_builds he).before (.of rest.tail)
  simpa [Form.fragments, Item.fragments_of_operator? hop, hfragments] using hstep

theorem applyStepsBefore_builds {before : Option Item} {items items' : List Item}
    (h : (applyStepsBefore s before items).run p = (.ok items', q)) :
    Builds s p q (.of items) (.of items') := by
  induction items generalizing before p q items' with
  | nil =>
    cases h
    exact .refl s _ _
  | cons item rest ih =>
    obtain ⟨rest', p₁, hrest, h⟩ := run_bind_ok.1 h
    refine ((ih hrest).after item.fragments).trans ?_
    split at h
    · rename_i op hop
      exact applyStepBefore_builds hop h
    · cases h
      exact .refl s _ _

theorem applyUnary_builds {op : UnaryOp} {operator : Item} {rest items' : List Item}
    (hop : operator.operator? = some op.operator)
    (h : (applyUnary s op operator rest).run p = (.ok items', q)) :
    Builds s p q (.of (operator :: rest)) (.of items') := by
  obtain ⟨r, p₁, hr, h⟩ := run_bind_ok.1 h
  obtain ⟨rfl, ht, hfragments⟩ := operand_fragments hr
  obtain ⟨e, p₂, he, h⟩ := run_bind_ok.1 h
  cases h
  rw [eq_cons_of_head? ht]
  have hstep := (buildUnary_builds he).before (.of rest.tail)
  simpa [Item.fragments_of_operator? hop, hfragments] using hstep

theorem operator?_of_prefixOperator? {before : Option Item} {item : Item} {op : UnaryOp}
    (h : prefixOperator? before item = some op) : item.operator? = some op.operator := by
  obtain ⟨operator, hop, h⟩ := Option.bind_eq_some_iff.1 h
  split at h
  · rw [hop, UnaryOp.operator_of_unary? h]
  · cases h

theorem applyPrefixes_builds {before : Option Item} {items items' : List Item}
    (h : (applyPrefixes s before items).run p = (.ok items', q)) :
    Builds s p q (.of items) (.of items') := by
  induction items generalizing before p q items' with
  | nil =>
    cases h
    exact .refl s _ _
  | cons item rest ih =>
    obtain ⟨rest', p₁, hrest, h⟩ := run_bind_ok.1 h
    refine ((ih hrest).after item.fragments).trans ?_
    split at h
    · rename_i op hop
      split at h
      · cases h
        exact .refl s _ _
      · exact applyUnary_builds (operator?_of_prefixOperator? hop) h
    · cases h
      exact .refl s _ _

theorem applyWaiting_builds {before : Option Item} {item : Item} {isCast : Bool}
    {rest : List Item} {r : List Item × Bool}
    (h : (applyWaiting s before item isCast rest).run p = (.ok r, q)) :
    Builds s p q (.of (item :: rest)) (.of r.1) := by
  unfold applyWaiting at h
  split at h
  · rename_i op hop
    obtain ⟨items, p₁, hitems, h⟩ := run_bind_ok.1 h
    cases h
    exact applyUnary_builds (operator?_of_prefixOperator? hop) hitems
  · cases h
    exact .refl s _ _

theorem applyCastsFrom_builds {before : Option Item} {items : List Item} {r : List Item × Bool}
    (h : (applyCastsFrom s before items).run p = (.ok r, q)) :
    Builds s p q (.of items) (.of r.1) := by
  induction items generalizing before p q r with
  | nil =>
    cases h
    exact .refl s _ _
  | cons item rest ih =>
    obtain ⟨⟨rest', isCast⟩, p₁, hrest, h⟩ := run_bind_ok.1 h
    refine ((ih hrest).after item.fragments).trans ?_
    dsimp only at h
    split at h
    · rename_i t ht
      have hnone : item.fragments = [] := by
        unfold Item.fragments
        rw [ht]
      obtain ⟨operand, p₂, ho, h⟩ := run_bind_ok.1 h
      obtain ⟨rfl, hhead, hfragments⟩ := operand_fragments ho
      obtain ⟨e, p₃, he, h⟩ := run_bind_ok.1 h
      cases h
      rw [eq_cons_of_head? hhead]
      have hstep := (buildCast_builds he).before (.of rest'.tail)
      simpa [hnone, hfragments] using hstep
    · exact applyWaiting_builds h

theorem applyCasts_builds {items items' : List Item}
    (h : (applyCasts s items).run p = (.ok items', q)) : Builds s p q (.of items) (.of items') := by
  obtain ⟨r, p₁, hr, h⟩ := run_bind_ok.1 h
  cases h
  exact applyCastsFrom_builds hr

theorem applyNot_builds {items items' : List Item}
    (h : (applyNot s items).run p = (.ok items', q)) : Builds s p q (.of items) (.of items') := by
  induction items generalizing p q items' with
  | nil =>
    cases h
    exact .refl s _ _
  | cons item rest ih =>
    obtain ⟨rest', p₁, hrest, h⟩ := run_bind_ok.1 h
    refine ((ih hrest).after item.fragments).trans ?_
    split at h
    · rename_i hop
      have hnot : item.operator? = some UnaryOp.not.operator := hop
      exact applyUnary_builds hnot h
    · cases h
      exact .refl s _ _

/-! ### Operators with two operands -/

theorem operator?_of_isOneOf? {ops : List BinaryOp} {item : Item} {op : BinaryOp}
    (h : isOneOf? ops item = some op) : item.operator? = some (.binary op) := by
  unfold isOneOf? at h
  split at h
  · rename_i op' hop
    split at h
    · cases h
      exact hop
    · cases h
  · cases h

theorem applyBinary_builds {op : BinaryOp} {left right : Option Item} {operator item : Item}
    (hop : operator.operator? = some (.binary op))
    (h : (applyBinary s op left operator right).run p = (.ok item, q)) :
    ∃ l r, left = some l ∧ right = some r ∧
      Builds s p q (l.fragments ++ (operator.fragments ++ r.fragments)) item.fragments := by
  obtain ⟨⟨l, le⟩, p₁, hl, h⟩ := run_bind_ok.1 h
  obtain ⟨⟨r, re⟩, p₂, hr, h⟩ := run_bind_ok.1 h
  obtain ⟨e, p₃, he, h⟩ := run_bind_ok.1 h
  cases h
  obtain ⟨rfl, rfl, hlp⟩ := operand_fragments hl
  obtain ⟨rfl, rfl, hrp⟩ := operand_fragments hr
  refine ⟨l, r, rfl, rfl, ?_⟩
  rw [Item.fragments_of_operator? hop, hlp, hrp]
  exact buildBinary_builds he

theorem applyLeftward_builds {ops : List BinaryOp} {done items items' : List Item}
    (h : (applyLeftward s ops done items).run p = (.ok items', q)) :
    Builds s p q (.of (done.reverse ++ items)) (.of items') := by
  induction done, items using applyLeftward.induct ops generalizing p with
  | case1 done =>
    cases h
    simpa using Builds.refl s _ _
  | case2 done item op right rest hop ih =>
    unfold applyLeftward at h
    rw [hop] at h
    obtain ⟨e, p₁, he, h⟩ := run_bind_ok.1 h
    obtain ⟨l, r, hl, ⟨⟩, hb⟩ := applyBinary_builds (operator?_of_isOneOf? hop) he
    have hstep := hb.between (.of done.tail.reverse) (.of rest)
    rw [eq_cons_of_head? hl]
    simpa using hstep.trans (by simpa using ih e h)
  | case3 done item op hop =>
    unfold applyLeftward at h
    rw [hop] at h
    obtain ⟨e, p₁, he, h⟩ := run_bind_ok.1 h
    obtain ⟨_, _, -, ⟨⟩, -⟩ := applyBinary_builds (operator?_of_isOneOf? hop) he
  | case4 done item rest hop ih =>
    unfold applyLeftward at h
    rw [hop] at h
    simpa using ih h

theorem applyRightward_builds {ops : List BinaryOp} {done items items' : List Item}
    (h : (applyRightward s ops done items).run p = (.ok items', q)) :
    Builds s p q (.of (items.reverse ++ done)) (.of items') := by
  induction done, items using applyRightward.induct ops generalizing p with
  | case1 done =>
    cases h
    exact .refl s _ _
  | case2 done item op left rest hop ih =>
    unfold applyRightward at h
    rw [hop] at h
    obtain ⟨e, p₁, he, h⟩ := run_bind_ok.1 h
    obtain ⟨l, r, ⟨⟩, hr, hb⟩ := applyBinary_builds (operator?_of_isOneOf? hop) he
    have hstep := hb.between (.of rest.reverse) (.of done.tail)
    rw [eq_cons_of_head? hr]
    simpa using hstep.trans (by simpa using ih e h)
  | case3 done item op hop =>
    unfold applyRightward at h
    rw [hop] at h
    obtain ⟨e, p₁, he, h⟩ := run_bind_ok.1 h
    obtain ⟨_, _, ⟨⟩, -⟩ := applyBinary_builds (operator?_of_isOneOf? hop) he
  | case4 done item rest hop ih =>
    unfold applyRightward at h
    rw [hop] at h
    simpa using ih h

/-! ### Conditionals and assignments -/

theorem applyTernary_builds {condition : Option Item} {operator : Item} {done items' : List Item}
    (hop : operator.operator? = some .question)
    (h : (applyTernary s condition operator done).run p = (.ok items', q)) :
    ∃ c, condition = some c ∧
      Builds s p q (c.fragments ++ (operator.fragments ++ .of done)) (.of items') := by
  obtain ⟨⟨c, ce⟩, p₁, hc, h⟩ := run_bind_ok.1 h
  obtain ⟨⟨y, ye⟩, p₂, hy, h⟩ := run_bind_ok.1 h
  obtain ⟨⟨n, ne⟩, p₃, hn, h⟩ := run_bind_ok.1 h
  obtain ⟨e, p₄, he, h⟩ := run_bind_ok.1 h
  cases h
  obtain ⟨rfl, rfl, hcp⟩ := operand_fragments hc
  obtain ⟨rfl, hyes, hyp⟩ := operand_fragments hy
  obtain ⟨rfl, hno, hnp⟩ := operand_fragments hn
  obtain ⟨rest, rfl⟩ : ∃ rest, done = y :: n :: rest := by
    match done, hyes, hno with
    | _ :: _ :: rest, rfl, rfl => exact ⟨rest, rfl⟩
  refine ⟨c, rfl, ?_⟩
  have hstep := (buildTernary_builds he).before (.of rest)
  simpa [Item.fragments_of_operator? hop, hcp, hyp, hnp] using hstep

theorem applyTernaries_builds {done items items' : List Item}
    (h : (applyTernaries s done items).run p = (.ok items', q)) :
    Builds s p q (.of (items.reverse ++ done)) (.of items') := by
  induction done, items using applyTernaries.induct generalizing p with
  | case1 done =>
    cases h
    exact .refl s _ _
  | case2 done item hop condition rest ih =>
    unfold applyTernaries at h
    rw [if_pos hop] at h
    obtain ⟨done', p₁, hd, h⟩ := run_bind_ok.1 h
    obtain ⟨c, ⟨⟩, hb⟩ := applyTernary_builds hop hd
    have hstep := hb.after (.of rest.reverse)
    simpa using hstep.trans (by simpa using ih done' h)
  | case3 done item hop =>
    unfold applyTernaries at h
    rw [if_pos hop] at h
    obtain ⟨_, ⟨⟩, -⟩ := applyTernary_builds hop h
  | case4 done item rest hop ih =>
    unfold applyTernaries at h
    rw [if_neg hop] at h
    simpa using ih h

theorem applyAssign_builds {op : AssignOp} {target value : Option Item} {operator item : Item}
    (hop : operator.operator? = some (.assign op))
    (h : (applyAssign s op target operator value).run p = (.ok item, q)) :
    ∃ t v, target = some t ∧ value = some v ∧
      Builds s p q (t.fragments ++ (operator.fragments ++ v.fragments)) item.fragments := by
  obtain ⟨⟨t, te⟩, p₁, ht, h⟩ := run_bind_ok.1 h
  obtain ⟨⟨v, ve⟩, p₂, hv, h⟩ := run_bind_ok.1 h
  obtain ⟨e, p₃, he, h⟩ := run_bind_ok.1 h
  cases h
  obtain ⟨rfl, rfl, htp⟩ := placeOperand_fragments ht
  obtain ⟨rfl, rfl, hvp⟩ := operand_fragments hv
  refine ⟨t, v, rfl, rfl, ?_⟩
  rw [Item.fragments_of_operator? hop, htp, hvp]
  exact buildUpdate_builds he

/-- An item that is no assignment is passed over. -/
theorem applyAssignments_cons {item : Item} {rest : List Item}
    (h : ∀ op, item.operator? ≠ some (.assign op)) (done : List Item) :
    applyAssignments s done (item :: rest) = applyAssignments s (item :: done) rest := by
  obtain ⟨kind, span, line⟩ := item
  cases kind with
  | operator op =>
    cases op with
    | assign op => exact absurd rfl (h op)
    | _ => cases rest <;> rfl
  | _ => cases rest <;> rfl

theorem applyAssignments_builds {done items items' : List Item}
    (h : (applyAssignments s done items).run p = (.ok items', q)) :
    Builds s p q (.of (items.reverse ++ done)) (.of items') := by
  induction done, items using applyAssignments.induct generalizing p with
  | case1 done =>
    cases h
    exact .refl s _ _
  | case2 done item op target rest hop ih =>
    unfold applyAssignments at h
    rw [hop] at h
    obtain ⟨e, p₁, he, h⟩ := run_bind_ok.1 h
    obtain ⟨t, v, ⟨⟩, hv, hb⟩ := applyAssign_builds hop he
    have hstep := hb.between (.of rest.reverse) (.of done.tail)
    rw [eq_cons_of_head? hv]
    simpa using hstep.trans (by simpa using ih e h)
  | case3 done item op hop =>
    unfold applyAssignments at h
    rw [hop] at h
    obtain ⟨e, p₁, he, h⟩ := run_bind_ok.1 h
    obtain ⟨_, _, ⟨⟩, -⟩ := applyAssign_builds hop he
  | case4 done item rest h₁ h₂ ih =>
    rw [applyAssignments_cons] at h
    · simpa using ih h
    · intro op hop
      cases rest with
      | nil => exact h₂ op hop rfl
      | cons target rest => exact h₁ op target rest hop rfl

/-! ### All passes -/

/-- What remains is a value, or nothing. -/
theorem remaining_builds {items : List Item} {root : Option Expr}
    (h : (remaining s items).run p = (.ok root, q)) :
    Builds s p q (.of items) (root.toList.map .part) := by
  cases root with
  | some e =>
    obtain ⟨rfl, item, rfl, hk⟩ := remaining_ok.1 h
    simpa [Item.fragments_of_value hk] using Builds.refl s p [.part e]
  | none =>
    unfold remaining at h
    split at h
    · cases h
    · split at h
      · cases h
        exact .refl s _ _
      · split at h <;> cases h
      · cases h

theorem applyPasses_builds {items items' : List Item}
    (h : (applyPasses s items).run p = (.ok items', q)) :
    Builds s p q (.of items) (.of items') := by
  have forth {ops : List BinaryOp} {p q : ParseState} {items items' : List Item}
      (h : (applyLeftward s ops [] items).run p = (.ok items', q)) :
      Builds s p q (.of items) (.of items') := applyLeftward_builds h
  have back {p q : ParseState} {items items' : List Item}
      (h : Builds s p q (.of (items.reverse.reverse ++ [])) (.of items')) :
      Builds s p q (.of items) (.of items') := by simpa using h
  obtain ⟨_, _, h₁, h⟩ := run_bind_ok.1 h
  refine (applyIndexes_builds h₁).trans ?_
  obtain ⟨_, _, h₁, h⟩ := run_bind_ok.1 h
  refine (applyStepsAfter_builds h₁).trans ?_
  obtain ⟨_, _, h₁, h⟩ := run_bind_ok.1 h
  refine (applyStepsBefore_builds h₁).trans ?_
  obtain ⟨_, _, h₁, h⟩ := run_bind_ok.1 h
  refine (applyPrefixes_builds h₁).trans ?_
  obtain ⟨_, _, h₁, h⟩ := run_bind_ok.1 h
  refine (applyCasts_builds h₁).trans ?_
  obtain ⟨_, _, h₁, h⟩ := run_bind_ok.1 h
  refine (back (applyRightward_builds h₁)).trans ?_
  obtain ⟨_, _, h₁, h⟩ := run_bind_ok.1 h
  refine (forth h₁).trans ?_
  obtain ⟨_, _, h₁, h⟩ := run_bind_ok.1 h
  refine (forth h₁).trans ?_
  obtain ⟨_, _, h₁, h⟩ := run_bind_ok.1 h
  refine (forth h₁).trans ?_
  obtain ⟨_, _, h₁, h⟩ := run_bind_ok.1 h
  refine (applyNot_builds h₁).trans ?_
  obtain ⟨_, _, h₁, h⟩ := run_bind_ok.1 h
  refine (forth h₁).trans ?_
  obtain ⟨_, _, h₁, h⟩ := run_bind_ok.1 h
  refine (forth h₁).trans ?_
  obtain ⟨_, _, h₁, h⟩ := run_bind_ok.1 h
  refine (forth h₁).trans ?_
  obtain ⟨_, _, h₁, h⟩ := run_bind_ok.1 h
  refine (forth h₁).trans ?_
  obtain ⟨_, _, h₁, h⟩ := run_bind_ok.1 h
  refine (back (applyTernaries_builds h₁)).trans ?_
  exact back (applyAssignments_builds h)

/-- **Nothing in hand is lost, used twice or moved when all operators are applied.** -/
theorem applyOperators_builds {items : List Item} {root : Option Expr}
    (h : (applyOperators s items).run p = (.ok root, q)) :
    Builds s p q (.of items) (root.toList.map .part) := by
  obtain ⟨done, p₁, hd, h⟩ := run_bind_ok.1 h
  exact (applyPasses_builds hd).trans (remaining_builds h)

end TypedExpr.Parser
