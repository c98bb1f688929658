import TypedExpr.Proofs.Parse.Front
/-!
# A binary operator between two values

Of the passes over a value, a binary operator and a value only that of the operator does anything.

* `Parser.applyPasses_pair`: what the passes come to.
-/

namespace TypedExpr.Parser

variable (s : Setting) (ops : List BinaryOp) (done rest : List Item)

section Steps

variable (e : Expr) (span : Span) (line : Nat)

theorem applyLeftward_value :
    applyLeftward s ops done (⟨.value e, span, line⟩ :: rest) =
      applyLeftward s ops (⟨.value e, span, line⟩ :: done) rest := by
  cases rest <;> rfl

theorem applyRightward_value :
    applyRightward s ops done (⟨.value e, span, line⟩ :: rest) =
      applyRightward s ops (⟨.value e, span, line⟩ :: done) rest := by
  cases rest <;> rfl

theorem applyAssignments_value :
    applyAssignments s done (⟨.value e, span, line⟩ :: rest) =
      applyAssignments s (⟨.value e, span, line⟩ :: done) rest := by
  cases rest <;> rfl

variable {ops} {op : BinaryOp}

theorem applyLeftward_other (h : op ∉ ops) :
    applyLeftward s ops done (⟨.operator (.binary op), span, line⟩ :: rest) =
      applyLeftward s ops (⟨.operator (.binary op), span, line⟩ :: done) rest := by
  cases rest <;> simp [applyLeftward, isOneOf?, Item.operator?, h]

theorem applyRightward_other (h : op ∉ ops) :
    applyRightward s ops done (⟨.operator (.binary op), span, line⟩ :: rest) =
      applyRightward s ops (⟨.operator (.binary op), span, line⟩ :: done) rest := by
  cases rest <;> simp [applyRightward, isOneOf?, Item.operator?, h]

theorem applyLeftward_this (h : op ∈ ops) (right : Item) :
    applyLeftward s ops done (⟨.operator (.binary op), span, line⟩ :: right :: rest) = (do
      let e ← applyBinary s op done.head? ⟨.operator (.binary op), span, line⟩ (some right)
      applyLeftward s ops (e :: done.tail) rest) := by
  rw [applyLeftward]
  simp [isOneOf?, Item.operator?, h]

theorem applyRightward_this (h : op ∈ ops) (left : Item) :
    applyRightward s ops done (⟨.operator (.binary op), span, line⟩ :: left :: rest) = (do
      let e ← applyBinary s op (some left) ⟨.operator (.binary op), span, line⟩ done.head?
      applyRightward s ops (e :: done.tail) rest) := by
  rw [applyRightward]
  simp [isOneOf?, Item.operator?, h]

end Steps

theorem applyPasses_pair (op : BinaryOp) (l r : Expr) (ls os rs : Span) (ll ol rl : Nat) :
    applyPasses s [⟨.value l, ls, ll⟩, ⟨.operator (.binary op), os, ol⟩, ⟨.value r, rs, rl⟩] =
      (do return [← applyBinary s op (some ⟨.value l, ls, ll⟩) ⟨.operator (.binary op), os, ol⟩
        (some ⟨.value r, rs, rl⟩)]) := by
  cases op <;>
    simp [applyPasses, applyIndexes, applyStepsAfter, applyStepsBefore, applyPrefixes, applyCasts,
      applyCastsFrom, applyWaiting, applyNot, applyTernaries, applyAssignments.eq_1, applyBinary,
      applyAssignments_value,
      applyLeftward_value, applyLeftward_other, applyLeftward_this, applyLeftward.eq_1,
      applyRightward_value, applyRightward_other, applyRightward_this, applyRightward.eq_1,
      prefixOperator?, isPrefixPosition, Operator.startsOperand, Item.operator?, Item.endsOperand,
      Item.withValue]

/-- Between two values a binary operator is applied to them. -/
theorem applyPasses_pair_ok {s : Setting} {p q : ParseState} {op : BinaryOp} {l r e : Expr}
    {ls os rs span : Span} {ll ol rl line : Nat} (hl : l.type ≠ .void) :
    (applyPasses s [⟨.value l, ls, ll⟩, ⟨.operator (.binary op), os, ol⟩, ⟨.value r, rs, rl⟩]).run p =
        (.ok [⟨.value e, span, line⟩], q) ↔
      r.type ≠ .void ∧ span = ls.merge rs ∧ line = ll ∧
        (buildBinary s op l r ⟨.operator (.binary op), os, ol⟩ span).run p = (.ok e, q) := by
  rw [applyPasses_pair, run_bind_ok]
  constructor
  · rintro ⟨item, p', h, hi⟩
    cases hi
    obtain ⟨hr, e', he, hitem⟩ := (applyBinary_ok hl).1 h
    cases hitem
    exact ⟨hr, rfl, rfl, he⟩
  · rintro ⟨hr, rfl, rfl, he⟩
    exact ⟨_, q, (applyBinary_ok hl).2 ⟨hr, e, he, rfl⟩, rfl⟩

end TypedExpr.Parser
