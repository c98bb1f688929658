import TypedExpr.Proofs.Parse.Built
/-!
# Items in front of an assignment

Nothing binds looser than an assignment. So the passes treat what stands behind a target and an
assignment as they would if it stood alone, up to the last pass, which applies the assignment to
the one value that is then behind it.

* `Parser.Lifts`: a parser succeeds just when another does, with a result that depends on the
  other's.
* `Front.applyOperators_before`: **the value of an assignment is all that stands behind it.**
-/

namespace TypedExpr.Parser

variable {α β γ δ : Type}

/-- The second parser succeeds just when the first does, and then its result is the image of the
first one's; what either does to the state is the same. -/
def Lifts (f : α → β) (x : Parser α) (y : Parser β) : Prop :=
  ∀ p b q, y.run p = (.ok b, q) ↔ ∃ a, x.run p = (.ok a, q) ∧ f a = b

namespace Lifts

theorem pure {f : α → β} (a : α) : Lifts f (pure a) (pure (f a)) := by
  intro p b q
  constructor
  · intro h
    cases h
    exact ⟨a, rfl, rfl⟩
  · rintro ⟨a', h, rfl⟩
    cases h
    rfl

theorem of_fails {f : α → β} {x : Parser α} {y : Parser β}
    (hx : ∀ p a q, x.run p ≠ (.ok a, q)) (hy : ∀ p b q, y.run p ≠ (.ok b, q)) : Lifts f x y := by
  intro p b q
  constructor
  · intro h
    exact absurd h (hy p b q)
  · rintro ⟨a, h, -⟩
    exact absurd h (hx p a q)

theorem bind {f : α → β} {g : γ → δ} {x : Parser α} {y : Parser β} {h : α → Parser γ}
    {k : β → Parser δ} (hx : Lifts f x y) (hk : ∀ a, Lifts g (h a) (k (f a))) :
    Lifts g (x >>= h) (y >>= k) := by
  intro p d r
  rw [run_bind_ok]
  constructor
  · rintro ⟨b, q, hb, hd⟩
    obtain ⟨a, ha, rfl⟩ := (hx p b q).1 hb
    obtain ⟨c, hc, hcd⟩ := (hk a q d r).1 hd
    exact ⟨c, run_bind_ok.2 ⟨a, q, ha, hc⟩, hcd⟩
  · rintro ⟨c, hc, hcd⟩
    obtain ⟨a, q, ha, hc⟩ := run_bind_ok.1 hc
    exact ⟨f a, q, (hx p (f a) q).2 ⟨a, ha, rfl⟩, (hk a q d r).2 ⟨c, hc, hcd⟩⟩

theorem map (f : α → β) (x : Parser α) : Lifts f x (do return f (← x)) := by
  intro p b q
  rw [run_bind_ok]
  constructor
  · rintro ⟨a, p', ha, hb⟩
    cases hb
    exact ⟨a, ha, rfl⟩
  · rintro ⟨a, ha, rfl⟩
    exact ⟨a, q, ha, rfl⟩

theorem refl (x : Parser α) : Lifts id x x := by
  intro p b q
  simp

theorem ite {f : α → β} {c : Prop} [Decidable c] {x x' : Parser α} {y y' : Parser β}
    (hx : Lifts f x y) (hx' : Lifts f x' y') :
    Lifts f (if c then x else x') (if c then y else y') := by
  split
  · exact hx
  · exact hx'

/-- The same step first on both sides. -/
theorem after {g : γ → δ} (x : Parser α) {h : α → Parser γ} {k : α → Parser δ}
    (hk : ∀ a, Lifts g (h a) (k a)) : Lifts g (x >>= h) (x >>= k) :=
  (refl x).bind hk

end Lifts

/-- An expression remains just when it is the only item. -/
theorem remaining_ok {s : Setting} {items : List Item} {p q : ParseState} {e : Expr} :
    (remaining s items).run p = (.ok (some e), q) ↔
      p = q ∧ ∃ item, items = [item] ∧ item.kind = .value e := by
  constructor
  · intro h
    unfold remaining at h
    split at h
    · cases h
    · split at h
      · cases h
      · rename_i item _
        split at h
        · rename_i e' hk
          cases h
          exact ⟨rfl, item, rfl, hk⟩
        · cases h
      · cases h
  · rintro ⟨rfl, item, rfl, hk⟩
    obtain ⟨kind, span, line⟩ := item
    cases hk
    rfl

/-- All operators are applied when one value is left by the passes. -/
theorem applyOperators_ok {s : Setting} {items : List Item} {p q : ParseState} {e : Expr} :
    (applyOperators s items).run p = (.ok (some e), q) ↔
      ∃ item, (applyPasses s items).run p = (.ok [item], q) ∧ item.kind = .value e := by
  unfold applyOperators
  rw [run_bind_ok]
  constructor
  · rintro ⟨done, p', h, hr⟩
    obtain ⟨rfl, item, rfl, hi⟩ := remaining_ok.1 hr
    exact ⟨item, h, hi⟩
  · rintro ⟨item, h, hi⟩
    exact ⟨[item], q, h, remaining_ok.2 ⟨rfl, item, rfl, hi⟩⟩

/-- A target that is a value and an assignment behind it. -/
structure Front where
  target : Expr
  op : AssignOp
  targetSpan : Span
  opSpan : Span
  targetLine : Nat
  opLine : Nat

namespace Front

variable (f : Front)

/-- The target. -/
def left : Item := ⟨.value f.target, f.targetSpan, f.targetLine⟩

/-- The assignment. -/
def assign : Item := ⟨.operator (.assign f.op), f.opSpan, f.opLine⟩

/-- The items with the target and the assignment in front of them. -/
def before (items : List Item) : List Item := f.left :: f.assign :: items

/-- The same, latest first. -/
def below (items : List Item) : List Item := items ++ [f.assign, f.left]

theorem reverse_below (items : List Item) : (f.below items).reverse = f.before items.reverse := by
  simp [below, before]

theorem reverse_before (items : List Item) : (f.before items).reverse = f.below items.reverse := by
  simp [below, before]

variable (s : Setting)

/-! ### Passes forward -/

theorem applyIndexes (done items : List Item) :
    Lifts f.before (applyIndexes s done items) (applyIndexes s (f.below done) items) := by
  induction items generalizing done with
  | nil =>
    unfold Parser.applyIndexes
    rw [reverse_below]
    exact .pure _
  | cons item rest ih =>
    have skip := ih (item :: done)
    obtain ⟨kind, span, line⟩ := item
    cases kind with
    | index i =>
      cases done with
      | nil => exact .of_fails (fun _ _ _ h => by cases h) fun _ _ _ h => by cases h
      | cons container done => exact .after _ fun element => ih (element :: done)
    | _ => exact skip

theorem applyStepsAfter (done items : List Item) :
    Lifts f.before (applyStepsAfter s done items) (applyStepsAfter s (f.below done) items) := by
  induction items generalizing done with
  | nil =>
    unfold Parser.applyStepsAfter
    rw [reverse_below]
    exact .pure _
  | cons item rest ih =>
    have skip := ih (item :: done)
    obtain ⟨kind, span, line⟩ := item
    cases kind with
    | operator op =>
      cases op with
      | step op =>
        cases done with
        | nil => exact skip
        | cons target done =>
          refine .ite (.after _ fun a => .after _ fun e => ?_) skip
          exact ih (target.withValue e (target.span.merge span) :: done)
      | _ => exact skip
    | _ => exact skip

theorem applyLeftward (ops : List BinaryOp) (done items : List Item) :
    Lifts f.before (applyLeftward s ops done items) (applyLeftward s ops (f.below done) items) := by
  induction done, items using applyLeftward.induct ops with
  | case1 done =>
    unfold Parser.applyLeftward
    rw [reverse_below]
    exact .pure _
  | case2 done item op right rest hop ih =>
    unfold Parser.applyLeftward
    rw [hop]
    cases done with
    | nil => exact .of_fails (fun _ _ _ h => by cases h) fun _ _ _ h => by cases h
    | cons left done => exact .after _ ih
  | case3 done item op hop =>
    unfold Parser.applyLeftward
    rw [hop]
    cases done with
    | nil => exact .of_fails (fun _ _ _ h => by cases h) fun _ _ _ h => by cases h
    | cons left done =>
      refine .after _ fun e => ?_
      show Lifts f.before (Pure.pure (e :: done).reverse) (Pure.pure (f.below (e :: done)).reverse)
      rw [reverse_below]
      exact .pure _
  | case4 done item rest hop ih =>
    unfold Parser.applyLeftward
    rw [hop]
    exact ih

/-! ### Passes that look at the item before -/

theorem applyStepsBefore_assign (items : List Item) :
    applyStepsBefore s (some f.assign) items = applyStepsBefore s none items := by
  have step (op : StepOp) (item : Item) (rest : List Item) :
      applyStepBefore s op (some f.assign) item rest = applyStepBefore s op none item rest := by
    unfold applyStepBefore
    cases rest.head?.filter (·.value?.isSome) <;> rfl
  cases items with
  | nil => rfl
  | cons item rest =>
    unfold Parser.applyStepsBefore
    simp only [step]

theorem applyStepsBefore (items : List Item) :
    Lifts f.before (applyStepsBefore s none items) (applyStepsBefore s none (f.before items)) := by
  have h : Parser.applyStepsBefore s none (f.before items) =
      (do return f.before (← Parser.applyStepsBefore s (some f.assign) items)) := by
    simp [before, Parser.applyStepsBefore, left, assign, Item.operator?]
  rw [h, applyStepsBefore_assign]
  exact .map _ _

theorem applyPrefixes_assign (items : List Item) :
    applyPrefixes s (some f.assign) items = applyPrefixes s none items := by
  cases items <;> rfl

theorem applyPrefixes (items : List Item) :
    Lifts f.before (applyPrefixes s none items) (applyPrefixes s none (f.before items)) := by
  have h : Parser.applyPrefixes s none (f.before items) =
      (do return f.before (← Parser.applyPrefixes s (some f.assign) items)) := by
    simp [before, Parser.applyPrefixes, left, assign, Item.operator?, prefixOperator?,
      Operator.startsOperand]
  rw [h, applyPrefixes_assign]
  exact .map _ _

theorem applyCastsFrom_assign (items : List Item) :
    applyCastsFrom s (some f.assign) items = applyCastsFrom s none items := by
  cases items <;> rfl

theorem applyWaiting_eq {before : Option Item} {item : Item}
    (h : prefixOperator? before item = none) (isCast : Bool) (rest : List Item) :
    applyWaiting s before item isCast rest = Pure.pure (item :: rest, false) := by
  unfold applyWaiting
  rw [h]
  cases isCast <;> rfl

theorem applyCastsFrom_cons {before : Option Item} {item : Item} (rest : List Item)
    (hc : ∀ t, item.kind ≠ .cast t) (hp : prefixOperator? before item = none) :
    applyCastsFrom s before (item :: rest) =
      (do return (item :: (← applyCastsFrom s (some item) rest).1, false)) := by
  rw [applyCastsFrom]
  refine congrArg _ (funext fun x => ?_)
  obtain ⟨rest, isCast⟩ := x
  have hw := applyWaiting_eq s hp isCast rest
  obtain ⟨kind, span, line⟩ := item
  cases kind with
  | cast t => exact absurd rfl (hc t)
  | _ => exact hw

theorem applyCasts (items : List Item) :
    Lifts f.before (applyCasts s items) (applyCasts s (f.before items)) := by
  have h : Parser.applyCasts s (f.before items) =
      (do return f.before (← Parser.applyCasts s items)) := by
    unfold Parser.applyCasts before
    rw [applyCastsFrom_cons s _ (fun _ h => by cases h) rfl,
      applyCastsFrom_cons s _ (fun _ h => by cases h) rfl, applyCastsFrom_assign]
    simp
  rw [h]
  exact .map _ _

theorem applyNot (items : List Item) :
    Lifts f.before (applyNot s items) (applyNot s (f.before items)) := by
  have h : Parser.applyNot s (f.before items) =
      (do return f.before (← Parser.applyNot s items)) := by
    simp [before, Parser.applyNot, left, assign, Item.operator?]
  rw [h]
  exact .map _ _

/-! ### Passes backward -/

theorem applyRightward (ops : List BinaryOp) (done items : List Item) :
    Lifts f.before (applyRightward s ops done items) (applyRightward s ops done (f.below items)) := by
  induction done, items using applyRightward.induct ops with
  | case1 done => exact .pure _
  | case2 done item op left rest hop ih =>
    have h := hop
    unfold below
    rw [List.cons_append, List.cons_append]
    unfold Parser.applyRightward
    rw [hop]
    exact .after _ ih
  | case3 done item op hop =>
    unfold below
    rw [List.cons_append]
    unfold Parser.applyRightward
    rw [hop]
    exact .of_fails (fun _ _ _ h => by cases h) fun _ _ _ h => by cases h
  | case4 done item rest hop ih =>
    unfold below
    rw [List.cons_append]
    unfold Parser.applyRightward
    rw [hop]
    exact ih

theorem applyTernaries (done items : List Item) :
    Lifts f.before (applyTernaries s done items) (applyTernaries s done (f.below items)) := by
  induction done, items using applyTernaries.induct with
  | case1 done => exact .pure _
  | case2 done item hop condition rest ih =>
    unfold below
    rw [List.cons_append, List.cons_append]
    unfold Parser.applyTernaries
    rw [if_pos hop, if_pos hop]
    exact .after _ ih
  | case3 done item hop =>
    unfold below
    rw [List.cons_append]
    unfold Parser.applyTernaries
    rw [if_pos hop, if_pos hop]
    exact .of_fails (fun _ _ _ h => by cases h) fun _ _ _ h => by cases h
  | case4 done item rest hop ih =>
    unfold below
    rw [List.cons_append]
    unfold Parser.applyTernaries
    rw [if_neg hop, if_neg hop]
    exact ih

/-- The assignment is the last that is applied, to the first value behind it. -/
def applied (done : List Item) : Parser (List Item) := do
  let e ← applyAssign s f.op (some f.left) f.assign done.head?
  return e :: done.tail

theorem applyAssignments (done items : List Item) :
    Lifts id (do f.applied s (← applyAssignments s done items))
      (applyAssignments s done (f.below items)) := by
  induction done, items using applyAssignments.induct with
  | case1 done => exact .refl _
  | case2 done item op target rest hop ih =>
    unfold below
    rw [List.cons_append, List.cons_append]
    unfold Parser.applyAssignments
    rw [hop]
    dsimp only
    rw [bind_assoc]
    exact .after _ ih
  | case3 done item op hop =>
    unfold below
    rw [List.cons_append]
    unfold Parser.applyAssignments
    rw [hop]
    exact .of_fails (fun _ _ _ h => by cases h) fun _ _ _ h => by cases h
  | case4 done item rest h1 h2 ih =>
    unfold below
    rw [List.cons_append]
    obtain ⟨kind, span, line⟩ := item
    cases kind with
    | operator op =>
      cases op with
      | assign op =>
        cases rest with
        | nil => exact (h2 op rfl rfl).elim
        | cons target rest => exact (h1 op target rest rfl rfl).elim
      | _ => exact ih
    | _ => exact ih

/-! ### All passes -/

theorem applyPasses (items : List Item) :
    Lifts id (do f.applied s (← applyPasses s items)) (applyPasses s (f.before items)) := by
  unfold Parser.applyPasses
  simp only [bind_assoc]
  refine (f.applyIndexes s [] items).bind fun items => ?_
  refine (f.applyStepsAfter s [] items).bind fun items => ?_
  refine (f.applyStepsBefore s items).bind fun items => ?_
  refine (f.applyPrefixes s items).bind fun items => ?_
  refine (f.applyCasts s items).bind fun items => ?_
  rw [reverse_before]
  refine (f.applyRightward s [.pow] [] items.reverse).bind fun items => ?_
  refine (f.applyLeftward s [.mul, .div, .mod] [] items).bind fun items => ?_
  refine (f.applyLeftward s [.add, .sub] [] items).bind fun items => ?_
  refine (f.applyLeftward s [.shl, .shr] [] items).bind fun items => ?_
  refine (f.applyNot s items).bind fun items => ?_
  refine (f.applyLeftward s [.lt, .gt, .le, .ge] [] items).bind fun items => ?_
  refine (f.applyLeftward s [.eq, .ne] [] items).bind fun items => ?_
  refine (f.applyLeftward s [.bitAnd, .bitOr, .bitXor] [] items).bind fun items => ?_
  refine (f.applyLeftward s [.and, .or] [] items).bind fun items => ?_
  rw [reverse_before]
  refine (f.applyTernaries s [] items.reverse).bind fun items => ?_
  rw [reverse_before]
  exact f.applyAssignments s [] items.reverse

variable {s}

variable {p q : ParseState}

theorem applyAssign_ok {value : Item} {e : Expr} :
    (∃ item, (applyAssign s f.op (some f.left) f.assign (some value)).run p = (.ok item, q) ∧
        item.kind = .value e) ↔
      f.target.isModifiable = true ∧ ∃ v, value.kind = .value v ∧ v.type ≠ .void ∧
        (buildUpdate s f.op f.target v f.assign (f.targetSpan.merge value.span)).run p =
          (.ok e, q) := by
  constructor
  · rintro ⟨item, h, hitem⟩
    obtain ⟨t, p₁, h₁, h⟩ := run_bind_ok.1 h
    obtain ⟨v, p₂, h₂, h⟩ := run_bind_ok.1 h
    obtain ⟨h₁, ht⟩ := placeOperand_ok.1 h₁
    obtain ⟨rfl, _, _, hi, hk, -, rfl⟩ := operand_ok.1 h₁
    obtain ⟨rfl, _, v, hi', hv, hne, rfl⟩ := operand_ok.1 h₂
    cases hi
    cases hi'
    cases hk
    obtain ⟨e', p₃, he, h⟩ := run_bind_ok.1 h
    cases h
    cases hitem
    exact ⟨ht, v, hv, hne, he⟩
  · rintro ⟨ht, v, hv, hne, he⟩
    refine ⟨f.left.withValue e (f.targetSpan.merge value.span), ?_, rfl⟩
    have hvoid : f.target.type ≠ .void := by
      intro h
      simp [Expr.isModifiable, Expr.isGettable, h] at ht
    have h₁ : (placeOperand s (some f.left) f.assign "left").run p =
        (.ok (f.left, f.target), p) :=
      placeOperand_ok.2 ⟨operand_ok.2 ⟨rfl, _, _, rfl, rfl, hvoid, rfl⟩, ht⟩
    have h₂ : (operand s (some value) f.assign "right").run p = (.ok (value, v), p) :=
      operand_ok.2 ⟨rfl, _, _, rfl, hv, hne, rfl⟩
    refine run_bind_ok.2 ⟨_, p, h₁, run_bind_ok.2 ⟨_, p, h₂, ?_⟩⟩
    exact run_bind_ok.2 ⟨e, q, he, rfl⟩

/-- **The value of an assignment is all that stands behind it.** -/
theorem applyOperators_before {items : List Item} {e : Expr} :
    (applyOperators s (f.before items)).run p = (.ok (some e), q) ↔
      f.target.isModifiable = true ∧ ∃ v span line p',
        (Parser.applyPasses s items).run p = (.ok [⟨.value v, span, line⟩], p') ∧
        v.type ≠ .void ∧
        (buildUpdate s f.op f.target v f.assign (f.targetSpan.merge span)).run p' = (.ok e, q) := by
  rw [applyOperators_ok]
  constructor
  · rintro ⟨item, hpasses, hitem⟩
    obtain ⟨_, hpasses, rfl⟩ := (f.applyPasses s items p _ q).1 hpasses
    obtain ⟨done, p', hdone, hpasses⟩ := run_bind_ok.1 hpasses
    obtain ⟨item', q', hassign, hpure⟩ := run_bind_ok.1 hpasses
    cases done with
    | nil =>
      obtain ⟨t, _, _, hassign⟩ := run_bind_ok.1 hassign
      obtain ⟨v, _, hv, _⟩ := run_bind_ok.1 hassign
      cases hv
    | cons value done =>
      cases done with
      | nil =>
        cases hpure
        obtain ⟨ht, v, hk, hv, he⟩ := f.applyAssign_ok.1 ⟨item, hassign, hitem⟩
        obtain ⟨_, span, line⟩ := value
        cases hk
        exact ⟨ht, v, span, line, p', hdone, hv, he⟩
      | cons _ _ => cases hpure
  · rintro ⟨ht, v, span, line, p', hdone, hv, he⟩
    have hvalue : (Item.mk (.value v) span line).kind = .value v := rfl
    obtain ⟨item, hassign, hitem⟩ := f.applyAssign_ok.2 ⟨ht, v, hvalue, hv, he⟩
    refine ⟨item, (f.applyPasses s items p _ q).2 ⟨[item], ?_, rfl⟩, hitem⟩
    have happlied : (f.applied s [⟨.value v, span, line⟩]).run p' = (.ok [item], q) :=
      run_bind_ok.2 ⟨item, q, hassign, rfl⟩
    exact run_bind_ok.2 ⟨_, p', hdone, happlied⟩

end Front

end TypedExpr.Parser
