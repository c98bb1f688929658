import TypedExpr.Proofs.Fragments.Passes
import TypedExpr.Proofs.Lines.Items
import TypedExpr.Proofs.Parse.Pair
/-!
# Passes over items in order

Each pass leaves the items in the order of their tokens, with what it builds in the place of the
first item that it takes. An operand that is missing or does not fit is reported where it is, or
where its operator is.

* `Parser.Leads.applyIndexes`, …, `Parser.Leads.applyAssignments`: one statement for each pass.
* `Parser.Leads.applyOperators`: all passes together.
-/

namespace TypedExpr.Parser.Leads

variable {s : Setting} {p : ParseState} {choice : Bool} {t u v : Token} {item operator : Item}
  {done items rest : List Item}

/-! ### Operands -/

theorem notAValue (hi : item.At s.tokens t) {α : Type} {Q : α → ParseState → Prop} :
    Leads s p Q (notAValue s item) := .refuse rfl (hi.points _ _)

/-- The operand of an operator: the item, and the value that it is. -/
def IsOperand (item : Option Item) (r : Item × Expr) : Prop :=
  item = some r.1 ∧ r.1.kind = .value r.2 ∧ r.2.type ≠ .void

theorem operand (ho : operator.At s.tokens u) {item : Option Item}
    (hi : ∀ i ∈ item, ∃ t, i.At s.tokens t) (side : String) (p : ParseState) :
    Leads s p (fun r _ => IsOperand item r) (operand s item operator side) := by
  cases item with
  | none => exact .refuse rfl (ho.points _ _)
  | some i =>
    obtain ⟨t, ht⟩ := hi i rfl
    unfold Parser.operand
    dsimp only
    split
    · rename_i e hk
      refine .ite (fun _ => .refuse rfl (ht.points _ _)) fun hv => .pure ⟨rfl, hk, hv⟩
    · exact notAValue ht
    · exact .refuse rfl (ht.points _ _)

/-- A branch of a conditional is an operand. -/
theorem operand_branch {e : Expr} {span : Span} {line : Nat} (hv : e.type ≠ .void) (operator : Item)
    (side : String) (p : ParseState) :
    Leads s p (fun r _ => r.2 = e ∧ r.1.span = span)
      (Parser.operand s (some ⟨.value e, span, line⟩) operator side) := by
  unfold Parser.operand
  dsimp only
  rw [if_neg hv]
  exact .pure ⟨rfl, rfl⟩

theorem placeOperand (ho : operator.At s.tokens u) {item : Option Item}
    (hi : ∀ i ∈ item, ∃ t, i.At s.tokens t) (side : String) (p : ParseState) :
    Leads s p (fun r _ => IsOperand item r) (placeOperand s item operator side) := by
  refine (operand ho hi side p).bind ?_
  rintro ⟨i, e⟩ q _ hr
  refine .ite (fun _ => .pure hr) fun _ => ?_
  obtain ⟨t, ht⟩ := hi i hr.1
  exact .refuse rfl (ht.points _ _)

/-! ### Operators with one operand -/

theorem applyIndexes (hd : Behind s.tokens t u done) (h : Aligned s.tokens choice u items)
    (p : ParseState) :
    Leads s p (fun items' _ => Aligned s.tokens choice t items') (applyIndexes s done items) := by
  induction h generalizing done p with
  | nil => exact .pure hd.reverse
  | @cons _ u v item rest hi hle hr ih =>
    have skip := ih (.cons hi hle hd)
    obtain ⟨kind, span, line⟩ := item
    cases kind with
    | index i =>
      cases hd with
      | nil => exact .refuse rfl (hi.placed.points _ _)
      | cons hc hcu hd =>
        refine (buildIndex hc.placed hi.placed rfl hcu p).bind fun element q _ he => ?_
        exact ih (.cons he (Nat.le_trans hcu hle) hd) q
    | _ => exact skip p
  | choice hq hy hn => exact .pure (by simpa using hd.append (.choice hq hy hn))

theorem applyStepsAfter (hd : Behind s.tokens t u done) (h : Aligned s.tokens choice u items)
    (p : ParseState) :
    Leads s p (fun items' _ => Aligned s.tokens choice t items')
      (applyStepsAfter s done items) := by
  induction h generalizing done p with
  | nil => exact .pure hd.reverse
  | @cons _ u v item rest hi hle hr ih =>
    have skip := ih (.cons hi hle hd)
    unfold Parser.applyStepsAfter
    dsimp only
    split
    · rename_i op target below _
      refine .ite (fun _ => ?_) fun _ => skip p
      cases hd with
      | cons ht htu hd =>
        have htarget : ∀ i ∈ some target, ∃ t, i.At s.tokens t := fun i hi =>
          ⟨_, ht.placed.some i hi⟩
        refine (operand hi.placed htarget "left" p).bind fun r p₁ _ _ => ?_
        refine (buildStep hi.placed op true r.2 _ p₁).bind fun e p₂ _ he => ?_
        have hmerged := ht.placed.merged he (Nat.le_trans htu (Nat.le_of_eq hi.placed.start.symm))
        exact ih (.cons hmerged (Nat.le_trans htu hle) hd) p₂
    · exact skip p
  | choice hq hy hn => exact .pure (by simpa using hd.append (.choice hq hy hn))

/-- What is built from an operator and the operand after it. -/
theorem withValue_aligned (ho : operator.At s.tokens t) (hle : t.span.start ≤ u.span.start)
    (h : Aligned s.tokens choice u rest) {r : Item × Expr} (hr : IsOperand rest.head? r) {e : Expr}
    (he : e.span = operator.span.merge r.1.span) :
    Aligned s.tokens choice t
      (operator.withValue e (operator.span.merge r.1.span) :: rest.tail) := by
  have hbehind := Nat.le_trans hle (Nat.le_of_eq (h.at_of_head r.1 hr.1).start.symm)
  exact h.replaceHead hr.1 hr.2.1 (ho.merged he hbehind) hle

theorem applyUnary (ho : operator.At s.tokens t) (hle : t.span.start ≤ u.span.start)
    (h : Aligned s.tokens choice u rest) (op : UnaryOp) (p : ParseState) :
    Leads s p (fun items _ => Aligned s.tokens choice t items)
      (applyUnary s op operator rest) := by
  refine (operand ho (fun i hi => ⟨u, h.at_of_head i hi⟩) "right" p).bind fun r p₁ _ hr => ?_
  refine (buildUnary ho op hr.2.2 _ p₁).bind fun e p₂ _ he => ?_
  exact .pure (withValue_aligned ho hle h hr he)

/-- An operand before the step that cannot be changed is reported on the line of the step. -/
theorem checkStep {op : StepOp} (ho : operator.At s.tokens t)
    (hk : operator.kind = .operator (.step op)) {before : Option Item}
    (hb : ∀ i ∈ before, ∃ u, i.At s.tokens u) (next : Option Item) (p : ParseState) :
    Leads s p (fun _ _ => True) (checkStep op before next operator.line) := by
  unfold Parser.checkStep
  split
  · rename_i left
    obtain ⟨u, hu⟩ := hb left rfl
    have hstarts : s.tokens.StartsAt left.span.start := ⟨u, hu.mem, hu.start.symm⟩
    refine .ite (fun _ => ?_) fun _ => .pure trivial
    exact .refuse rfl (hstarts.points ho.mem ho.line (ho.operator hk) (.notModifiable op))
  · exact .pure trivial

theorem applyStepBefore {op : StepOp} (ho : operator.At s.tokens t)
    (hk : operator.kind = .operator (.step op)) (hle : t.span.start ≤ u.span.start)
    (h : Aligned s.tokens choice u rest) {before : Option Item}
    (hb : ∀ i ∈ before, ∃ u, i.At s.tokens u) (p : ParseState) :
    Leads s p (fun items _ => Aligned s.tokens choice t items)
      (applyStepBefore s op before operator rest) := by
  have hnext : ∀ i ∈ rest.head?.filter (·.value?.isSome), ∃ t, i.At s.tokens t := fun i hi =>
    ⟨u, h.at_of_head i (Option.mem_filter_iff.1 hi).1⟩
  refine (checkStep ho hk hb _ p).bind fun _ p₁ _ _ => ?_
  refine (placeOperand ho hnext "right" p₁).bind fun r p₂ _ hr => ?_
  refine (buildStep ho op false r.2 _ p₂).bind fun e p₃ _ he => ?_
  exact .pure (withValue_aligned ho hle h ⟨(Option.mem_filter_iff.1 hr.1).1, hr.2⟩ he)

theorem applyStepsBefore (h : Aligned s.tokens choice t items) {before : Option Item}
    (hb : ∀ i ∈ before, ∃ u, i.At s.tokens u) (p : ParseState) :
    Leads s p (fun items' _ => Aligned s.tokens choice t items')
      (applyStepsBefore s before items) := by
  induction h generalizing before p with
  | nil => exact .pure .nil
  | @cons _ t u item rest hi hle hr ih =>
    have hitem : ∀ i ∈ some item, ∃ u, i.At s.tokens u := fun i h => ⟨t, hi.placed.some i h⟩
    refine (ih hitem p).bind fun rest' p₁ _ hrest => ?_
    split
    · rename_i op hop
      exact applyStepBefore hi.placed (Item.kind_of_operator? hop) hle hrest hb p₁
    · exact .pure (.cons hi hle hrest)
  | choice hq hy hn => exact .pure (.choice hq hy hn)

theorem applyPrefixes (h : Aligned s.tokens choice t items) (before : Option Item)
    (p : ParseState) :
    Leads s p (fun items' _ => Aligned s.tokens choice t items')
      (applyPrefixes s before items) := by
  induction h generalizing before p with
  | nil => exact .pure .nil
  | @cons _ t u item rest hi hle hr ih =>
    refine (ih (some item) p).bind fun rest' p₁ _ hrest => ?_
    split
    · refine .ite (fun _ => .pure (.cons hi hle hrest)) fun _ => ?_
      exact applyUnary hi.placed hle hrest _ p₁
    · exact .pure (.cons hi hle hrest)
  | choice hq hy hn => exact .pure (.choice hq hy hn)

theorem applyCastsFrom (h : Aligned s.tokens choice t items) (before : Option Item)
    (p : ParseState) :
    Leads s p (fun r _ => Aligned s.tokens choice t r.1) (applyCastsFrom s before items) := by
  induction h generalizing before p with
  | nil => exact .pure .nil
  | @cons _ t u item rest hi hle hr ih =>
    refine (ih (some item) p).bind ?_
    rintro ⟨rest', isCast⟩ p₁ _ hrest
    dsimp only
    split
    · rename_i type hk
      have hnext : ∀ i ∈ rest'.head?, ∃ t, i.At s.tokens t := fun i hi =>
        ⟨u, hrest.at_of_head i hi⟩
      refine (operand hi.placed hnext "right" p₁).bind fun r p₂ _ hr => ?_
      refine (buildCast hi.placed r.2 type _ p₂).bind fun e p₃ _ he => ?_
      exact .pure (withValue_aligned hi.placed hle hrest hr he)
    · unfold applyWaiting
      split
      · refine (applyUnary hi.placed hle hrest _ p₁).bind fun items p₂ _ hitems => ?_
        exact .pure hitems
      · exact .pure (.cons hi hle hrest)
  | choice hq hy hn => exact .pure (.choice hq hy hn)

theorem applyCasts (h : Aligned s.tokens choice t items) (p : ParseState) :
    Leads s p (fun items' _ => Aligned s.tokens choice t items') (applyCasts s items) :=
  (applyCastsFrom h none p).bind fun _ _ _ hr => .pure hr

theorem applyNot (h : Aligned s.tokens choice t items) (p : ParseState) :
    Leads s p (fun items' _ => Aligned s.tokens choice t items') (applyNot s items) := by
  induction h generalizing p with
  | nil => exact .pure .nil
  | @cons _ t u item rest hi hle hr ih =>
    refine (ih p).bind fun rest' p₁ _ hrest => ?_
    refine .ite (fun _ => applyUnary hi.placed hle hrest _ p₁) fun _ => ?_
    exact .pure (.cons hi hle hrest)
  | choice hq hy hn => exact .pure (.choice hq hy hn)

/-! ### Operators with two operands -/

/-- An operand on the left and one on the right, in their order. -/
theorem applyBinary (ho : operator.At s.tokens v) {left right : Option Item}
    (hl : ∀ i ∈ left, i.At s.tokens t) (hr : ∀ i ∈ right, i.At s.tokens u)
    (hle : t.span.start ≤ u.span.start) (op : BinaryOp) (p : ParseState) :
    Leads s p (fun item _ => left.isSome = true ∧ item.Stands s.tokens t ∧
      ∃ e i, right = some i ∧ i.kind = .value e) (applyBinary s op left operator right) := by
  refine (operand ho (fun i hi => ⟨t, hl i hi⟩) "left" p).bind fun l p₁ _ hleft => ?_
  refine (operand ho (fun i hi => ⟨u, hr i hi⟩) "right" p₁).bind fun r p₂ _ hright => ?_
  refine (buildBinary ho op l.2 r.2 _ p₂).bind fun e p₃ _ he => .pure ?_
  have hbehind := Nat.le_trans hle (Nat.le_of_eq (hr r.1 hright.1).start.symm)
  refine ⟨?_, (hl l.1 hleft.1).merged he hbehind, r.2, r.1, hright.1, hright.2.1⟩
  rw [hleft.1]
  rfl

theorem applyLeftward (ops : List BinaryOp) (hd : Behind s.tokens t u done)
    (h : Aligned s.tokens choice u items) (p : ParseState) :
    Leads s p (fun items' _ => Aligned s.tokens choice t items')
      (applyLeftward s ops done items) := by
  induction done, items using applyLeftward.induct ops generalizing u p with
  | case1 done => exact .pure hd.reverse
  | case2 done item op right rest hop ih =>
    unfold Parser.applyLeftward
    rw [hop]
    obtain ⟨v, hvu, hleft, hput⟩ := hd.exists_last
    cases h with
    | choice => cases hop
    | cons hi hle hr =>
      refine (applyBinary hi.placed hleft hr.head.some (Nat.le_trans hvu hle) op p).bind ?_
      rintro e p₁ _ ⟨hsome, he, r, i, hi, hk⟩
      obtain rfl := Option.some.inj hi
      obtain ⟨w, hw, hrest⟩ := hr.tail hk
      exact ih e (hput hsome he (Nat.le_trans hle hw)) hrest p₁
  | case3 done item op hop =>
    unfold Parser.applyLeftward
    rw [hop]
    obtain ⟨v, hvu, hleft, -⟩ := hd.exists_last
    refine (applyBinary h.head hleft .none hvu op p).bind ?_
    rintro e p₁ _ ⟨-, -, r, i, hi, -⟩
    cases hi
  | case4 done item rest hop ih =>
    unfold Parser.applyLeftward
    rw [hop]
    cases h with
    | cons hi hle hr => exact ih (.cons hi hle hd) hr p
    | choice hq hy hn => exact .pure (by simpa using hd.append (.choice hq hy hn))

/-- From the last item back. -/
theorem applyRightward_behind (ops : List BinaryOp) (hd : Behind s.tokens t u items)
    (h : Aligned s.tokens choice u done) (p : ParseState) :
    Leads s p (fun items' _ => Aligned s.tokens choice t items')
      (applyRightward s ops done items) := by
  induction done, items using applyRightward.induct ops generalizing u p with
  | case1 done =>
    cases hd
    exact .pure h
  | case2 done item op left rest hop ih =>
    unfold Parser.applyRightward
    rw [hop]
    cases hd with
    | cons hi hvu hd =>
      cases hd with
      | cons hl hwv hd =>
        have hle := Nat.le_trans hwv hvu
        refine (applyBinary hi.placed hl.placed.some h.at_of_head hle op p).bind ?_
        rintro e p₁ _ ⟨-, he, r, i, hhead, hk⟩
        exact ih e hd (h.replaceHead hhead hk he hle) p₁
  | case3 done item op hop =>
    unfold Parser.applyRightward
    rw [hop]
    cases hd with
    | cons hi hvu hd =>
      have hleft : ∀ i ∈ (none : Option Item), i.At s.tokens u := .none
      refine (applyBinary hi.placed hleft h.at_of_head (Nat.le_refl _) op p).bind ?_
      rintro e p₁ _ ⟨hsome, -⟩
      cases hsome
  | case4 done item rest hop ih =>
    unfold Parser.applyRightward
    rw [hop]
    cases hd with
    | cons hi hvu hd => exact ih hd (.cons hi hvu h) p

theorem applyRightward_branches (ops : List BinaryOp) (span : Span) (line l l' : Nat)
    (yes no : Expr) (rest : List Item) :
    Parser.applyRightward s ops [] (⟨.value no, no.span, l'⟩ :: ⟨.value yes, yes.span, l⟩ ::
      ⟨.operator .question, span, line⟩ :: rest) =
    Parser.applyRightward s ops [⟨.operator .question, span, line⟩, ⟨.value yes, yes.span, l⟩,
      ⟨.value no, no.span, l'⟩] rest := by
  rw [applyRightward_value, applyRightward_value]
  cases rest <;> rfl

theorem applyRightward (ops : List BinaryOp) (h : Aligned s.tokens choice t items)
    (p : ParseState) :
    Leads s p (fun items' _ => Aligned s.tokens choice t items')
      (applyRightward s ops [] items.reverse) := by
  obtain ⟨done, last, u, rfl, hd, hl, rfl | ⟨rfl, span, line, l, l', yes, no, rfl⟩⟩ := h.split
  · rw [List.append_nil]
    exact applyRightward_behind ops hd hl p
  · rw [List.reverse_append]
    show Leads s p _ (Parser.applyRightward s ops [] (_ :: _ :: _ :: _))
    rw [applyRightward_branches]
    exact applyRightward_behind ops hd hl p

/-! ### Conditionals and assignments -/

theorem applyTernary (ho : operator.At s.tokens u) (hq : operator.kind = .operator .question)
    {condition : Option Item} (hc : ∀ i ∈ condition, i.At s.tokens t)
    (hle : t.span.start ≤ u.span.start) {yes no : Expr} (hy : yes.Branches s.tokens u)
    (hn : no.Branches s.tokens u) (l l' : Nat) (p : ParseState) :
    Leads s p (fun items _ => condition.isSome = true ∧ ∃ i, i.Stands s.tokens t ∧ items = [i])
      (applyTernary s condition operator
        [⟨.value yes, yes.span, l⟩, ⟨.value no, no.span, l'⟩]) := by
  refine (operand ho (fun i hi => ⟨t, hc i hi⟩) "left" p).bind fun first p₁ _ hfirst => ?_
  refine (operand_branch hy.ne_void operator "right" p₁).bind ?_
  rintro ⟨yesItem, _⟩ p₂ _ ⟨rfl, -⟩
  refine (operand_branch hn.ne_void operator "right" p₂).bind ?_
  rintro ⟨noItem, _⟩ p₃ _ ⟨rfl, hspan⟩
  have hat := hc first.1 hfirst.1
  have hstarts := (hat.value hfirst.2.1).starts
  refine (buildTernary ho hq hstarts hy.ne_void hn.ne_void hn.starts _ p₃).bind ?_
  rintro e p₄ _ he
  have hbehind : t.span.start ≤ noItem.span.start := by
    rw [hspan]
    exact Nat.le_trans hle hn.le
  refine .pure ⟨?_, _, hat.merged he hbehind, rfl⟩
  rw [hfirst.1]
  rfl

/-- Where there is no `?`, nothing is done. -/
theorem applyTernaries_behind (hd : Behind s.tokens t u items)
    (h : Aligned s.tokens false u done) (p : ParseState) :
    Leads s p (fun items' _ => Aligned s.tokens false t items') (applyTernaries s done items) := by
  induction hd generalizing done p with
  | nil => exact .pure h
  | cons hi hle _ ih =>
    unfold Parser.applyTernaries
    rw [if_neg fun hq => hi.ne_question (Item.kind_of_operator? hq)]
    exact ih (.cons hi hle h) p

theorem applyTernaries_branches (span : Span) (line l l' : Nat) (yes no : Expr)
    (rest : List Item) :
    Parser.applyTernaries s [] (⟨.value no, no.span, l'⟩ :: ⟨.value yes, yes.span, l⟩ ::
      ⟨.operator .question, span, line⟩ :: rest) = (do
    let items ← Parser.applyTernary s rest.head? ⟨.operator .question, span, line⟩
      [⟨.value yes, yes.span, l⟩, ⟨.value no, no.span, l'⟩]
    Parser.applyTernaries s items rest.tail) := by
  cases rest with
  | nil => simp [Parser.applyTernaries, Item.operator?]
  | cons condition rest => rfl

theorem applyTernaries (h : Aligned s.tokens choice t items) (p : ParseState) :
    Leads s p (fun items' _ => Aligned s.tokens false t items')
      (applyTernaries s [] items.reverse) := by
  obtain ⟨done, last, u, rfl, hd, hl, rfl | ⟨rfl, span, line, l, l', yes, no, rfl⟩⟩ := h.split
  · rw [List.append_nil]
    exact applyTernaries_behind hd .nil p
  · rw [List.reverse_append]
    show Leads s p _ (Parser.applyTernaries s [] (_ :: _ :: _ :: _))
    rw [applyTernaries_branches]
    cases hl with
    | cons h => exact absurd rfl h.ne_question
    | choice hq hy hn =>
      obtain ⟨v, hvu, hleft, hput⟩ := hd.exists_last
      refine (applyTernary hq rfl hleft hvu hy hn l l' p).bind ?_
      rintro _ p₁ _ ⟨hsome, i, hi, rfl⟩
      cases hput hsome hi (Nat.le_refl _) with
      | cons hi _ hd => exact applyTernaries_behind hd (.cons hi (Nat.le_refl _) .nil) p₁

theorem applyAssign {op : AssignOp} (ho : operator.At s.tokens v)
    (hk : operator.kind = .operator (.assign op)) {target value : Option Item}
    (ht : ∀ i ∈ target, i.At s.tokens t) (hv : ∀ i ∈ value, i.At s.tokens u)
    (hle : t.span.start ≤ u.span.start) (p : ParseState) :
    Leads s p (fun item _ => target.isSome = true ∧ item.Stands s.tokens t ∧
      ∃ e i, value = some i ∧ i.kind = .value e) (applyAssign s op target operator value) := by
  refine (placeOperand ho (fun i hi => ⟨t, ht i hi⟩) "left" p).bind fun l p₁ _ htarget => ?_
  refine (operand ho (fun i hi => ⟨u, hv i hi⟩) "right" p₁).bind fun r p₂ _ hvalue => ?_
  have hat := hv r.1 hvalue.1
  have hstarts := (hat.value hvalue.2.1).starts
  refine (buildUpdate ho hk l.2 hstarts _ p₂).bind fun e p₃ _ he => .pure ?_
  have hbehind := Nat.le_trans hle (Nat.le_of_eq hat.start.symm)
  refine ⟨?_, (ht l.1 htarget.1).merged he hbehind, r.2, r.1, hvalue.1, hvalue.2.1⟩
  rw [htarget.1]
  rfl

/-- From the last item back. -/
theorem applyAssignments_behind (hd : Behind s.tokens t u items)
    (h : Aligned s.tokens false u done) (p : ParseState) :
    Leads s p (fun items' _ => Aligned s.tokens false t items')
      (applyAssignments s done items) := by
  induction done, items using applyAssignments.induct generalizing u p with
  | case1 done =>
    cases hd
    exact .pure h
  | case2 done item op target rest hop ih =>
    unfold Parser.applyAssignments
    rw [hop]
    have hk := Item.kind_of_operator? hop
    cases hd with
    | cons hi hvu hd =>
      cases hd with
      | cons ht hwv hd =>
        have hle := Nat.le_trans hwv hvu
        refine (applyAssign hi.placed hk ht.placed.some h.at_of_head hle p).bind ?_
        rintro e p₁ _ ⟨-, he, r, i, hhead, hk⟩
        exact ih e hd (h.replaceHead hhead hk he hle) p₁
  | case3 done item op hop =>
    unfold Parser.applyAssignments
    rw [hop]
    have hk := Item.kind_of_operator? hop
    cases hd with
    | cons hi hvu hd =>
      have htarget : ∀ i ∈ (none : Option Item), i.At s.tokens u := .none
      refine (applyAssign hi.placed hk htarget h.at_of_head (Nat.le_refl _) p).bind ?_
      rintro e p₁ _ ⟨hsome, -⟩
      cases hsome
  | case4 done item rest h₁ h₂ ih =>
    have hskip : ∀ op, item.operator? ≠ some (.assign op) := fun op hop => by
      cases rest with
      | nil => exact h₂ op hop rfl
      | cons target rest => exact h₁ op target rest hop rfl
    rw [applyAssignments_cons hskip]
    cases hd with
    | cons hi hvu hd => exact ih hd (.cons hi hvu h) p

theorem applyAssignments (h : Aligned s.tokens false t items) (p : ParseState) :
    Leads s p (fun items' _ => Aligned s.tokens false t items')
      (applyAssignments s [] items.reverse) := by
  obtain ⟨done, last, u, rfl, hd, hl, rfl | ⟨hfalse, -⟩⟩ := h.split
  · rw [List.append_nil]
    exact applyAssignments_behind hd hl p
  · cases hfalse

/-! ### All passes -/

theorem remaining (h : Aligned s.tokens false t items) (p : ParseState) :
    Leads s p (fun root _ => ∀ e ∈ root, e.BeginsAt s.tokens t) (remaining s items) := by
  unfold Parser.remaining
  split
  · rename_i item hitem
    obtain ⟨u, hu⟩ := h.exists_at item (List.mem_of_find?_eq_some hitem)
    exact .refuse rfl (hu.points _ _)
  · split
    · exact .pure fun e he => by cases he
    · split
      · rename_i e hk
        refine .pure ?_
        rintro e ⟨⟩
        exact h.head.value hk
      · exact notAValue h.head
    · rename_i first second rest _
      obtain ⟨u, hu⟩ := h.exists_at second (by simp)
      exact .refuse rfl (hu.points _ _)

theorem applyPasses (h : Aligned s.tokens choice t items) (p : ParseState) :
    Leads s p (fun items' _ => Aligned s.tokens false t items') (applyPasses s items) := by
  have hbefore : ∀ i ∈ (none : Option Item), ∃ u, i.At s.tokens u := nofun
  refine (applyIndexes .nil h p).bind fun items p _ h => ?_
  refine (applyStepsAfter .nil h p).bind fun items p _ h => ?_
  refine (applyStepsBefore h hbefore p).bind fun items p _ h => ?_
  refine (applyPrefixes h none p).bind fun items p _ h => ?_
  refine (applyCasts h p).bind fun items p _ h => ?_
  refine (applyRightward _ h p).bind fun items p _ h => ?_
  refine (applyLeftward _ .nil h p).bind fun items p _ h => ?_
  refine (applyLeftward _ .nil h p).bind fun items p _ h => ?_
  refine (applyLeftward _ .nil h p).bind fun items p _ h => ?_
  refine (applyNot h p).bind fun items p _ h => ?_
  refine (applyLeftward _ .nil h p).bind fun items p _ h => ?_
  refine (applyLeftward _ .nil h p).bind fun items p _ h => ?_
  refine (applyLeftward _ .nil h p).bind fun items p _ h => ?_
  refine (applyLeftward _ .nil h p).bind fun items p _ h => ?_
  refine (applyTernaries h p).bind fun items p _ h => ?_
  exact applyAssignments h p

/-- What all operators come to begins where the items do. -/
theorem applyOperators (h : Aligned s.tokens choice t items) (p : ParseState) :
    Leads s p (fun root _ => ∀ e ∈ root, e.BeginsAt s.tokens t) (applyOperators s items) :=
  (applyPasses h p).bind fun _ q _ h => remaining h q

end TypedExpr.Parser.Leads
