import TypedExpr.Parse
import TypedExpr.Proofs.Parse.Collection
/-!
# Applying operators side by side

Every pass over the items respects a simulation, and so does parsing as a whole.

* `Simulation.applyOperators`: all passes.
* `Simulation.next`: **parsing respects every simulation.**
-/

namespace TypedExpr.Parser.Simulation

variable {s : Setting} {fold : Bool} (m : Simulation s fold)

/-- Lists of items related one to one. -/
abbrev Items : List Item → List Item → Prop := List.Forall₂ (Item.Rel m.expr)

theorem head? {items items' : List Item} (h : m.Items items items') :
    Option.Rel (Item.Rel m.expr) items.head? items'.head? := by
  cases h with
  | nil => exact .none
  | cons hi _ => exact .some hi

theorem tail {items items' : List Item} (h : m.Items items items') :
    m.Items items.tail items'.tail := by
  cases h with
  | nil => exact .nil
  | cons _ his => exact his

theorem getElem? {items items' : List Item} (h : m.Items items items') (n : Nat) :
    Option.Rel (Item.Rel m.expr) items[n]? items'[n]? := by
  induction h generalizing n with
  | nil => exact .none
  | cons hi _ ih =>
    cases n with
    | zero => exact .some hi
    | succ n => exact ih n

theorem itemModifiable {i j : Item} (h : Item.Rel m.expr i j) :
    j.isModifiable = i.isModifiable := by
  cases h with
  | value he => exact m.modifiable he
  | _ => rfl

/-! ### Operands -/

/-- An item that is there and is a value, and the value, on both sides. -/
structure Operand (item : Option Item) (a b : Item × Expr) : Prop where
  found : item = some a.1
  item : Item.Rel m.expr a.1 b.1
  value : a.1.kind = .value a.2
  expr : m.expr a.2 b.2
  typed : a.2.type ≠ .void

theorem operand {item item' : Option Item} (h : Option.Rel (Item.Rel m.expr) item item')
    (operator operator' : Item) (side : String) :
    Simulates m.state (m.Operand item) (operand s item operator side)
      (operand (s.withFold fold) item' operator' side) := by
  cases h with
  | none => exact .refuse
  | some hi =>
    cases hi with
    | value he =>
      unfold Parser.operand
      dsimp only
      rw [m.type he]
      exact .ite (fun _ => .refuse) fun hv => .pure ⟨rfl, .value he _ _, rfl, he, hv⟩
    | _ => exact .refuse

theorem placeOperand {item item' : Option Item} (h : Option.Rel (Item.Rel m.expr) item item')
    (operator operator' : Item) (side : String) :
    Simulates m.state (fun a b => m.Operand item a b ∧ a.2.isModifiable = true)
      (placeOperand s item operator side)
      (placeOperand (s.withFold fold) item' operator' side) := by
  refine (m.operand h operator operator' side).bind fun a b hab => ?_
  dsimp only
  rw [m.modifiable hab.expr]
  exact .ite (fun hm => .pure ⟨hab, hm⟩) fun _ => .refuse

theorem isPrefixPosition {before before' : Option Item}
    (h : Option.Rel (Item.Rel m.expr) before before') :
    isPrefixPosition before' = isPrefixPosition before := by
  cases h with
  | none => rfl
  | some hi => simp [Parser.isPrefixPosition, hi.endsOperand]

theorem prefixOperator? {before before' : Option Item} {i j : Item}
    (hb : Option.Rel (Item.Rel m.expr) before before') (hi : Item.Rel m.expr i j) :
    prefixOperator? before' j = prefixOperator? before i := by
  unfold Parser.prefixOperator?
  rw [hi.operator?, m.isPrefixPosition hb]

theorem isWaiting {i j : Item} (h : Item.Rel m.expr i j) : isWaiting j = isWaiting i := by
  cases h <;> rfl

theorem any_isWaiting {items items' : List Item} (h : m.Items items items') :
    items'.head?.any Parser.isWaiting = items.head?.any Parser.isWaiting := by
  cases h with
  | nil => rfl
  | cons hi _ => exact m.isWaiting hi

/-! ### Operators with one operand -/

theorem applyIndexes {done done' items items' : List Item} (hd : m.Items done done')
    (h : m.Items items items') :
    Simulates m.state m.Items (applyIndexes s done items)
      (applyIndexes (s.withFold fold) done' items') := by
  induction h generalizing done done' with
  | nil => exact .pure (List.rel_reverse hd)
  | @cons i j is js hi his ih =>
    cases hi with
    | index he hv =>
      cases hd with
      | nil => exact .refuse
      | cons hc hd =>
        exact (m.buildIndex hc he hv (.index he hv _ _)).bind fun _ _ he => ih (.cons he hd)
    | operator op => exact ih (.cons (.operator op _ _) hd)
    | value he => exact ih (.cons (.value he _ _) hd)
    | typeName t => exact ih (.cons (.typeName t _ _) hd)
    | cast t => exact ih (.cons (.cast t _ _) hd)

theorem applyStepsAfter {done done' items items' : List Item} (hd : m.Items done done')
    (h : m.Items items items') :
    Simulates m.state m.Items (applyStepsAfter s done items)
      (applyStepsAfter (s.withFold fold) done' items') := by
  induction h generalizing done done' with
  | nil => exact .pure (List.rel_reverse hd)
  | @cons i j is js hi his ih =>
    have skip := ih (.cons hi hd)
    cases hi with
    | operator op span line =>
      cases op with
      | step op =>
        cases hd with
        | nil => exact skip
        | @cons c c' done done' hc hd =>
          unfold Parser.applyStepsAfter
          dsimp only [Item.operator?]
          rw [m.itemModifiable hc, hc.span]
          refine .ite (fun hm => ?_) fun _ => skip
          refine (m.operand (.some hc) _ _ "left").bind fun a b hab => ?_
          have ha : a.2.isModifiable = true := by
            rw [Option.some.inj hab.found, Item.isModifiable, hab.value] at hm
            exact hm
          refine (m.buildStep op true hab.expr ha _ _ _).bind fun a a' ha => ?_
          exact ih (.cons (hc.withValue ha _) hd)
      | _ => exact skip
    | _ => exact skip

theorem checkStep (op : StepOp) {before before' next next' : Option Item}
    (hb : Option.Rel (Item.Rel m.expr) before before')
    (hn : Option.Rel (Item.Rel m.expr) next next') (line line' : Nat) :
    Simulates m.state Eq (checkStep op before next line) (checkStep op before' next' line') := by
  cases hn with
  | some _ => exact .pure rfl
  | none =>
    cases hb with
    | none => exact .pure rfl
    | some hl =>
      unfold Parser.checkStep
      dsimp only
      rw [hl.endsOperand]
      exact .ite (fun _ => .refuse) fun _ => .pure rfl

theorem firstValue {items items' : List Item} (h : m.Items items items') :
    Option.Rel (Item.Rel m.expr) (items.head?.filter (·.value?.isSome))
      (items'.head?.filter (·.value?.isSome)) := by
  cases h with
  | nil => exact .none
  | cons hi _ =>
    cases hi with
    | value he => exact .some (.value he _ _)
    | _ => exact .none

theorem applyStepBefore (op : StepOp) {before before' : Option Item}
    (hb : Option.Rel (Item.Rel m.expr) before before') {operator operator' : Item}
    (ho : Item.Rel m.expr operator operator') {rest rest' : List Item} (h : m.Items rest rest') :
    Simulates m.state m.Items (applyStepBefore s op before operator rest)
      (applyStepBefore (s.withFold fold) op before' operator' rest') := by
  have hn := m.firstValue h
  refine (m.checkStep op hb hn _ _).bind fun _ _ _ => ?_
  refine (m.placeOperand hn operator operator' "right").bind fun a b hab => ?_
  dsimp only
  rw [ho.span, hab.1.item.span]
  refine (m.buildStep op false hab.1.expr hab.2 _ _ _).bind fun e e' he => ?_
  exact .pure (.cons (ho.withValue he _) (m.tail h))

theorem applyStepsBefore {before before' : Option Item}
    (hb : Option.Rel (Item.Rel m.expr) before before') {items items' : List Item}
    (h : m.Items items items') :
    Simulates m.state m.Items (applyStepsBefore s before items)
      (applyStepsBefore (s.withFold fold) before' items') := by
  induction h generalizing before before' with
  | nil => exact .pure .nil
  | @cons i j is js hi his ih =>
    refine (ih (.some hi)).bind fun rest rest' hrest => ?_
    rw [hi.operator?]
    split
    · exact m.applyStepBefore _ hb hi hrest
    · exact .pure (.cons hi hrest)

theorem applyUnary (op : UnaryOp) {operator operator' : Item}
    (ho : Item.Rel m.expr operator operator') {rest rest' : List Item}
    (h : m.Items rest rest') :
    Simulates m.state m.Items (applyUnary s op operator rest)
      (applyUnary (s.withFold fold) op operator' rest') := by
  refine (m.operand (m.head? h) operator operator' "right").bind fun a b hab => ?_
  dsimp only
  rw [ho.span, hab.item.span]
  refine (m.buildUnary op hab.expr hab.typed ho _).bind fun a a' ha => ?_
  exact .pure (.cons (ho.withValue ha _) (m.tail h))

theorem applyPrefixes {before before' : Option Item}
    (hb : Option.Rel (Item.Rel m.expr) before before') {items items' : List Item}
    (h : m.Items items items') :
    Simulates m.state m.Items (applyPrefixes s before items)
      (applyPrefixes (s.withFold fold) before' items') := by
  induction h generalizing before before' with
  | nil => exact .pure .nil
  | @cons i j is js hi his ih =>
    refine (ih (.some hi)).bind fun rest rest' hrest => ?_
    rw [m.prefixOperator? hb hi]
    cases Parser.prefixOperator? before i with
    | none => exact .pure (.cons hi hrest)
    | some op =>
      dsimp only
      rw [m.any_isWaiting hrest]
      exact .ite (fun _ => .pure (.cons hi hrest)) fun _ => m.applyUnary op hi hrest

/-- The items, and whether the first comes from a cast, on both sides. -/
def FromCast (a b : List Item × Bool) : Prop := m.Items a.1 b.1 ∧ a.2 = b.2

theorem applyWaiting {before before' : Option Item}
    (hb : Option.Rel (Item.Rel m.expr) before before') {i j : Item} (hi : Item.Rel m.expr i j)
    (isCast : Bool) {rest rest' : List Item} (h : m.Items rest rest') :
    Simulates m.state m.FromCast (applyWaiting s before i isCast rest)
      (applyWaiting (s.withFold fold) before' j isCast rest') := by
  unfold Parser.applyWaiting
  rw [m.prefixOperator? hb hi]
  split
  · exact (m.applyUnary _ hi h).bind fun _ _ h => .pure ⟨h, rfl⟩
  · exact .pure ⟨.cons hi h, rfl⟩

theorem applyCastsFrom {before before' : Option Item}
    (hb : Option.Rel (Item.Rel m.expr) before before') {items items' : List Item}
    (h : m.Items items items') :
    Simulates m.state m.FromCast (applyCastsFrom s before items)
      (applyCastsFrom (s.withFold fold) before' items') := by
  induction h generalizing before before' with
  | nil => exact .pure ⟨.nil, rfl⟩
  | @cons i j is js hi his ih =>
    refine (ih (.some hi)).bind ?_
    rintro ⟨rest, isCast⟩ ⟨rest', _⟩ ⟨hrest, rfl⟩
    have other := m.applyWaiting hb hi isCast hrest
    cases hi with
    | cast t span line =>
      refine (m.operand (m.head? hrest) _ _ "right").bind fun a b hab => ?_
      dsimp only
      rw [hab.item.span]
      refine (m.buildCast hab.expr hab.typed t _ _ _).bind fun a a' ha => ?_
      exact .pure ⟨.cons (.value ha _ _) (m.tail hrest), rfl⟩
    | operator op => exact other
    | value he => exact other
    | typeName t => exact other
    | index he hv => exact other

theorem applyCasts {items items' : List Item} (h : m.Items items items') :
    Simulates m.state m.Items (applyCasts s items) (applyCasts (s.withFold fold) items') :=
  (m.applyCastsFrom .none h).bind fun _ _ h => .pure h.1

theorem applyNot {items items' : List Item} (h : m.Items items items') :
    Simulates m.state m.Items (applyNot s items) (applyNot (s.withFold fold) items') := by
  induction h with
  | nil => exact .pure .nil
  | @cons i j is js hi his ih =>
    refine ih.bind fun rest rest' hrest => ?_
    rw [hi.operator?]
    exact .ite (fun _ => m.applyUnary .not hi hrest) fun _ => .pure (.cons hi hrest)

/-! ### Operators with two operands -/

theorem applyBinary (op : BinaryOp) {left left' right right' : Option Item}
    (hl : Option.Rel (Item.Rel m.expr) left left') {operator operator' : Item}
    (ho : Item.Rel m.expr operator operator')
    (hr : Option.Rel (Item.Rel m.expr) right right') :
    Simulates m.state (Item.Rel m.expr) (applyBinary s op left operator right)
      (applyBinary (s.withFold fold) op left' operator' right') := by
  refine (m.operand hl operator operator' "left").bind fun a b hab => ?_
  refine (m.operand hr operator operator' "right").bind fun c d hcd => ?_
  dsimp only
  rw [hab.item.span, hcd.item.span]
  refine (m.buildBinary op hab.expr hcd.expr hab.typed hcd.typed ho _).bind fun e e' he => ?_
  exact .pure (hab.item.withValue he _)

theorem isOneOf? (ops : List BinaryOp) {i j : Item} (h : Item.Rel m.expr i j) :
    isOneOf? ops j = isOneOf? ops i := by
  unfold Parser.isOneOf?
  rw [h.operator?]

theorem applyLeftward (ops : List BinaryOp) {done done' items items' : List Item}
    (hd : m.Items done done') (h : m.Items items items') :
    Simulates m.state m.Items (applyLeftward s ops done items)
      (applyLeftward (s.withFold fold) ops done' items') := by
  induction done, items using applyLeftward.induct ops generalizing done' items' with
  | case1 done =>
    cases h
    exact .pure (List.rel_reverse hd)
  | case2 done item op right rest hop ih =>
    obtain ⟨⟩ | ⟨hi, ⟨⟩ | ⟨hr, hrest⟩⟩ := h
    unfold Parser.applyLeftward
    rw [m.isOneOf? ops hi, hop]
    refine (m.applyBinary op (m.head? hd) hi (.some hr)).bind fun e e' he => ?_
    exact ih e (.cons he (m.tail hd)) hrest
  | case3 done item op hop =>
    obtain ⟨⟩ | ⟨hi, ⟨⟩⟩ := h
    unfold Parser.applyLeftward
    rw [m.isOneOf? ops hi, hop]
    refine (m.applyBinary op (m.head? hd) hi .none).bind fun e e' he => ?_
    exact .pure (List.rel_reverse (.cons he (m.tail hd)))
  | case4 done item rest hop ih =>
    obtain ⟨⟩ | ⟨hi, hrest⟩ := h
    unfold Parser.applyLeftward
    rw [m.isOneOf? ops hi, hop]
    exact ih (.cons hi hd) hrest

theorem applyRightward (ops : List BinaryOp) {done done' items items' : List Item}
    (hd : m.Items done done') (h : m.Items items items') :
    Simulates m.state m.Items (applyRightward s ops done items)
      (applyRightward (s.withFold fold) ops done' items') := by
  induction done, items using applyRightward.induct ops generalizing done' items' with
  | case1 done =>
    cases h
    exact .pure hd
  | case2 done item op left rest hop ih =>
    obtain ⟨⟩ | ⟨hi, ⟨⟩ | ⟨hl, hrest⟩⟩ := h
    unfold Parser.applyRightward
    rw [m.isOneOf? ops hi, hop]
    refine (m.applyBinary op (.some hl) hi (m.head? hd)).bind fun e e' he => ?_
    exact ih e (.cons he (m.tail hd)) hrest
  | case3 done item op hop =>
    obtain ⟨⟩ | ⟨hi, ⟨⟩⟩ := h
    unfold Parser.applyRightward
    rw [m.isOneOf? ops hi, hop]
    refine (m.applyBinary op .none hi (m.head? hd)).bind fun e e' he => ?_
    exact .pure (.cons he (m.tail hd))
  | case4 done item rest hop ih =>
    obtain ⟨⟩ | ⟨hi, hrest⟩ := h
    unfold Parser.applyRightward
    rw [m.isOneOf? ops hi, hop]
    exact ih (.cons hi hd) hrest

/-! ### Conditionals and assignments -/

theorem drop {items items' : List Item} (h : m.Items items items') (n : Nat) :
    m.Items (items.drop n) (items'.drop n) := by
  induction n generalizing items items' with
  | zero => exact h
  | succ n ih =>
    cases h with
    | nil => exact .nil
    | cons _ h => exact ih h

theorem applyTernary {condition condition' : Option Item}
    (hc : Option.Rel (Item.Rel m.expr) condition condition') {operator operator' : Item}
    (ho : Item.Rel m.expr operator operator') {done done' : List Item} (hd : m.Items done done') :
    Simulates m.state m.Items (applyTernary s condition operator done)
      (applyTernary (s.withFold fold) condition' operator' done') := by
  refine (m.operand hc operator operator' "left").bind fun c c' hc => ?_
  refine (m.operand (m.getElem? hd 0) operator operator' "right").bind fun y y' hy => ?_
  refine (m.operand (m.getElem? hd 1) operator operator' "right").bind fun n n' hn => ?_
  dsimp only
  rw [hc.item.span, hn.item.span]
  refine (m.buildTernary hc.expr hy.expr hn.expr hc.typed hy.typed hn.typed ho _).bind
    fun e e' he => ?_
  exact .pure (.cons (hc.item.withValue he _) (m.drop hd 2))

theorem applyTernaries {done done' items items' : List Item} (hd : m.Items done done')
    (h : m.Items items items') :
    Simulates m.state m.Items (applyTernaries s done items)
      (applyTernaries (s.withFold fold) done' items') := by
  induction done, items using applyTernaries.induct generalizing done' items' with
  | case1 done =>
    cases h
    exact .pure hd
  | case2 done item hop condition rest ih =>
    obtain ⟨⟩ | ⟨hi, ⟨⟩ | ⟨hc, hrest⟩⟩ := h
    unfold Parser.applyTernaries
    rw [hi.operator?, if_pos hop, if_pos hop]
    exact (m.applyTernary (.some hc) hi hd).bind fun is is' his => ih is his hrest
  | case3 done item hop =>
    obtain ⟨⟩ | ⟨hi, ⟨⟩⟩ := h
    unfold Parser.applyTernaries
    rw [hi.operator?, if_pos hop, if_pos hop]
    exact m.applyTernary .none hi hd
  | case4 done item rest hop ih =>
    obtain ⟨⟩ | ⟨hi, hrest⟩ := h
    unfold Parser.applyTernaries
    rw [hi.operator?, if_neg hop, if_neg hop]
    exact ih (.cons hi hd) hrest

theorem applyAssign (op : AssignOp) {target target' value value' : Option Item}
    (ht : Option.Rel (Item.Rel m.expr) target target') {operator operator' : Item}
    (ho : Item.Rel m.expr operator operator')
    (hv : Option.Rel (Item.Rel m.expr) value value') :
    Simulates m.state (Item.Rel m.expr) (applyAssign s op target operator value)
      (applyAssign (s.withFold fold) op target' operator' value') := by
  refine (m.placeOperand ht operator operator' "left").bind fun t t' ht => ?_
  refine (m.operand hv operator operator' "right").bind fun v v' hv => ?_
  dsimp only
  rw [ht.1.item.span, hv.item.span]
  refine (m.buildUpdate op ht.1.expr hv.expr ht.2 hv.typed ho _).bind fun e e' he => ?_
  exact .pure (ht.1.item.withValue he _)

theorem applyAssignments {done done' items items' : List Item} (hd : m.Items done done')
    (h : m.Items items items') :
    Simulates m.state m.Items (applyAssignments s done items)
      (applyAssignments (s.withFold fold) done' items') := by
  induction done, items using applyAssignments.induct generalizing done' items' with
  | case1 done =>
    cases h
    exact .pure hd
  | case2 done item op target rest hop ih =>
    obtain ⟨⟩ | ⟨hi, ⟨⟩ | ⟨ht, hrest⟩⟩ := h
    unfold Parser.applyAssignments
    rw [hi.operator?, hop]
    refine (m.applyAssign op (.some ht) hi (m.head? hd)).bind fun e e' he => ?_
    exact ih e (.cons he (m.tail hd)) hrest
  | case3 done item op hop =>
    obtain ⟨⟩ | ⟨hi, ⟨⟩⟩ := h
    unfold Parser.applyAssignments
    rw [hi.operator?, hop]
    refine (m.applyAssign op .none hi (m.head? hd)).bind fun e e' he => ?_
    exact .pure (.cons he (m.tail hd))
  | case4 done item rest h1 h2 ih =>
    obtain ⟨⟩ | ⟨hi, hrest⟩ := h
    have skip := ih (.cons hi hd) hrest
    cases hi with
    | operator op span line =>
      cases op with
      | assign op =>
        cases hrest with
        | nil => exact (h2 op rfl rfl).elim
        | cons _ _ => exact (h1 op _ _ rfl rfl).elim
      | _ => exact skip
    | _ => exact skip

/-! ### All passes -/

theorem find?_isUnapplied {items items' : List Item} (h : m.Items items items') :
    Option.Rel (Item.Rel m.expr) (items.find? isUnapplied) (items'.find? isUnapplied) := by
  induction h with
  | nil => exact .none
  | @cons i j is js hi his ih =>
    have hu : isUnapplied j = isUnapplied i := by cases hi <;> rfl
    rw [List.find?_cons, List.find?_cons, hu]
    split
    · exact .some hi
    · exact ih

theorem remaining {items items' : List Item} (h : m.Items items items') :
    Simulates m.state (Option.Rel m.expr) (remaining s items)
      (remaining (s.withFold fold) items') := by
  unfold Parser.remaining
  have hf := m.find?_isUnapplied h
  generalize items.find? isUnapplied = found at hf ⊢
  generalize items'.find? isUnapplied = found' at hf ⊢
  cases hf with
  | some _ => exact .refuse
  | none =>
    obtain ⟨⟩ | ⟨hi, ⟨⟩ | ⟨_, _⟩⟩ := h
    · exact .pure .none
    · cases hi with
      | value he => exact .pure (.some he)
      | _ => exact .refuse
    · exact .refuse

theorem applyPasses {items items' : List Item} (h : m.Items items items') :
    Simulates m.state m.Items (applyPasses s items) (applyPasses (s.withFold fold) items') := by
  refine (m.applyIndexes .nil h).bind fun _ _ h => ?_
  refine (m.applyStepsAfter .nil h).bind fun _ _ h => ?_
  refine (m.applyStepsBefore .none h).bind fun _ _ h => ?_
  refine (m.applyPrefixes .none h).bind fun _ _ h => ?_
  refine (m.applyCasts h).bind fun _ _ h => ?_
  refine (m.applyRightward _ .nil (List.rel_reverse h)).bind fun _ _ h => ?_
  refine (m.applyLeftward _ .nil h).bind fun _ _ h => ?_
  refine (m.applyLeftward _ .nil h).bind fun _ _ h => ?_
  refine (m.applyLeftward _ .nil h).bind fun _ _ h => ?_
  refine (m.applyNot h).bind fun _ _ h => ?_
  refine (m.applyLeftward _ .nil h).bind fun _ _ h => ?_
  refine (m.applyLeftward _ .nil h).bind fun _ _ h => ?_
  refine (m.applyLeftward _ .nil h).bind fun _ _ h => ?_
  refine (m.applyLeftward _ .nil h).bind fun _ _ h => ?_
  refine (m.applyTernaries .nil (List.rel_reverse h)).bind fun _ _ h => ?_
  exact m.applyAssignments .nil (List.rel_reverse h)

theorem applyOperators {items items' : List Item} (h : m.Items items items') :
    Simulates m.state (Option.Rel m.expr) (applyOperators s items)
      (applyOperators (s.withFold fold) items') :=
  (m.applyPasses h).bind fun _ _ h => m.remaining h

/-! ### Expressions -/

theorem expression (levels : Nat) :
    Simulates m.state (Option.Rel m.expr) (expression s levels)
      (expression (s.withFold fold) levels) := by
  induction levels with
  | zero => exact m.current.bind fun _ _ _ => .refuse
  | succ levels ih => exact (m.collect ih).bind fun _ _ h => m.applyOperators h

/-- **Parsing respects every simulation.** -/
theorem next :
    Simulates m.state (Option.Rel m.expr) (next s) (next (s.withFold fold)) :=
  m.expression s.options.maxDepth

end TypedExpr.Parser.Simulation
