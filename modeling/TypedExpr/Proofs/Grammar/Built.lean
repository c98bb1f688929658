import TypedExpr.Proofs.Grammar.Tree
/-!
# Building a tree

Without folding each node of a tree is built just when it has a type, and what is built fits the
tree.

* `Parser.Makes`: when a parser succeeds, and with what.
* `Tree.Fits`, `Tree.Cell`: an expression, or the item it is in, that a tree may stand for.
* `Tree.Fits.type?_binary`, `Tree.Fits.type?_unary`, …: the type of a node over such trees.
* `Parser.applyBinary_makes`, `Parser.applyUnary_makes`, …: one statement for each kind of node.
-/

namespace TypedExpr

namespace Parser

variable {α β : Type}

/-- The parser succeeds from every state if the condition holds and from none if it does not, and
what it gives is as described. -/
structure Makes (x : Parser α) (c : Prop) (R : α → Prop) : Prop where
  sound {p q : ParseState} {a : α} (h : x.run p = (.ok a, q)) : c ∧ R a
  complete (h : c) (p : ParseState) : ∃ a q, x.run p = (.ok a, q)

namespace Makes

variable {x : Parser α} {c c' : Prop} {R R' : α → Prop}

theorem pure {a : α} (h : R a) : Makes (pure a : Parser α) True R where
  sound h' := by
    cases h'
    exact ⟨trivial, h⟩
  complete _ p := ⟨a, p, rfl⟩

theorem refuse {diagnostic : Diagnostic} {line : Nat} : Makes (refuse diagnostic line) False R where
  sound h := by cases h
  complete h := h.elim

theorem refuse_bind {diagnostic : Diagnostic} {line : Nat} {f : α → Parser β} {T : β → Prop} :
    Makes (Parser.refuse diagnostic line >>= f) False T where
  sound h := by cases h
  complete h := h.elim

theorem bind {f : α → Parser β} {T : β → Prop} (hx : Makes x c R)
    (hf : ∀ a, R a → Makes (f a) c' T) : Makes (x >>= f) (c ∧ c') T where
  sound h := by
    obtain ⟨a, p', ha, h⟩ := run_bind_ok.1 h
    obtain ⟨hc, hR⟩ := hx.sound ha
    obtain ⟨hc', hT⟩ := (hf a hR).sound h
    exact ⟨⟨hc, hc'⟩, hT⟩
  complete h p := by
    obtain ⟨a, p', ha⟩ := hx.complete h.1 p
    obtain ⟨b, q, hb⟩ := (hf a (hx.sound ha).2).complete h.2 p'
    exact ⟨b, q, run_bind_ok.2 ⟨a, p', ha, hb⟩⟩

theorem congr (hx : Makes x c R) (h : c ↔ c') : Makes x c' R where
  sound h' := ⟨h.1 (hx.sound h').1, (hx.sound h').2⟩
  complete h' := hx.complete (h.2 h')

theorem mono (hx : Makes x c R) (h : ∀ a, c → R a → R' a) : Makes x c R' where
  sound h' := ⟨(hx.sound h').1, h _ (hx.sound h').1 (hx.sound h').2⟩
  complete := hx.complete

/-- After a step that always succeeds. -/
theorem after {f : α → Parser β} {T : β → Prop} (hx : Makes x True R)
    (hf : ∀ a, R a → Makes (f a) c' T) : Makes (x >>= f) c' T :=
  (hx.bind hf).congr (by simp)

/-- Followed by a step that always succeeds. -/
theorem before {f : α → Parser β} {T : β → Prop} (hx : Makes x c R)
    (hf : ∀ a, R a → Makes (f a) True T) : Makes (x >>= f) c T :=
  (hx.bind hf).congr (by simp)

end Makes

/-! ### Steps -/

section Steps

variable {s : Setting}

theorem noteTypes_makes (ts : List Ty) : Makes (noteTypes ts) True fun _ => True where
  sound _ := ⟨trivial, trivial⟩
  complete _ _ := ⟨_, _, rfl⟩

theorem push_makes (form : Form Expr) (span : Span) (t : Ty) :
    Makes (push form span t) True fun e => ∃ n, e = .node n span t form where
  sound h := by
    cases h
    exact ⟨trivial, _, rfl⟩
  complete _ _ := ⟨_, _, rfl⟩

variable (hfold : s.options.fold = false)

include hfold

theorem fold_eq (e : Expr) : fold s e = pure e := by
  unfold fold
  rw [hfold]
  rfl

theorem pushFold_makes (form : Form Expr) (span : Span) (t : Ty) :
    Makes (do fold s (← push form span t)) True fun e => ∃ n, e = .node n span t form := by
  refine (push_makes form span t).after fun e he => ?_
  rw [fold_eq hfold]
  exact .pure he

theorem convert_makes (e : Expr) (target : Ty) (context : String) (line : Nat) :
    Makes (convert s e target context line) (s.registry.accepts e.type target = true) fun a =>
      s.registry.accepts e.type target = true ∧ e.Passed a := by
  refine Makes.mono (R := e.Passed) ?_ fun a hc ha => ⟨hc, ha⟩
  unfold convert Registry.accepts
  split
  · rename_i h
    exact (Makes.pure (.same e)).congr (by simp [h])
  · rename_i h
    cases hc : s.registry.implicitCost? e.type target with
    | none => exact Makes.refuse.congr (by simp [h, Registry.isAssignable, hc])
    | some _ =>
      refine Makes.congr (c := True) ?_ (by simp [Registry.isAssignable, hc])
      dsimp only
      split
      · rename_i hd
        refine (pushFold_makes hfold _ _ _).mono fun a _ ha => ?_
        obtain ⟨n, rfl⟩ := ha
        exact .cast e n e.span
      · exact .pure (.same e)

end Steps

end Parser

@[simp] theorem Expr.type_node (n : Nat) (span : Span) (t : Ty) (form : Form Expr) :
    (Expr.node n span t form).type = t := rfl

namespace Tree

variable {reg : Registry} {t : Tree} {e : Expr}

/-- The expression may stand for the tree. -/
structure Fits (reg : Registry) (t : Tree) (e : Expr) : Prop where
  type : t.type? reg = some e.type
  modifiable : t.isModifiable reg = e.isModifiable
  shape : t.Shapes e

/-- The item is a value that may stand for the tree. -/
def Cell (reg : Registry) (t : Tree) (i : Item) : Prop := ∃ e, i.kind = .value e ∧ t.Fits reg e

theorem Fits.operand (reg : Registry) (e : Expr) : (Tree.operand e).Fits reg e :=
  ⟨rfl, rfl, .operand e⟩

theorem Fits.valueType (h : t.Fits reg e) :
    valueType? (t.type? reg) = if e.type = .void then none else some e.type := by
  rw [h.type, valueType?, Option.filter]
  by_cases hv : e.type = .void <;> simp [hv]

/-! The type of a node, when expressions stand for its parts. -/

section Types

variable {l r : Tree} {a b : Expr}

theorem Fits.type?_index (h : t.Fits reg e) (i : Expr) : (Tree.index t i).type? reg =
    if e.type = .void then none else elementType? reg e.type i.type := by
  show ((valueType? (t.type? reg)).bind fun container => elementType? reg container i.type) = _
  rw [h.valueType]
  split <;> rfl

theorem Fits.type?_step (h : t.Fits reg e) (op : StepOp) (after : Bool) :
    (Tree.step op after t).type? reg =
      if e.isModifiable = true ∧ (stepPlan? e.type).isSome = true then some e.type else none := by
  show (if t.isModifiable reg then (t.type? reg).filter fun type => (stepPlan? type).isSome
    else none) = _
  rw [h.modifiable, h.type]
  by_cases hm : e.isModifiable = true <;> simp [hm, Option.filter]

theorem Fits.type?_unary (h : t.Fits reg e) (op : UnaryOp) : (Tree.unary op t).type? reg =
    if e.type = .void then none else unaryType? reg op e.type := by
  show (valueType? (t.type? reg)).bind (unaryType? reg op) = _
  rw [h.valueType]
  split <;> rfl

theorem Fits.type?_cast (h : t.Fits reg e) (type : Ty) : (Tree.cast type t).type? reg =
    if e.type ≠ .void ∧ (reg.explicitCast? e.type type).isSome = true then some type
    else none := by
  show ((valueType? (t.type? reg)).bind fun source =>
    if (reg.explicitCast? source type).isSome then some type else none) = _
  rw [h.valueType]
  by_cases hv : e.type = .void <;> simp [hv]

theorem Fits.type?_binary (hl : l.Fits reg a) (hr : r.Fits reg b) (op : BinaryOp) :
    (Tree.binary op l r).type? reg =
      if a.type = .void ∨ b.type = .void then none else binaryType? reg op a.type b.type := by
  show ((valueType? (l.type? reg)).bind fun left =>
    (valueType? (r.type? reg)).bind (binaryType? reg op left)) = _
  rw [hl.valueType, hr.valueType]
  by_cases hva : a.type = .void <;> by_cases hvb : b.type = .void <;> simp [hva, hvb]

theorem Fits.type?_ternary (h : t.Fits reg e) (yes no : Expr) :
    (Tree.ternary t yes no).type? reg =
      if e.type = .void ∨ yes.type = .void ∨ no.type = .void then none
      else ternaryType? reg e.type yes.type no.type := by
  show ((valueType? (t.type? reg)).bind fun condition =>
    if yes.type = .void ∨ no.type = .void then none
    else ternaryType? reg condition yes.type no.type) = _
  rw [h.valueType]
  by_cases hv : e.type = .void <;> simp [hv]

theorem Fits.type?_assign (hl : l.Fits reg a) (hr : r.Fits reg b) (op : AssignOp) :
    (Tree.assign op l r).type? reg =
      if a.isModifiable = true ∧ b.type ≠ .void then assignType? reg op a.type b.type
      else none := by
  show (if l.isModifiable reg then (l.type? reg).bind fun left =>
    (valueType? (r.type? reg)).bind (assignType? reg op left) else none) = _
  rw [hl.modifiable, hl.type, hr.valueType]
  by_cases hm : a.isModifiable = true <;> by_cases hv : b.type = .void <;> simp [hm, hv]

end Types

/-- What is built by a step is not a place. -/
theorem isModifiable_node {n : Nat} {span : Span} {type : Ty} {form : Form Expr}
    (h : form.isSettable = false) : (Expr.node n span type form).isModifiable = false := by
  simp [Expr.isModifiable, Expr.isSettable, Expr.form, h]

end Tree

namespace Parser

open TypedExpr.Tree

variable {s : Setting} {t l r : Tree} {e a b : Expr}

/-! ### Nodes -/

theorem operand_makes {i : Item} {e : Expr} (hi : i.kind = .value e) (operator : Item)
    (side : String) :
    Makes (operand s (some i) operator side) (e.type ≠ .void) fun r =>
      r = (i, e) ∧ e.type ≠ .void := by
  obtain ⟨kind, span, line⟩ := i
  cases hi
  unfold operand
  dsimp only
  split
  · rename_i hv
    exact Makes.refuse.congr (by simp [hv])
  · rename_i hv
    exact (Makes.pure ⟨rfl, hv⟩).congr (by simp [hv])

section Build

variable (hfold : s.options.fold = false)

include hfold

theorem buildUnary_makes (op : UnaryOp) (h : t.Fits s.registry e) (hv : e.type ≠ .void)
    (operator : Item) (span : Span) :
    Makes (buildUnary s op e operator span) ((unaryType? s.registry op e.type).isSome = true)
      ((Tree.unary op t).Fits s.registry) := by
  have ht := h.type?_unary op
  rw [if_neg hv] at ht
  unfold buildUnary
  refine (noteTypes_makes _).after fun _ _ => ?_
  unfold unaryType? at ht ⊢
  cases htyping : s.registry.typeUnary op e.type with
  | error _ => exact Makes.refuse.congr (by simp [Except.toOption])
  | ok typing =>
    rw [htyping] at ht
    refine Makes.congr (c := s.registry.accepts e.type typing.operand = true) ?_
      (by simp [Except.toOption])
    refine (Makes.pure rfl).after fun _ htyping => ?_
    subst htyping
    refine (convert_makes hfold _ _ _ _).before fun a ha => ?_
    refine (pushFold_makes hfold _ _ _).mono fun node _ hnode => ?_
    obtain ⟨n, rfl⟩ := hnode
    refine ⟨?_, (isModifiable_node rfl).symm, .unary h.shape ha.2⟩
    rw [ht]
    simp [Except.toOption, ha.1]

theorem buildCast_makes (type : Ty) (h : t.Fits s.registry e) (hv : e.type ≠ .void)
    (operator : Item) (span : Span) :
    Makes (buildCast s e type operator span)
      ((s.registry.explicitCast? e.type type).isSome = true)
      ((Tree.cast type t).Fits s.registry) := by
  have ht := h.type?_cast type
  unfold buildCast
  cases hc : s.registry.explicitCast? e.type type with
  | none => exact Makes.refuse.congr (by simp)
  | some plan =>
    refine ((pushFold_makes hfold _ _ _).congr (by simp)).mono fun node _ hnode => ?_
    obtain ⟨n, rfl⟩ := hnode
    refine ⟨?_, (isModifiable_node rfl).symm, .cast h.shape⟩
    rw [ht, hc, if_pos ⟨hv, rfl⟩]
    rfl

theorem buildBinary_makes (op : BinaryOp) (hl : l.Fits s.registry a) (hr : r.Fits s.registry b)
    (hva : a.type ≠ .void) (hvb : b.type ≠ .void) (operator : Item) (span : Span) :
    Makes (buildBinary s op a b operator span)
      ((binaryType? s.registry op a.type b.type).isSome = true)
      ((Tree.binary op l r).Fits s.registry) := by
  have ht := hl.type?_binary hr op
  rw [if_neg (not_or.2 ⟨hva, hvb⟩)] at ht
  unfold buildBinary
  refine (noteTypes_makes _).after fun _ _ => ?_
  unfold binaryType? at ht ⊢
  cases htyping : s.registry.typeBinary op a.type b.type with
  | error _ => exact Makes.refuse.congr (by simp [Except.toOption])
  | ok typing =>
    rw [htyping] at ht
    refine Makes.congr (c := s.registry.accepts a.type typing.left = true ∧
      s.registry.accepts b.type typing.right = true) ?_ (by simp [Except.toOption])
    refine (Makes.pure rfl).after fun _ htyping => ?_
    subst htyping
    refine (convert_makes hfold _ _ _ _).bind fun a' ha => ?_
    refine (convert_makes hfold _ _ _ _).before fun b' hb => ?_
    refine (pushFold_makes hfold _ _ _).mono fun node _ hnode => ?_
    obtain ⟨n, rfl⟩ := hnode
    refine ⟨?_, (isModifiable_node rfl).symm, .binary hl.shape ha.2 hr.shape hb.2⟩
    rw [ht]
    simp [Except.toOption, ha.1, hb.1]

theorem buildTernary_makes {yes no : Expr} (h : t.Fits s.registry e) (hv : e.type ≠ .void)
    (hy : yes.type ≠ .void) (hn : no.type ≠ .void) (operator : Item) (span : Span) :
    Makes (buildTernary s e yes no operator span)
      ((ternaryType? s.registry e.type yes.type no.type).isSome = true)
      ((Tree.ternary t yes no).Fits s.registry) := by
  have ht := h.type?_ternary yes no
  rw [if_neg (by simp [hv, hy, hn])] at ht
  have branches (c : Expr) (hc : e.Passed c) (type : Ty)
      (htype : branchType? s.registry yes.type no.type = some type)
      (ha : s.registry.accepts e.type .bool = true) :
      Makes (do
        let y ← convert s yes type "branch" operator.line
        let n ← convert s no type "branch" operator.line
        push (.ternary c y n) span type)
        ((s.registry.accepts yes.type type && s.registry.accepts no.type type) = true)
        ((Tree.ternary t yes no).Fits s.registry) := by
    refine Makes.congr ?_ (Bool.and_eq_true _ _).symm.to_iff
    refine (convert_makes hfold _ _ _ _).bind fun y hy => ?_
    refine (convert_makes hfold _ _ _ _).before fun n hn => ?_
    refine (push_makes _ _ _).mono fun node _ hnode => ?_
    obtain ⟨_, rfl⟩ := hnode
    refine ⟨?_, (isModifiable_node rfl).symm, .ternary h.shape hc hy.2 hn.2⟩
    rw [ht]
    simp [ternaryType?, htype, ha, hy.1, hn.1]
  have hcond (type : Ty) (htype : branchType? s.registry yes.type no.type = some type) :
      (s.registry.accepts e.type .bool = true ∧
        (s.registry.accepts yes.type type && s.registry.accepts no.type type) = true) ↔
      (ternaryType? s.registry e.type yes.type no.type).isSome = true := by
    simp [ternaryType?, htype, and_assoc]
  unfold buildTernary
  by_cases h₁ : s.registry.isAssignable no.type yes.type = true
  · refine ((convert_makes hfold _ _ _ _).bind fun c hc => ?_).congr
      (hcond yes.type (by simp [branchType?, h₁]))
    rw [if_pos h₁]
    exact branches c hc.2 _ (by simp [branchType?, h₁]) hc.1
  · by_cases h₂ : s.registry.isAssignable yes.type no.type = true
    · refine ((convert_makes hfold _ _ _ _).bind fun c hc => ?_).congr
        (hcond no.type (by simp [branchType?, h₁, h₂]))
      rw [if_neg h₁, if_pos h₂]
      exact branches c hc.2 _ (by simp [branchType?, h₁, h₂]) hc.1
    · refine Makes.congr (c := s.registry.accepts e.type .bool = true ∧ False)
        ((convert_makes hfold _ _ _ _).bind fun c hc => ?_)
        (by simp [ternaryType?, branchType?, h₁, h₂])
      rw [if_neg h₁, if_neg h₂]
      exact Makes.refuse_bind

theorem buildUpdate_makes (op : AssignOp) (hl : l.Fits s.registry a) (hr : r.Fits s.registry b)
    (ha : a.isModifiable = true) (hvb : b.type ≠ .void) (operator : Item) (span : Span) :
    Makes (buildUpdate s op a b operator span)
      ((assignType? s.registry op a.type b.type).isSome = true)
      ((Tree.assign op l r).Fits s.registry) := by
  have ht := hl.type?_assign hr op
  rw [if_pos ⟨ha, hvb⟩] at ht
  cases op with
  | plain =>
    refine ((convert_makes hfold _ _ _ _).before fun b' hb => ?_).congr (by simp [assignType?])
    refine (push_makes _ _ _).mono fun node _ hnode => ?_
    obtain ⟨n, rfl⟩ := hnode
    refine ⟨?_, (isModifiable_node rfl).symm, .assign hl.shape hr.shape hb.2⟩
    rw [ht]
    simp [assignType?, hb.1]
  | compound op =>
    refine (noteTypes_makes _).after fun _ _ => ?_
    unfold assignType? at ht ⊢
    dsimp only at ht ⊢
    cases htyping : s.registry.typeCompound op a.type b.type with
    | error _ => exact Makes.refuse.congr (by simp [Except.toOption])
    | ok typing =>
      rw [htyping] at ht
      refine Makes.congr (c := s.registry.accepts b.type typing.right = true) ?_
        (by simp [Except.toOption])
      refine (Makes.pure rfl).after fun _ htyping => ?_
      subst htyping
      refine (convert_makes hfold _ _ _ _).before fun b' hb => ?_
      refine (push_makes _ _ _).mono fun node _ hnode => ?_
      obtain ⟨n, rfl⟩ := hnode
      refine ⟨?_, (isModifiable_node rfl).symm, .compound hl.shape hr.shape hb.2⟩
      rw [ht]
      simp [Except.toOption, hb.1]

/-! ### Items -/

theorem buildIndex_makes {c : Item} {i : Expr} (bracket : Item) (h : t.Cell s.registry c) :
    Makes (buildIndex s c i bracket) (((Tree.index t i).type? s.registry).isSome = true)
      ((Tree.index t i).Cell s.registry) := by
  obtain ⟨e, hk, h⟩ := h
  obtain ⟨kind, span, line⟩ := c
  cases hk
  have ht := h.type?_index i
  unfold buildIndex Item.value? requireValue
  dsimp only
  by_cases hv : e.type = .void
  · rw [if_pos hv]
    exact Makes.refuse_bind.congr (by simp [ht, hv])
  · rw [if_neg hv]
    rw [if_neg hv] at ht
    refine Makes.after (R := fun _ => True) (.pure trivial) fun _ _ => ?_
    refine (noteTypes_makes _).after fun _ _ => ?_
    unfold elementType? at ht
    cases hx : s.registry.resolveIndexer e.type with
    | error _ => exact Makes.refuse.congr (by simp [ht, hx, Except.toOption])
    | ok indexer =>
      rw [hx] at ht
      refine Makes.congr (c := s.registry.accepts i.type indexer.index = true) ?_
        (by simp [ht, Except.toOption])
      refine (convert_makes hfold _ _ _ _).before fun a ha => ?_
      refine (push_makes _ _ _).after fun node hnode => ?_
      obtain ⟨n, rfl⟩ := hnode
      refine .pure ⟨_, rfl, ?_, ?_, .index h.shape ha.2⟩
      · simp [ht, Except.toOption, ha.1]
      · rw [isModifiable, h.type, Option.bind_some, hx]
        rfl

theorem applyUnary_makes (op : UnaryOp) (operator : Item) {i : Item} (h : t.Cell s.registry i)
    (rest : List Item) :
    Makes (applyUnary s op operator (i :: rest))
      (((Tree.unary op t).type? s.registry).isSome = true) fun out =>
      ∃ j, out = j :: rest ∧ (Tree.unary op t).Cell s.registry j := by
  obtain ⟨e, hk, h⟩ := h
  have ht := h.type?_unary op
  refine Makes.congr (c := e.type ≠ .void ∧ (unaryType? s.registry op e.type).isSome = true) ?_
    (by rw [ht]; split <;> simp_all)
  refine (operand_makes hk _ _).bind fun r hr => ?_
  obtain ⟨rfl, hv⟩ := hr
  refine (buildUnary_makes hfold op h hv _ _).before fun a ha => ?_
  exact .pure ⟨_, rfl, a, rfl, ha⟩

omit hfold in
theorem placeOperand_makes {i : Item} (hi : i.kind = .value e) (operator : Item) (side : String) :
    Makes (placeOperand s (some i) operator side) (e.isModifiable = true) fun r =>
      r = (i, e) ∧ e.isModifiable = true := by
  unfold placeOperand
  refine Makes.congr (c := e.type ≠ .void ∧ e.isModifiable = true)
    ((operand_makes hi _ _).bind fun r hr => ?_)
    (and_iff_right_of_imp fun hm => (Expr.isModifiable_iff.1 hm).1)
  obtain ⟨rfl, hv⟩ := hr
  dsimp only
  split
  · rename_i hm
    exact (Makes.pure ⟨rfl, hm⟩).congr (by simp [hm])
  · rename_i hm
    exact Makes.refuse.congr (by simp [hm])

omit hfold in
theorem buildStep_makes (op : StepOp) (after : Bool) (h : t.Fits s.registry e)
    (hm : e.isModifiable = true) (operator : Item) (span : Span) :
    Makes (buildStep s op after e operator span)
      (((Tree.step op after t).type? s.registry).isSome = true)
      ((Tree.step op after t).Fits s.registry) := by
  have ht := h.type?_step op after
  rw [hm] at ht
  unfold buildStep
  cases hp : stepPlan? e.type with
  | none => exact Makes.refuse.congr (by simp [ht, hp])
  | some _ =>
    refine ((push_makes _ _ _).congr (by simp [ht, hp])).mono fun node _ hnode => ?_
    obtain ⟨n, rfl⟩ := hnode
    refine ⟨?_, (isModifiable_node rfl).symm, .step h.shape⟩
    rw [ht, hp]
    rfl

omit hfold in
theorem applyStepBefore_makes (op : StepOp) (operator : Item) {i : Item}
    (h : t.Cell s.registry i) (before : Option Item) (rest : List Item) :
    Makes (applyStepBefore s op before operator (i :: rest))
      (((Tree.step op false t).type? s.registry).isSome = true) fun out =>
      ∃ j, out = j :: rest ∧ (Tree.step op false t).Cell s.registry j := by
  obtain ⟨e, hk, h⟩ := h
  have hi : (i :: rest).head?.filter (·.value?.isSome) = some i := by
    simp [Item.value?, hk]
  refine Makes.congr (c := e.isModifiable = true ∧
    ((Tree.step op false t).type? s.registry).isSome = true) ?_ ?_
  · unfold applyStepBefore
    rw [hi]
    refine Makes.after (R := fun _ => True) (.pure trivial) fun _ _ => ?_
    refine (placeOperand_makes hk _ _).bind fun r hr => ?_
    obtain ⟨rfl, hm⟩ := hr
    refine (buildStep_makes op false h hm _ _).before fun a ha => ?_
    exact .pure ⟨_, rfl, a, rfl, ha⟩
  · rw [and_iff_right_iff_imp, h.type?_step]
    intro ht
    split at ht
    · rename_i hc
      exact hc.1
    · cases ht

theorem applyBinary_makes (op : BinaryOp) (operator : Item) {i j : Item}
    (hi : l.Cell s.registry i) (hj : r.Cell s.registry j) :
    Makes (applyBinary s op (some i) operator (some j))
      (((Tree.binary op l r).type? s.registry).isSome = true)
      ((Tree.binary op l r).Cell s.registry) := by
  obtain ⟨a, hki, ha⟩ := hi
  obtain ⟨b, hkj, hb⟩ := hj
  have ht := ha.type?_binary hb op
  refine Makes.congr (c := a.type ≠ .void ∧ b.type ≠ .void ∧
    (binaryType? s.registry op a.type b.type).isSome = true) ?_ ?_
  · refine (operand_makes hki _ _).bind fun x hx => ?_
    obtain ⟨rfl, hva⟩ := hx
    refine (operand_makes hkj _ _).bind fun y hy => ?_
    obtain ⟨rfl, hvb⟩ := hy
    refine (buildBinary_makes hfold op ha hb hva hvb _ _).before fun c hc => ?_
    exact .pure ⟨c, rfl, hc⟩
  · rw [ht]
    by_cases hva : a.type = .void <;> by_cases hvb : b.type = .void <;> simp [hva, hvb]

theorem applyTernary_makes (operator : Item) {c i j : Item} {yes no : Expr}
    (hc : t.Cell s.registry c) (hi : i.kind = .value yes) (hj : j.kind = .value no)
    (rest : List Item) :
    Makes (applyTernary s (some c) operator (i :: j :: rest))
      (((Tree.ternary t yes no).type? s.registry).isSome = true) fun out =>
      ∃ k, out = k :: rest ∧ (Tree.ternary t yes no).Cell s.registry k := by
  obtain ⟨e, hk, h⟩ := hc
  have ht := h.type?_ternary yes no
  refine Makes.congr (c := e.type ≠ .void ∧ yes.type ≠ .void ∧ no.type ≠ .void ∧
    (ternaryType? s.registry e.type yes.type no.type).isSome = true) ?_ ?_
  · refine (operand_makes hk _ _).bind fun x hx => ?_
    obtain ⟨rfl, hv⟩ := hx
    refine (operand_makes hi _ _).bind fun y hy => ?_
    obtain ⟨rfl, hvy⟩ := hy
    refine (operand_makes hj _ _).bind fun z hz => ?_
    obtain ⟨rfl, hvz⟩ := hz
    refine (buildTernary_makes hfold h hv hvy hvz _ _).before fun a ha => ?_
    exact .pure ⟨_, rfl, a, rfl, ha⟩
  · rw [ht]
    by_cases hv : e.type = .void <;> by_cases hy : yes.type = .void <;>
      by_cases hn : no.type = .void <;> simp [hv, hy, hn]

theorem applyAssign_makes (op : AssignOp) (operator : Item) {i j : Item}
    (hi : l.Cell s.registry i) (hj : r.Cell s.registry j) :
    Makes (applyAssign s op (some i) operator (some j))
      (((Tree.assign op l r).type? s.registry).isSome = true)
      ((Tree.assign op l r).Cell s.registry) := by
  obtain ⟨a, hki, ha⟩ := hi
  obtain ⟨b, hkj, hb⟩ := hj
  have ht := ha.type?_assign hb op
  refine Makes.congr (c := a.isModifiable = true ∧ b.type ≠ .void ∧
    (assignType? s.registry op a.type b.type).isSome = true) ?_ ?_
  · refine (placeOperand_makes hki _ _).bind fun x hx => ?_
    obtain ⟨rfl, hm⟩ := hx
    refine (operand_makes hkj _ _).bind fun y hy => ?_
    obtain ⟨rfl, hv⟩ := hy
    refine (buildUpdate_makes hfold op ha hb hm hv _ _).before fun c hc => ?_
    exact .pure ⟨c, rfl, hc⟩
  · rw [ht]
    by_cases hm : a.isModifiable = true <;> by_cases hv : b.type = .void <;> simp [hm, hv]

end Build

end Parser

end TypedExpr
