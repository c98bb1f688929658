import TypedExpr.Parse
import TypedExpr.Proofs.Evaluation.Outcome
import TypedExpr.Proofs.Folding
import TypedExpr.Proofs.Typing.Overload
/-!
# What is built

The builders of operations succeed just when the operation has a typing, and then what they build
denotes the operation on its converted operands, also where a literal has been put in its place.

* `Parser.convert_ok`, `Parser.buildBinary_ok`, `Parser.buildAssign_ok`, `Parser.buildCompound_ok`:
  what is built.
* `Parser.exists_convert`, `Parser.exists_buildBinary`, …: when something is.
-/

namespace TypedExpr.Parser

variable {s : Setting} {p q : ParseState}

theorem fold_denote {e a : Expr} (h : (fold s e).run p = (.ok a, q)) :
    a.denote s.registry = e.denote s.registry := by
  rcases fold_cases h with ⟨rfl, -⟩ | ⟨-, form, _, hf, rfl, -, -⟩
  · rfl
  · exact Expr.denote_folded hf _

/-- A node, and the literal of its value where it has one. -/
theorem pushFold_ok {form : Form Expr} {span : Span} {t : Ty} {a : Expr}
    (h : (do fold s (← push form span t) : Parser Expr).run p = (.ok a, q)) :
    a.denote s.registry = .ofForm s.registry span t (form.map (Expr.denote s.registry)) := by
  obtain ⟨e, p', he, ha⟩ := run_bind_ok.1 h
  cases he
  rw [fold_denote ha, Expr.denote_node]

theorem exists_pushFold (s : Setting) (form : Form Expr) (span : Span) (t : Ty) (p : ParseState) :
    ∃ a q, (do fold s (← push form span t) : Parser Expr).run p = (.ok a, q) := by
  obtain ⟨a, q, h⟩ := exists_fold s (.node p.nodes.size span t form) _
  exact ⟨a, q, run_bind_ok.2 ⟨_, _, rfl, h⟩⟩

/-! ### Conversion -/

theorem convert_ok {e a : Expr} {target : Ty} {context : String} {line : Nat}
    (h : (convert s e target context line).run p = (.ok a, q)) (he : e.type ≠ .void) :
    s.registry.isAssignable e.type target = true ∧
      a.denote s.registry = (e.denote s.registry).converted s.registry target := by
  unfold Parser.convert at h
  split at h
  · rename_i ht
    cases h
    rw [← ht]
    refine ⟨Registry.isAssignable_self he, ?_⟩
    unfold Denoted.converted
    rw [if_neg]
    rintro ⟨hi, hd⟩
    rw [Expr.denote_type, hd] at hi
    cases hi
  · split at h
    · cases h
    · rename_i hc
      have ha : s.registry.isAssignable e.type target = true := by
        rw [Registry.isAssignable, hc]
        rfl
      unfold Denoted.converted
      rw [Expr.denote_type, Expr.denote_span]
      split at h
      · rename_i hd
        rw [if_pos hd]
        exact ⟨ha, pushFold_ok h⟩
      · rename_i hd
        cases h
        rw [if_neg hd]
        exact ⟨ha, rfl⟩

theorem exists_convert {e : Expr} {target : Ty} (s : Setting) (context : String) (line : Nat)
    (p : ParseState) (h : s.registry.isAssignable e.type target = true) :
    ∃ a q, (convert s e target context line).run p = (.ok a, q) := by
  unfold Parser.convert
  split
  · exact ⟨_, _, rfl⟩
  · obtain ⟨n, hn⟩ := Option.isSome_iff_exists.1 h
    rw [hn]
    dsimp only
    split
    · exact exists_pushFold s _ _ _ p
    · exact ⟨_, _, rfl⟩

/-! ### Operations -/

theorem typed_ok {α : Type} {result : Except OperatorError α} {operator : Item} {symbol : String}
    {operands : List Ty} {a : α} :
    (typed s result operator symbol operands).run p = (.ok a, q) ↔ result = .ok a ∧ p = q := by
  cases result with
  | ok b =>
    constructor
    · intro h
      cases h
      exact ⟨rfl, rfl⟩
    · rintro ⟨h, rfl⟩
      cases h
      rfl
  | error _ =>
    constructor
    · intro h
      cases h
    · rintro ⟨h, -⟩
      cases h

theorem buildBinary_ok {op : BinaryOp} {l r a : Expr} {operator : Item} {span : Span}
    (h : (buildBinary s op l r operator span).run p = (.ok a, q)) (hl : l.type ≠ .void)
    (hr : r.type ≠ .void) :
    ∃ typing, s.registry.typeBinary op l.type r.type = .ok typing ∧
      a.denote s.registry = .ofForm s.registry span typing.result (.binary op typing.plan
        ((l.denote s.registry).converted s.registry typing.left)
        ((r.denote s.registry).converted s.registry typing.right)) := by
  obtain ⟨_, p₁, -, h⟩ := run_bind_ok.1 h
  obtain ⟨typing, p₂, ht, h⟩ := run_bind_ok.1 h
  obtain ⟨l', p₃, hl', h⟩ := run_bind_ok.1 h
  obtain ⟨r', p₄, hr', h⟩ := run_bind_ok.1 h
  refine ⟨typing, (typed_ok.1 ht).1, ?_⟩
  rw [pushFold_ok h, ← (convert_ok hl' hl).2, ← (convert_ok hr' hr).2]
  rfl

theorem exists_buildBinary {op : BinaryOp} {l r : Expr} {typing : BinaryTyping} (s : Setting)
    (operator : Item) (span : Span) (p : ParseState)
    (h : s.registry.typeBinary op l.type r.type = .ok typing) :
    ∃ a q, (buildBinary s op l r operator span).run p = (.ok a, q) := by
  obtain ⟨hl, hr⟩ := Registry.typeBinary_assignable h
  obtain ⟨p₁, h₁⟩ : ∃ p₁, (noteTypes (s.registry.mentionedByBinary op l.type r.type)).run p =
    (.ok (), p₁) := ⟨_, rfl⟩
  obtain ⟨l', p₃, hl'⟩ := exists_convert s "left operand" operator.line p₁ hl
  obtain ⟨r', p₄, hr'⟩ := exists_convert s "right operand" operator.line p₃ hr
  obtain ⟨a, q, ha⟩ := exists_pushFold s (.binary op typing.plan l' r') span typing.result p₄
  refine ⟨a, q, run_bind_ok.2 ⟨(), p₁, h₁, run_bind_ok.2 ⟨typing, p₁, typed_ok.2 ⟨h, rfl⟩, ?_⟩⟩⟩
  exact run_bind_ok.2 ⟨l', p₃, hl', run_bind_ok.2 ⟨r', p₄, hr', ha⟩⟩

theorem buildAssign_ok {target value a : Expr} {operator : Item} {span : Span}
    (h : (buildAssign s target value operator span).run p = (.ok a, q)) (hv : value.type ≠ .void) :
    s.registry.isAssignable value.type target.type = true ∧
      a.denote s.registry = .ofForm s.registry span target.type (.assign (target.denote s.registry)
        ((value.denote s.registry).converted s.registry target.type)) := by
  obtain ⟨v, p₁, hv', h⟩ := run_bind_ok.1 h
  cases h
  refine ⟨(convert_ok hv' hv).1, ?_⟩
  rw [Expr.denote_node, ← (convert_ok hv' hv).2]
  rfl

theorem exists_buildAssign {target value : Expr} (s : Setting) (operator : Item) (span : Span)
    (p : ParseState) (h : s.registry.isAssignable value.type target.type = true) :
    ∃ a q, (buildAssign s target value operator span).run p = (.ok a, q) := by
  obtain ⟨v, p₁, hv⟩ := exists_convert s "assigned value" operator.line p h
  exact ⟨_, _, run_bind_ok.2 ⟨v, p₁, hv, rfl⟩⟩

theorem buildCompound_ok {op : BinaryOp} {target value a : Expr} {operator : Item} {span : Span}
    (h : (buildCompound s op target value operator span).run p = (.ok a, q))
    (hv : value.type ≠ .void) :
    ∃ typing, s.registry.typeCompound op target.type value.type = .ok typing ∧
      a.denote s.registry = .ofForm s.registry span target.type (.compound op typing.plan
        (target.denote s.registry)
        ((value.denote s.registry).converted s.registry typing.right)) := by
  obtain ⟨_, p₁, -, h⟩ := run_bind_ok.1 h
  obtain ⟨typing, p₂, ht, h⟩ := run_bind_ok.1 h
  obtain ⟨v, p₃, hv', h⟩ := run_bind_ok.1 h
  cases h
  refine ⟨typing, (typed_ok.1 ht).1, ?_⟩
  rw [Expr.denote_node, ← (convert_ok hv' hv).2]
  rfl

theorem exists_buildCompound {op : BinaryOp} {target value : Expr} {typing : BinaryTyping}
    (s : Setting) (operator : Item) (span : Span) (p : ParseState) (hop : op.kind ≠ .shortCircuit)
    (h : s.registry.typeCompound op target.type value.type = .ok typing) :
    ∃ a q, (buildCompound s op target value operator span).run p = (.ok a, q) := by
  have hr := (Registry.typeBinary_assignable ((Registry.typeCompound_ok hop).1 h).1).2
  obtain ⟨p₁, h₁⟩ : ∃ p₁, (noteTypes (s.registry.mentionedByCompound op target.type
    value.type)).run p = (.ok (), p₁) := ⟨_, rfl⟩
  obtain ⟨v, p₂, hv⟩ := exists_convert s "right operand" operator.line p₁ hr
  obtain ⟨a, q, ha⟩ : ∃ a q, (push (.compound op typing.plan target v) span target.type).run p₂ =
    (.ok a, q) := ⟨_, _, rfl⟩
  refine ⟨a, q, run_bind_ok.2 ⟨(), p₁, h₁, run_bind_ok.2 ⟨typing, p₁, typed_ok.2 ⟨h, rfl⟩, ?_⟩⟩⟩
  exact run_bind_ok.2 ⟨v, p₂, hv, ha⟩

/-! ### Operands -/

theorem operand_ok {item : Option Item} {operator : Item} {side : String} {r : Item × Expr} :
    (operand s item operator side).run p = (.ok r, q) ↔
      p = q ∧ ∃ i e, item = some i ∧ i.kind = .value e ∧ e.type ≠ .void ∧ r = (i, e) := by
  constructor
  · intro h
    unfold operand at h
    split at h
    · cases h
    · rename_i i
      split at h
      · rename_i e hk
        split at h
        · cases h
        · rename_i hv
          cases h
          exact ⟨rfl, i, e, rfl, hk, hv, rfl⟩
      · cases h
      · cases h
  · rintro ⟨rfl, i, e, rfl, hk, hv, rfl⟩
    unfold operand
    simp only [hk, if_neg hv]
    rfl

theorem placeOperand_ok {item : Option Item} {operator : Item} {side : String} {r : Item × Expr} :
    (placeOperand s item operator side).run p = (.ok r, q) ↔
      (operand s item operator side).run p = (.ok r, q) ∧ r.2.isModifiable = true := by
  unfold placeOperand
  rw [run_bind_ok]
  constructor
  · rintro ⟨a, p', ha, h⟩
    dsimp only at h
    split at h
    · cases h
      exact ⟨ha, ‹_›⟩
    · cases h
  · rintro ⟨h, hm⟩
    refine ⟨r, q, h, ?_⟩
    dsimp only
    rw [if_pos hm]
    rfl

theorem applyBinary_ok {op : BinaryOp} {l r : Expr} {ls rs : Span} {ll rl : Nat}
    {operator item : Item} (hl : l.type ≠ .void) :
    (applyBinary s op (some ⟨.value l, ls, ll⟩) operator (some ⟨.value r, rs, rl⟩)).run p =
        (.ok item, q) ↔
      r.type ≠ .void ∧ ∃ e, (buildBinary s op l r operator (ls.merge rs)).run p = (.ok e, q) ∧
        item = ⟨.value e, ls.merge rs, ll⟩ := by
  constructor
  · intro h
    obtain ⟨_, p₁, h₁, h⟩ := run_bind_ok.1 h
    obtain ⟨_, p₂, h₂, h⟩ := run_bind_ok.1 h
    obtain ⟨rfl, _, _, hi, hk, -, rfl⟩ := operand_ok.1 h₁
    obtain ⟨rfl, _, _, hi', hk', hr, rfl⟩ := operand_ok.1 h₂
    cases hi
    cases hi'
    cases hk
    cases hk'
    obtain ⟨e, p₃, he, h⟩ := run_bind_ok.1 h
    cases h
    exact ⟨hr, e, he, rfl⟩
  · rintro ⟨hr, e, he, rfl⟩
    have h₁ : (operand s (some ⟨.value l, ls, ll⟩) operator "left").run p = (.ok (_, l), p) :=
      operand_ok.2 ⟨rfl, _, _, rfl, rfl, hl, rfl⟩
    have h₂ : (operand s (some ⟨.value r, rs, rl⟩) operator "right").run p = (.ok (_, r), p) :=
      operand_ok.2 ⟨rfl, _, _, rfl, rfl, hr, rfl⟩
    refine run_bind_ok.2 ⟨_, p, h₁, run_bind_ok.2 ⟨_, p, h₂, ?_⟩⟩
    exact run_bind_ok.2 ⟨e, q, he, rfl⟩

end TypedExpr.Parser
