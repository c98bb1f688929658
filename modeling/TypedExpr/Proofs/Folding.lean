import TypedExpr.Eval
import TypedExpr.Proofs.Parse.Passes
/-!
# Folding keeps meanings

A literal that stands for an operation denotes what the operation denotes. So the two expressions
that come of the same tokens, with folding and without, denote the same: they are built side by
side, and the denotation of a node depends on the denotations of its parts alone.

* `Expr.denote_folded`: the literal for one operation.
* `Parser.folding`: folding as a relation that the parser respects.
* `Parser.next_unfolded`: **folding preserves meaning.**
-/

namespace TypedExpr

/-! ### Literals -/

namespace Form

theorem literal?_ofValue {α : Type} {v : Value} {form : Form α} (h : ofValue? v = some form) :
    form.literal? = some v := by
  cases v <;> cases h <;> rfl

theorem value_literal {form : Form Denoted} {v : Value} (h : form.literal? = some v)
    (reg : Registry) (t : Ty) : form.value reg t = pure v := by
  cases form <;> cases h <;> rfl

theorem place_literal {form : Form Denoted} {v : Value} (h : form.literal? = some v)
    (span : Span) (t : Ty) :
    form.place span t = throw ⟨.typeMismatch "settable expression" "value", some span⟩ := by
  cases form <;> cases h <;> rfl

theorem isSettable_literal {α : Type} {form : Form α} {v : Value} (h : form.literal? = some v) :
    form.isSettable = false := by
  cases form <;> cases h <;> rfl

theorem isExecutable_literal {α : Type} {form : Form α} {v : Value} (h : form.literal? = some v)
    (t : Ty) : form.isExecutable t = false := by
  cases form <;> cases h <;> rfl

end Form

namespace Expr

theorem denote_eq (reg : Registry) (e : Expr) :
    e.denote reg = .ofForm reg e.span e.type (e.form.map (denote reg)) := by
  obtain ⟨number, span, t, form⟩ := e
  exact denote_node reg number span t form

@[simp] theorem denote_type (reg : Registry) (e : Expr) : (e.denote reg).type = e.type := by
  rw [denote_eq]
  rfl

@[simp] theorem denote_span (reg : Registry) (e : Expr) : (e.denote reg).span = e.span := by
  rw [denote_eq]
  rfl

theorem value_literal {e : Expr} {v : Value} (h : e.form.literal? = some v) (reg : Registry) :
    (e.denote reg).value = pure v := by
  have hf : (e.form.map (denote reg)).literal? = some v := by rw [Form.literal?_map, h]
  rw [denote_eq]
  show Eval.inside e.span ((e.form.map (denote reg)).value reg e.type) = pure v
  rw [Form.value_literal hf]
  rfl

/-! ### One operation -/

theorem ok_of_toOption {ε α : Type} {x : Except ε α} {a : α} (h : x.toOption = some a) :
    x = .ok a := by
  cases x with
  | ok b => exact congrArg _ (Option.some.inj h)
  | error _ => cases h

theorem value_unary {op : UnaryOp} {plan : UnaryPlan} {a : Expr} {w : Value} (reg : Registry)
    (hp : ∀ callable, plan ≠ .overload callable) (ha : a.form.literal? = some w) (t : Ty) :
    (Form.unary op plan (a.denote reg)).value reg t = Eval.lift (plainUnary op plan w) := by
  have happly : reg.applyUnary op plan w t = Run.lift (plainUnary op plan w) := by
    cases plan with
    | overload callable => exact absurd rfl (hp callable)
    | _ => rfl
  show (a.denote reg).value >>= (fun v => Eval.inWorld (reg.applyUnary op plan v t)) = _
  rw [value_literal ha, pure_bind, happly]
  rfl

theorem toText_literal {e : Expr} {v : Value} (h : e.form.literal? = some v) (reg : Registry) :
    reg.toText v = pure v.text := by
  obtain ⟨_, _, _, form⟩ := e
  cases form <;> cases h <;> rfl

section Binary

variable {op : BinaryOp} {plan : BinaryPlan} {l r : Expr} {a b : Value} (reg : Registry)
  (hp : ∀ callable, plan ≠ .overload callable) (ha : l.form.literal? = some a)
  (hb : r.form.literal? = some b)

include hp ha hb

/-- Both operands are evaluated, unless the left one may decide. -/
theorem value_binary_eager (hs : ¬(op.kind = .shortCircuit ∧ plan = .bool)) (t : Ty) :
    (Form.binary op plan (l.denote reg) (r.denote reg)).value reg t =
      Eval.lift (plainBinary op plan a b) := by
  have happly : reg.applyBinary op plan a b t = Run.lift (plainBinary op plan a b) := by
    cases plan with
    | overload callable => exact absurd rfl (hp callable)
    | concat =>
      rw [Registry.applyBinary, toText_literal ha, toText_literal hb]
      rfl
    | _ => rfl
  rw [Form.value, value_literal ha, value_literal hb, pure_bind, if_neg hs, pure_bind, happly]
  rfl

/-- The right operand counts, even where the left one decides, if it is a truth value. -/
theorem value_binary
    (hbool : plan = .bool → (∃ x, a.toBool = .ok x) ∧ ∃ y, b.toBool = .ok y) (t : Ty) :
    (Form.binary op plan (l.denote reg) (r.denote reg)).value reg t =
      Eval.lift (plainBinary op plan a b) := by
  by_cases hs : op.kind = .shortCircuit ∧ plan = .bool
  · obtain ⟨hop, rfl⟩ := hs
    obtain ⟨⟨x, hx⟩, y, hy⟩ := hbool rfl
    have hplain : plainBinary op .bool a b = boolBinary op x y := by
      simp only [plainBinary, hx, hy, bind, Except.bind]
    have hlift (z : Bool) : Eval.lift (.ok z : Except Fault Bool) = pure z := rfl
    rw [Form.value, value_literal ha, value_literal hb, pure_bind, if_pos ⟨hop, rfl⟩]
    simp only [hx, hy, hlift, pure_bind, hplain]
    cases op <;> simp only [BinaryOp.kind, reduceCtorEq] at hop <;> cases x <;> rfl
  · exact value_binary_eager reg hp ha hb hs t

end Binary

/-- An operation by the plan of truth values succeeds on these only. -/
theorem exists_toBool {op : BinaryOp} {a b v : Value} (h : plainBinary op .bool a b = .ok v) :
    (∃ x, a.toBool = .ok x) ∧ ∃ y, b.toBool = .ok y := by
  cases hx : a.toBool with
  | error _ => simp [plainBinary, hx, bind, Except.bind] at h
  | ok x =>
    cases hy : b.toBool with
    | error _ => simp [plainBinary, hx, hy, bind, Except.bind] at h
    | ok y => exact ⟨⟨x, rfl⟩, y, rfl⟩

theorem value_cast {plan : CastPlan} {a : Expr} {w : Value} (reg : Registry)
    (hp : ∀ callable, plan ≠ .host callable) (ha : a.form.literal? = some w) (t : Ty) :
    (Form.cast plan (a.denote reg)).value reg t = Eval.lift (reg.castValue plan w) := by
  have happly : reg.applyCast plan w t = Run.lift (reg.castValue plan w) := by
    cases plan with
    | host callable => exact absurd rfl (hp callable)
    | _ => rfl
  show (a.denote reg).value >>= (fun v => Eval.inWorld (reg.applyCast plan v t)) = _
  rw [value_literal ha, pure_bind, happly]
  rfl

/-- What is known of an operation that has a value before evaluation. -/
structure Foldable (reg : Registry) (e : Expr) (v : Value) : Prop where
  value : (e.form.map (denote reg)).value reg e.type = pure v
  place : ∀ span t, (e.form.map (denote reg)).place span t =
    throw ⟨.typeMismatch "settable expression" "value", some span⟩
  settable : e.form.isSettable = false
  executable : e.form.isExecutable e.type = false

theorem foldable {reg : Registry} {e : Expr} {v : Value} (h : e.fold? reg = some v) :
    Foldable reg e v := by
  obtain ⟨number, span, t, form⟩ := e
  cases form with
  | unary op plan a =>
    refine ⟨?_, fun _ _ => rfl, rfl, rfl⟩
    cases plan with
    | overload _ => cases h
    | _ =>
      obtain ⟨w, hw, hv⟩ := Option.bind_eq_some_iff.1 h
      exact (value_unary reg (by simp) hw t).trans (congrArg Eval.lift (ok_of_toOption hv))
  | binary op plan l r =>
    refine ⟨?_, fun _ _ => rfl, rfl, rfl⟩
    cases plan with
    | overload _ => cases h
    | _ =>
      obtain ⟨a, ha, h⟩ := Option.bind_eq_some_iff.1 h
      obtain ⟨b, hb, hv⟩ := Option.bind_eq_some_iff.1 h
      have hv := ok_of_toOption hv
      refine (value_binary reg (by simp) ha hb (fun hplan => ?_) t).trans (congrArg Eval.lift hv)
      rw [hplan] at hv
      exact exists_toBool hv
  | cast plan a =>
    refine ⟨?_, fun _ _ => rfl, rfl, rfl⟩
    cases plan with
    | checked _ => cases h
    | host _ => cases h
    | _ =>
      obtain ⟨w, hw, hv⟩ := Option.bind_eq_some_iff.1 h
      exact (value_cast reg (by simp) hw t).trans (congrArg Eval.lift (ok_of_toOption hv))
  | _ => cases h

/-- The literal that stands for an operation denotes what the operation denotes. -/
theorem denote_folded {reg : Registry} {e : Expr} {form : Form Expr}
    (h : e.folded? reg = some form) (number : Nat) :
    (Expr.node number e.span e.type form).denote reg = e.denote reg := by
  obtain ⟨v, hv, hform⟩ := Option.bind_eq_some_iff.1 h
  have hf := foldable hv
  split at hform
  · have hl : (form.map (denote reg)).literal? = some v := by
      rw [Form.literal?_map, Form.literal?_ofValue hform]
    rw [denote_node, denote_eq]
    unfold Denoted.ofForm
    rw [Form.value_literal hl, Form.place_literal hl, hf.value, hf.place]
  · cases hform

/-! ### The two expressions -/

/-- The second expression, built without folding, may be used wherever the first may. Only the
second may be an operation where the first is an integer literal. -/
structure Unfolds (reg : Registry) (e e' : Expr) : Prop where
  denotation : e'.denote reg = e.denote reg
  settable : e'.isSettable = e.isSettable
  executable : e'.isExecutable = e.isExecutable
  literal (n : Int64) (h : e'.form = .int n) : e.form = .int n

namespace Unfolds

variable {reg : Registry} {e e' : Expr}

theorem type (h : Unfolds reg e e') : e'.type = e.type := by
  rw [← denote_type reg e', h.denotation, denote_type]

theorem span (h : Unfolds reg e e') : e'.span = e.span := by
  rw [← denote_span reg e', h.denotation, denote_span]

/-- Alike forms with parts that denote the same denote the same. -/
theorem node {f f' : Form Expr} (h : Form.Rel (Unfolds reg) f f') (m n : Nat) (span : Span)
    (t : Ty) : Unfolds reg (.node m span t f) (.node n span t f') := by
  have hmap : f.map (denote reg) = f'.map (denote reg) := h.map_eq fun _ _ h => h.denotation.symm
  refine ⟨?_, ?_, ?_, fun k hk => ?_⟩
  · rw [denote_node, denote_node, hmap]
  · show f'.isSettable = f.isSettable
    rw [← Form.isSettable_map (denote reg) f', ← hmap, Form.isSettable_map]
  · show f'.isExecutable t = f.isExecutable t
    rw [← Form.isExecutable_map (denote reg) t f', ← hmap, Form.isExecutable_map]
  · obtain rfl : f' = .int k := hk
    cases f <;> simp only [Form.map, reduceCtorEq, Form.int.injEq] at hmap
    subst hmap
    rfl

theorem folded {form : Form Expr} (h : Unfolds reg e e') (hf : e.folded? reg = some form)
    (n : Nat) : Unfolds reg (.node n e.span e.type form) e' := by
  obtain ⟨v, hv, hform⟩ := Option.bind_eq_some_iff.1 hf
  have he := foldable hv
  split at hform
  · have hl := Form.literal?_ofValue hform
    refine ⟨h.denotation.trans (denote_folded hf n).symm, ?_, ?_, fun k hk => ?_⟩
    · rw [h.settable]
      exact he.settable.trans (Form.isSettable_literal hl).symm
    · rw [h.executable]
      exact he.executable.trans (Form.isExecutable_literal hl e.type).symm
    · have hk := h.literal k hk
      obtain ⟨_, _, _, _⟩ := e
      cases hk
      cases hv
  · cases hform

end Unfolds

end Expr

namespace Parser

theorem noteTypes_types {c d : Catalog} (h : d.types = c.types) (ts : List Ty) :
    (d.noteTypes ts).types = (c.noteTypes ts).types := by
  unfold Catalog.noteTypes
  induction ts generalizing c d with
  | nil => exact h
  | cons t ts ih =>
    refine ih ?_
    show (d.types.note t).2 = (c.types.note t).2
    rw [h]

/-- Parsing with folding and without: the parser is at the same token, the same types have numbers,
and the expressions denote the same. -/
def folding (s : Setting) : Simulation (s.withFold true) false where
  state := ⟨fun p q => q.position = p.position ∧ q.catalog.types = p.catalog.types,
    fun _ _ => False⟩
  expr := Expr.Unfolds s.registry
  position h := h.1
  move h := ⟨congrArg (· + 1) h.1, h.2⟩
  name h _ := h
  types h ts := ⟨h.1, noteTypes_types h.2 ts⟩
  type h := h.type
  span h := h.span
  settable h := h.settable
  count h _ hn := .inl (h.literal _ hn)
  push span _ hf := by
    refine ⟨fun hp => ?_, fun _ _ he => he, fun {p p' q e} hS hp => ?_⟩
    · cases hp
      exact ⟨_, .node hf _ 0 span _⟩
    · cases hp
      exact .inl ⟨_, _, rfl, hS, .node hf _ _ span _⟩
  folded h := by
    refine ⟨fun hp => ?_, fun _ _ he => he, fun {p p' q e} hS hp => ?_⟩
    · rcases fold_cases hp with ⟨rfl, -⟩ | ⟨-, form, c, hf, rfl, -, -⟩
      · exact ⟨_, h⟩
      · exact ⟨_, h.folded hf _⟩
    · rcases fold_cases hp with ⟨rfl, rfl⟩ | ⟨-, form, c, hf, rfl, rfl, hc⟩
      · exact .inl ⟨_, q, rfl, hS, h⟩
      · exact .inl ⟨_, q, rfl, ⟨hS.1, hS.2.trans hc.symm⟩, h.folded hf _⟩

end Parser

/-- Two expressions can be used for the same, and every use of them comes to the same: the result or
the error with its span, the variables, the heap and the calls of the host. -/
structure Expr.SameMeaning (reg : Registry) (e e' : Expr) : Prop where
  type : e'.type = e.type
  gettable : e'.isGettable = e.isGettable
  settable : e'.isSettable = e.isSettable
  modifiable : e'.isModifiable = e.isModifiable
  executable : e'.isExecutable = e.isExecutable
  value (state : EvalState) : (e'.denote reg).value.run state = (e.denote reg).value.run state
  store (v : Value) (state : EvalState) :
    ((e'.denote reg).store reg v).run state = ((e.denote reg).store reg v).run state

theorem Expr.Unfolds.sameMeaning {reg : Registry} {e e' : Expr} (h : Unfolds reg e e') :
    SameMeaning reg e e' := by
  have hg : e'.isGettable = e.isGettable := by
    unfold isGettable
    rw [h.type]
  refine ⟨h.type, hg, h.settable, ?_, h.executable, fun _ => by rw [h.denotation],
    fun _ _ => by rw [h.denotation]⟩
  unfold isModifiable
  rw [hg, h.settable]

/-- **Folding preserves meaning.** What is accepted with folding is accepted without, up to the same
token, and means the same. -/
theorem Parser.next_unfolded (s : Setting) {p q : ParseState} {e : Option Expr}
    (h : (next (s.withFold true)).run p = (.ok e, q)) :
    ∃ e' q', (next (s.withFold false)).run p = (.ok e', q') ∧ q'.position = q.position ∧
      q'.catalog.types = q.catalog.types ∧ Option.Rel (Expr.SameMeaning s.registry) e e' := by
  obtain ⟨e', q', hq, hS, he⟩ | ⟨_, _, -, ⟨⟩⟩ := (folding s).next.matched ⟨rfl, rfl⟩ h
  refine ⟨e', q', hq, hS.1, hS.2, ?_⟩
  cases he with
  | none => exact .none
  | some he => exact .some he.sameMeaning

/-- `1 + 2`, of which folding makes a literal. -/
def Setting.sum : Setting where
  registry := .primitive
  scope := .empty
  options := .standard
  tokens := .ofTokens #[.unplaced (.int 1), .unplaced (.operator (.binary .add)), .unplaced (.int 2)]

theorem Parser.next_unfolded_sum :
    ∃ e' q', (next (Setting.sum.withFold false)).run (.start .initial) = (.ok e', q') ∧
      q'.position = 3 ∧ Option.Rel (Expr.SameMeaning .primitive)
        (some (.node 3 .nowhere .int (.int 3))) e' := by
  obtain ⟨e', q', h, hp, -, he⟩ := next_unfolded Setting.sum
    (p := .start .initial) (e := some (.node 3 .nowhere .int (.int 3))) rfl
  exact ⟨e', q', h, hp, he⟩

end TypedExpr
