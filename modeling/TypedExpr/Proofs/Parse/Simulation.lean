import TypedExpr.Parse.Node
import TypedExpr.Proofs.Parse.Simulates
import TypedExpr.Proofs.Typing.Rule
/-!
# Relations that parsing respects

A relation of expressions is respected by the parser if every node built from related parts is
related to the node built from the others, and folding keeps related expressions related. Whatever
the parser does, it then does alike on both sides: each function of it has one lemma here or in the
modules on items and passes, and no statement about parsing goes through the functions again.

The two sides may differ in whether operations on literals are folded.

* `Parser.Simulation`: a relation of expressions, and one of states, that the parser respects.
* `Simulation.convert`, `Simulation.buildBinary`, …: the builders respect it.
-/

namespace TypedExpr

/-- The same setting, with or without folding. -/
@[reducible] def Setting.withFold (s : Setting) (fold : Bool) : Setting :=
  { s with options := { s.options with fold := fold } }

/-- The items are the same but for the expressions in them, which are related. An index yields a
value. -/
inductive Item.Rel (R : Expr → Expr → Prop) : Item → Item → Prop
  | operator (op : Operator) (span : Span) (line : Nat) :
    Rel R ⟨.operator op, span, line⟩ ⟨.operator op, span, line⟩
  | value {e e' : Expr} (h : R e e') (span : Span) (line : Nat) :
    Rel R ⟨.value e, span, line⟩ ⟨.value e', span, line⟩
  | typeName (t : Ty) (span : Span) (line : Nat) :
    Rel R ⟨.typeName t, span, line⟩ ⟨.typeName t, span, line⟩
  | index {e e' : Expr} (h : R e e') (hv : e.type ≠ .void) (span : Span) (line : Nat) :
    Rel R ⟨.index e, span, line⟩ ⟨.index e', span, line⟩
  | cast (t : Ty) (span : Span) (line : Nat) :
    Rel R ⟨.cast t, span, line⟩ ⟨.cast t, span, line⟩

namespace Item.Rel

variable {R : Expr → Expr → Prop} {i j : Item}

theorem span (h : Item.Rel R i j) : j.span = i.span := by cases h <;> rfl

theorem line (h : Item.Rel R i j) : j.line = i.line := by cases h <;> rfl

theorem operator? (h : Item.Rel R i j) : j.operator? = i.operator? := by cases h <;> rfl

theorem endsOperand (h : Item.Rel R i j) : j.endsOperand = i.endsOperand := by cases h <;> rfl

theorem isIndex (h : Item.Rel R i j) : j.isIndex = i.isIndex := by cases h <;> rfl

theorem withValue {e e' : Expr} (h : Item.Rel R i j) (he : R e e') (span : Span) :
    Item.Rel R (i.withValue e span) (j.withValue e' span) := by
  unfold Item.withValue
  rw [h.line]
  exact .value he _ _

end Item.Rel

namespace Parser

theorem exists_fold (s : Setting) (e : Expr) (p : ParseState) :
    ∃ a q, (Parser.fold s e).run p = (.ok a, q) := by
  unfold Parser.fold
  split
  · split
    · rename_i form _
      cases form <;> exact ⟨_, _, rfl⟩
    · exact ⟨_, _, rfl⟩
  · exact ⟨_, _, rfl⟩

/-- An operation is kept as it is, or the literal of its value is pushed. -/
theorem fold_cases {s : Setting} {e a : Expr} {p q : ParseState}
    (h : (Parser.fold s e).run p = (.ok a, q)) :
    a = e ∧ q = p ∨ s.options.fold = true ∧ ∃ form c, e.folded? s.registry = some form ∧
      a = .node p.nodes.size e.span e.type form ∧ q = { p.build a with catalog := c } ∧
      c.types = p.catalog.types := by
  unfold Parser.fold at h
  split at h
  · rename_i hfold
    split at h
    · rename_i form hf
      cases form <;> (cases h; exact .inr ⟨hfold, _, _, hf, rfl, rfl, rfl⟩)
    · cases h
      exact .inl ⟨rfl, rfl⟩
  · cases h
    exact .inl ⟨rfl, rfl⟩

theorem fold_type {s : Setting} {e a : Expr} {p q : ParseState}
    (h : (Parser.fold s e).run p = (.ok a, q)) : a.type = e.type := by
  rcases fold_cases h with ⟨rfl, -⟩ | ⟨-, _, _, -, rfl, -, -⟩ <;> rfl

/-- A relation of expressions and one of states that the parser respects, the first side having the
setting `s`. Where only the second side has an integer literal, it is excused for refusing an array
with more items than that, which the first side builds. -/
structure Simulation (s : Setting) (fold : Bool) where
  state : Coupling
  expr : Expr → Expr → Prop
  position {p q : ParseState} (h : state.relates p q) : q.position = p.position
  move {p q : ParseState} (h : state.relates p q) :
    state.relates { p with position := p.position + 1 } { q with position := q.position + 1 }
  name {p q : ParseState} (h : state.relates p q) (name : String) :
    state.relates { p with catalog := p.catalog.noteName name }
      { q with catalog := q.catalog.noteName name }
  types {p q : ParseState} (h : state.relates p q) (ts : List Ty) :
    state.relates { p with catalog := p.catalog.noteTypes ts }
      { q with catalog := q.catalog.noteTypes ts }
  type {e e' : Expr} (h : expr e e') : e'.type = e.type
  span {e e' : Expr} (h : expr e e') : e'.span = e.span
  settable {e e' : Expr} (h : expr e e') : e'.isSettable = e.isSettable
  count {e e' : Expr} (h : expr e e') {n : Int64} (hn : e'.form = .int n) :
    e.form = .int n ∨ ∀ error p q number span t elem items, state.relates p q →
      error.diagnostic.code = .tooManyElements → n.toInt < (items.length : Int) →
      state.excuses error (p.nodes.push (.node number span t (.newArray elem (some e) items)))
  push {t : Ty} {f f' : Form Expr} {uses : List Use} (span : Span)
    (h : Expr.Rule s.registry s.scope t f uses) (hf : Form.Rel expr f f') :
    Simulates state expr (Parser.push f span t) (Parser.push f' span t)
  folded {e e' : Expr} (h : expr e e') :
    Simulates state expr (Parser.fold s e) (Parser.fold (s.withFold fold) e')

namespace Simulation

variable {s : Setting} {fold : Bool} (m : Simulation s fold)

/-! ### Tokens -/

theorem current : Simulates m.state Eq (current s) (current (s.withFold fold)) := by
  refine .quiet fun p token p' hp => ?_
  cases hp
  exact ⟨rfl, _, rfl, fun q hS => ⟨q, by rw [← m.position hS]; rfl, hS⟩⟩

theorem kindAfter (n : Nat) :
    Simulates m.state Eq (kindAfter s n) (kindAfter (s.withFold fold) n) := by
  refine .quiet fun p kind p' hp => ?_
  cases hp
  exact ⟨rfl, _, rfl, fun q hS => ⟨q, by rw [← m.position hS]; rfl, hS⟩⟩

theorem isAt (kind : TokenKind) :
    Simulates m.state Eq (isAt s kind) (isAt (s.withFold fold) kind) :=
  m.current.bind fun token _ h => .pure (by rw [h])

theorem noteName (name : String) : Simulates m.state Eq (noteName name) (noteName name) := by
  refine .quiet fun p _ p' hp => ?_
  cases hp
  exact ⟨rfl, (), rfl, fun q hS => ⟨_, rfl, m.name hS name⟩⟩

theorem noteTypes (ts : List Ty) : Simulates m.state Eq (noteTypes ts) (noteTypes ts) := by
  refine .quiet fun p _ p' hp => ?_
  cases hp
  exact ⟨rfl, (), rfl, fun q hS => ⟨_, rfl, m.types hS ts⟩⟩

theorem advance : Simulates m.state Eq (advance s) (advance (s.withFold fold)) := by
  refine m.current.bind ?_
  rintro token _ rfl
  refine .ite (fun _ => ?_) fun _ => .pure rfl
  refine .quiet fun p _ p' hp => ?_
  cases hp
  exact ⟨rfl, token, rfl, fun q hS => ⟨_, rfl, m.move hS⟩⟩

theorem eat (kind : TokenKind) :
    Simulates m.state Eq (eat s kind) (eat (s.withFold fold) kind) := by
  refine (m.isAt kind).bind ?_
  rintro b _ rfl
  refine .ite (fun _ => ?_) fun _ => .pure rfl
  exact m.advance.bind fun _ _ _ => .pure rfl

theorem unexpected {α β : Type} {R : α → β → Prop} {expected : String} {y : Parser β} :
    Simulates m.state R (unexpected s expected) y :=
  .of_fails fun _ _ _ hp => by cases hp

theorem expectOpening (bracket : Bracket) :
    Simulates m.state Eq (expectOpening s bracket) (expectOpening (s.withFold fold) bracket) := by
  refine (m.isAt _).bind ?_
  rintro b _ rfl
  exact .ite (fun _ => m.advance) fun _ => m.unexpected

theorem expectClosing (opened : Token) (bracket : Bracket) :
    Simulates m.state Eq (expectClosing s opened bracket)
      (expectClosing (s.withFold fold) opened bracket) := by
  refine (m.isAt _).bind ?_
  rintro b _ rfl
  exact .ite (fun _ => m.advance) fun _ => .of_fails fun _ _ _ hp => by cases hp

/-! ### Types and members -/

theorem requireValue {e e' : Expr} (h : m.expr e e') (line : Nat) :
    Simulates m.state (fun _ _ => e.type ≠ .void) (requireValue e line)
      (requireValue e' line) := by
  unfold Parser.requireValue
  rw [m.type h]
  exact .ite (fun _ => .refuse) fun hv => .pure hv

theorem resolveType (ref : TypeRef) (token : Token) :
    Simulates m.state Eq (resolveType s ref token) (resolveType (s.withFold fold) ref token) := by
  refine (m.noteTypes _).bind fun _ _ _ => ?_
  dsimp only [Setting.withFold]
  cases s.registry.resolveType ref with
  | ok t => exact .pure rfl
  | error _ => exact .refuse

theorem resolveTypes (refs : List TypeRef) (token : Token) :
    Simulates m.state Eq (resolveTypes s refs token)
      (resolveTypes (s.withFold fold) refs token) := by
  have h : List.Forall₂ Eq refs refs := List.forall₂_same.2 fun _ _ => rfl
  refine (Simulates.mapM h ?_).mono fun ts us h => (congrFun₂ List.forall₂_eq_eq_eq ts us).mp h
  rintro ref _ rfl
  exact m.resolveType ref token

theorem found {α : Type} (result : Except ResolveError α) (token : Token) (owner : Option Ty)
    (member : String) :
    Simulates m.state (fun a b => a = b ∧ result = .ok a) (found s result token owner member)
      (found (s.withFold fold) result token owner member) := by
  cases result with
  | ok a => exact .pure ⟨rfl, rfl⟩
  | error _ => exact .refuse

/-! ### Nodes -/

theorem pushed {t : Ty} {f f' : Form Expr} {uses : List Use} (span : Span)
    (h : Expr.Rule s.registry s.scope t f uses) (hf : Form.Rel m.expr f f') :
    Simulates m.state (fun e e' => m.expr e e' ∧ e.type = t) (Parser.push f span t)
      (Parser.push f' span t) := by
  refine (m.push span h hf).and fun p a q hp => ?_
  cases hp
  rfl

theorem pushFolded {t : Ty} {f f' : Form Expr} {uses : List Use} (span : Span)
    (h : Expr.Rule s.registry s.scope t f uses) (hf : Form.Rel m.expr f f') :
    Simulates m.state (fun e e' => m.expr e e' ∧ e.type = t)
      (do Parser.fold s (← Parser.push f span t))
      (do Parser.fold (s.withFold fold) (← Parser.push f' span t)) := by
  refine (m.pushed span h hf).bind ?_
  rintro e e' ⟨he, rfl⟩
  exact (m.folded he).and fun _ _ _ hp => fold_type hp

theorem convert {e e' : Expr} (h : m.expr e e') (hv : e.type ≠ .void) (target : Ty)
    (context : String) (line : Nat) :
    Simulates m.state (fun a a' => m.expr a a' ∧ s.registry.Passes e.type target a.type)
      (convert s e target context line) (convert (s.withFold fold) e' target context line) := by
  unfold Parser.convert
  rw [m.type h, m.span h]
  refine .ite (fun ht => .pure ⟨h, ?_, ?_⟩) fun _ => ?_
  · simp [Registry.isAssignable, Registry.implicitCost?, hv, ← ht]
  · rw [← ht, if_neg fun hd => by simp [hd.1] at hd]
  · cases hc : s.registry.implicitCost? e.type target with
    | none => exact .refuse
    | some _ =>
      have ha : s.registry.isAssignable e.type target = true := by
        simp [Registry.isAssignable, hc]
      refine .ite (fun hd => ?_) fun hd => .pure ⟨h, ha, (if_neg hd).symm⟩
      have hr : Expr.Rule s.registry s.scope .double (.cast .intToDouble e) [] :=
        .cast (by simp [hd.1, Registry.explicitCast?, Registry.implicitCost?]) hv
      refine (m.pushFolded e.span hr (.cast _ h)).mono fun a a' ha' => ⟨ha'.1, ha, ?_⟩
      rw [if_pos hd, ha'.2]

theorem convertAll (context : String) (line : Nat) {es es' : List Expr}
    (h : List.Forall₂ m.expr es es') (hv : ∀ e ∈ es, e.type ≠ .void) (targets : List Ty) :
    Simulates m.state
      (fun as as' => List.Forall₂ m.expr as as' ∧
        s.registry.PassesAll (es.map (·.type)) targets as)
      (convertAll s context line es targets)
      (convertAll (s.withFold fold) context line es' targets) := by
  induction h generalizing targets with
  | nil => exact .pure ⟨.nil, .nil⟩
  | @cons e e' es es' he hes ih =>
    cases targets with
    | nil => exact .pure ⟨.nil, .nil⟩
    | cons target targets =>
      refine (m.convert he (hv e (by simp)) target context line).bind fun a a' ha => ?_
      refine (ih (fun e he => hv e (by simp [he])) targets).bind fun as as' has => ?_
      exact .pure ⟨.cons ha.1 has.1, .cons ha.2 has.2⟩

theorem convertEach {es es' : List Expr} (h : List.Forall₂ m.expr es es')
    (hv : ∀ e ∈ es, e.type ≠ .void) (target : Ty) (context : String) (line : Nat) :
    Simulates m.state
      (fun as as' => List.Forall₂ m.expr as as' ∧
        List.Forall₂ (fun source a => s.registry.Passes source target a.type)
          (es.map (·.type)) as)
      (es.mapM fun e => Parser.convert s e target context line)
      (es'.mapM fun e => Parser.convert (s.withFold fold) e target context line) := by
  induction h with
  | nil => exact .pure ⟨.nil, .nil⟩
  | @cons e e' es es' he hes ih =>
    rw [List.mapM_cons, List.mapM_cons]
    refine (m.convert he (hv e (by simp)) target context line).bind fun a a' ha => ?_
    refine (ih fun e he => hv e (by simp [he])).bind fun as as' has => ?_
    exact .pure ⟨.cons ha.1 has.1, .cons ha.2 has.2⟩

end Simulation

end Parser

end TypedExpr
