import TypedExpr.Proofs.Folding
/-!
# What folding accepts

Parsing goes by the types of expressions and by what can be set, and folding keeps both. In one
place it goes by more: the items of a new array are counted against its length if that is a literal.
Folding makes literals, so with it a length that is computed is counted against too, and the array
is refused before it would fail to be created. In everything else the parser does with folding what
it does without.

* `Parser.fold_of_fails`: an operation that fails when it is evaluated is kept.
* `Expr.Oversized`: a new array that is never created.
* `Parser.unfolding`: parsing without folding and with it, as a relation that the parser respects but
  for the refusal of such arrays.
* `Parser.accepts_withFold`: **folding accepts the same, but for arrays with too many items.**
-/

namespace TypedExpr

/-! ### What is kept -/

theorem Expr.value_of_fold {reg : Registry} {e : Expr} {v : Value} (h : e.fold? reg = some v) :
    (e.denote reg).value = pure v := by
  rw [denote_eq]
  show Eval.inside e.span ((e.form.map (denote reg)).value reg e.type) = pure v
  rw [(foldable h).value]
  rfl

/-- An operation whose evaluation fails, from whatever state, has no literal. -/
theorem Expr.folded_of_fails {reg : Registry} {e : Expr} {state state' : EvalState}
    {error : EvalError} (h : (e.denote reg).value.run state = (.error error, state')) :
    e.folded? reg = none := by
  cases hv : e.fold? reg with
  | none => simp [folded?, hv]
  | some v =>
    rw [value_of_fold hv] at h
    cases h

/-! ### Arrays that cannot be created -/

/-- An array with more items than its length is not created, whatever the items are. -/
theorem Form.newArray_fails (reg : Registry) {count : Denoted} {items : List Denoted} {n : Int64}
    (hcount : count.value = pure (.int n)) (hn : n.toInt < items.length) (elem t : Ty)
    (state : EvalState) : ∃ index length,
    ((Form.newArray elem (some count) items).value reg t).run state =
      (.error (Fault.indexOutOfRange index length).unplaced, state) := by
  have hlength : ∃ index length, Eval.arrayLength (some (.int n)) items.length =
      .error (.indexOutOfRange index length) := by
    by_cases hneg : n < 0
    · exact ⟨_, _, if_pos hneg⟩
    · have hitems : n.toInt.toNat < items.length := by
        rw [Int64.lt_iff_toInt_lt] at hneg
        change ¬n.toInt < 0 at hneg
        omega
      exact ⟨_, _, (if_neg hneg).trans (if_pos hitems)⟩
  obtain ⟨index, length, hlength⟩ := hlength
  refine ⟨index, length, ?_⟩
  rw [Form.value, Denoted.value?, hcount]
  simp only [pure_bind, hlength]
  rfl

/-- A new array that is never created: wherever it is evaluated, an index is out of range. -/
structure Expr.Oversized (reg : Registry) (e : Expr) : Prop where
  array : ∃ elem count items, e.form = .newArray elem (some count) items
  fails (state : EvalState) : ∃ index length, (e.denote reg).value.run state =
    (.error ⟨.indexOutOfRange index length, some e.span⟩, state)

theorem Expr.oversized {reg : Registry} {count : Expr} {items : List Expr} {n : Int64}
    (hcount : (count.denote reg).value = pure (.int n)) (hn : n.toInt < items.length)
    (number : Nat) (span : Span) (elem t : Ty) :
    Oversized reg (.node number span t (.newArray elem (some count) items)) := by
  refine ⟨⟨elem, count, items, rfl⟩, fun state => ?_⟩
  have hn : n.toInt < (items.map (denote reg)).length := by rwa [List.length_map]
  obtain ⟨index, length, hrun⟩ := Form.newArray_fails reg hcount hn elem t state
  refine ⟨index, length, ?_⟩
  rw [denote_node]
  change (Eval.inside span ((Form.newArray elem (some (count.denote reg))
    (items.map (denote reg))).value reg t)).run state = _
  rw [Eval.run_inside, hrun]
  rfl

namespace Parser

theorem fold_of_fails {s : Setting} {e : Expr} {state state' : EvalState} {error : EvalError}
    (h : (e.denote s.registry).value.run state = (.error error, state')) (p : ParseState) :
    (Parser.fold s e).run p = (.ok e, p) := by
  unfold Parser.fold
  rw [Expr.folded_of_fails h]
  split <;> rfl

/-! ### Without folding and with it -/

/-- Parsing without folding and with it. The second may have a literal where the first has an
operation, so it is excused for refusing an array with more items than its length if the first has
built one that cannot be created, after a number of other nodes. -/
def unfolding (s : Setting) (others : Nat) : Simulation (s.withFold false) true where
  state := ⟨fun p q => q.position = p.position ∧ others ≤ p.nodes.size, fun error nodes =>
    error.diagnostic.code = .tooManyElements ∧
      ∃ node ∈ nodes.toList.drop others, node.Oversized s.registry⟩
  expr e e' := Expr.Unfolds s.registry e' e
  position h := h.1
  move h := ⟨congrArg (· + 1) h.1, h.2⟩
  name h _ := h
  types h _ := h
  type h := h.type.symm
  span h := h.span.symm
  settable h := h.settable.symm
  count {e e'} h n hn := by
    have hcount : (e.denote s.registry).value = pure (.int n) := by
      rw [h.denotation]
      exact Expr.value_literal (by rw [hn]; rfl) s.registry
    refine .inr fun error p q number span t elem items hS hcode hless => ?_
    -- the array that the first parser builds instead is the excuse
    refine ⟨hcode, _, ?_, Expr.oversized hcount hless number span elem t⟩
    rw [Array.toList_push, List.drop_append_of_le_length hS.2]
    exact List.mem_append_right _ List.mem_cons_self
  push span _ hf := by
    refine ⟨fun hp => ?_, fun {p p' e} hp {error} he => ?_, fun {p p' q e} hS hp => ?_⟩
    · cases hp
      exact ⟨_, .node hf.swap 0 _ span _⟩
    · cases hp
      obtain ⟨hcode, node, hnode, hover⟩ := he
      refine ⟨hcode, node, ?_, hover⟩
      rw [ParseState.build_nodes, Array.toList_push, List.drop_append]
      exact List.mem_append_left _ hnode
    · cases hp
      refine .inl ⟨_, _, rfl, ⟨hS.1, ?_⟩, .node hf.swap _ _ span _⟩
      rw [ParseState.build_nodes, Array.size_push]
      exact Nat.le_succ_of_le hS.2
  folded {e e'} h := by
    refine ⟨fun hp => ?_, fun {p p' a} hp {error} he => ?_, fun {p p' q a} hS hp => ?_⟩
    · cases hp
      exact ⟨e', h⟩
    · cases hp
      exact he
    · cases hp
      obtain ⟨a', q', hq⟩ := exists_fold (s.withFold true) e' q
      refine .inl ⟨a', q', hq, ?_⟩
      rcases fold_cases hq with ⟨rfl, rfl⟩ | ⟨-, form, c, hf, rfl, rfl, -⟩
      · exact ⟨hS, h⟩
      · exact ⟨hS, h.folded hf _⟩

/-- An expression, or the lack of one, is accepted. -/
def Accepts (s : Setting) (p : ParseState) : Prop := ∃ e q, (next s).run p = (.ok e, q)

/-- Parsing fails with a diagnostic of that code. -/
def Rejects (s : Setting) (p : ParseState) (code : ErrorCode) : Prop :=
  ∃ error q, (next s).run p = (.error error, q) ∧ error.diagnostic.code = code

instance (s : Setting) (p : ParseState) : Decidable (Accepts s p) :=
  match h : (next s).run p with
  | (.ok e, q) => .isTrue ⟨e, q, h⟩
  | (.error _, _) => .isFalse fun ⟨_, _, h'⟩ => by cases h.symm.trans h'

instance (s : Setting) (p : ParseState) (code : ErrorCode) : Decidable (Rejects s p code) :=
  match h : (next s).run p with
  | (.ok _, _) => .isFalse fun ⟨_, _, h', _⟩ => by cases h.symm.trans h'
  | (.error error, q) =>
    if hc : error.diagnostic.code = code then .isTrue ⟨error, q, h, hc⟩
    else .isFalse fun ⟨_, _, h', hc'⟩ => by cases h.symm.trans h'; exact hc hc'

theorem Rejects.not_accepts {s : Setting} {p : ParseState} {code : ErrorCode}
    (h : Rejects s p code) : ¬Accepts s p := by
  obtain ⟨error, q, hp, -⟩ := h
  rintro ⟨e, q', hp'⟩
  cases hp.symm.trans hp'

theorem Accepts.unfolded {s : Setting} {p : ParseState} (h : Accepts (s.withFold true) p) :
    Accepts (s.withFold false) p := by
  obtain ⟨e, q, hp⟩ := h
  obtain ⟨e', q', hq, -⟩ | ⟨_, _, -, ⟨⟩⟩ := (folding s).next.matched ⟨rfl, rfl⟩ hp
  exact ⟨e', q', hq⟩

/-- What is accepted without folding is accepted with it, or else an array cannot be created. -/
theorem accepts_or_rejects {s : Setting} {p q : ParseState} {e : Option Expr}
    (hp : (next (s.withFold false)).run p = (.ok e, q)) :
    Accepts (s.withFold true) p ∨ Rejects (s.withFold true) p .tooManyElements ∧
      ∃ node ∈ q.nodes.toList.drop p.nodes.size, node.Oversized s.registry := by
  refine ((unfolding s p.nodes.size).next.matched ⟨rfl, Nat.le_refl _⟩ hp).imp ?_ ?_
  · rintro ⟨e', q', hq, -⟩
    exact ⟨e', q', hq⟩
  · rintro ⟨error, q', hq, hcode, hnode⟩
    exact ⟨⟨error, q', hq, hcode⟩, hnode⟩

/-- **Folding accepts the same, but for arrays with too many items.** If it refuses what is accepted
without it, one of the nodes built without it is an array that cannot be created. What fails when it
is evaluated is kept as it is, and what is accepted has the same outcome with folding and without. -/
theorem accepts_withFold (s : Setting) (p : ParseState) :
    (Accepts (s.withFold true) p ↔
      Accepts (s.withFold false) p ∧ ¬Rejects (s.withFold true) p .tooManyElements) ∧
    (∀ e q, (next (s.withFold false)).run p = (.ok e, q) → ¬Accepts (s.withFold true) p →
      ∃ node ∈ q.nodes.toList.drop p.nodes.size, node.Oversized s.registry) ∧
    (∀ e error state state', (e.denote s.registry).value.run state = (.error error, state') →
      ∀ fold, (Parser.fold (s.withFold fold) e).run p = (.ok e, p)) ∧
    ∀ e e' q q', (next (s.withFold true)).run p = (.ok (some e), q) →
      (next (s.withFold false)).run p = (.ok (some e'), q') →
      ∀ state, (e'.denote s.registry).value.run state = (e.denote s.registry).value.run state := by
  refine ⟨⟨fun h => ⟨h.unfolded, fun hr => hr.not_accepts h⟩, ?_⟩, ?_, ?_, ?_⟩
  · rintro ⟨⟨e, q, hp⟩, hr⟩
    exact (accepts_or_rejects hp).resolve_right fun h => hr h.1
  · intro e q hp hrefused
    exact ((accepts_or_rejects hp).resolve_left hrefused).2
  · intro e error state state' h fold
    exact fold_of_fails (s := s.withFold fold) h p
  · intro e e' q q' hp hp' state
    obtain ⟨_, _, hq, -, he⟩ | ⟨_, _, -, ⟨⟩⟩ := (folding s).next.matched ⟨rfl, rfl⟩ hp
    cases hp'.symm.trans hq
    cases he with
    | some he => rw [he.denotation]

end Parser

/-- `1 / 0`. -/
def Setting.quotient : Setting where
  registry := .primitive
  scope := .empty
  options := .standard
  tokens := .ofTokens
    #[.unplaced (.int 1), .unplaced (.operator (.binary .div)), .unplaced (.int 0)]

/-- The expression that `1 / 0` is. -/
def Expr.quotient : Expr :=
  .node 2 .nowhere .int (.binary .div .int (.node 0 .nowhere .int (.int 1))
    (.node 1 .nowhere .int (.int 0)))

/-- The division is kept with folding, and fails on both paths. -/
theorem Parser.accepts_withFold_quotient :
    Accepts (Setting.quotient.withFold true) (.start .initial) ∧
    (∀ fold, (Parser.fold (Setting.quotient.withFold fold) .quotient).run (.start .initial) =
      (.ok .quotient, .start .initial)) ∧
    ∃ e' q', (next (Setting.quotient.withFold false)).run (.start .initial) = (.ok (some e'), q') ∧
      ∀ state, (e'.denote .primitive).value.run state =
        (.error ⟨.divisionByZero, some .nowhere⟩, state) := by
  have hfails (state : EvalState) : (Expr.quotient.denote .primitive).value.run state =
    (.error ⟨.divisionByZero, some .nowhere⟩, state) := rfl
  obtain ⟨q, hp⟩ : ∃ q, (next (Setting.quotient.withFold true)).run (.start .initial) =
    (.ok (some .quotient), q) := ⟨_, rfl⟩
  obtain ⟨e', q', hp'⟩ : ∃ e' q', (next (Setting.quotient.withFold false)).run (.start .initial) =
    (.ok (some e'), q') := ⟨_, _, rfl⟩
  obtain ⟨-, -, hkept, halike⟩ := accepts_withFold Setting.quotient (.start .initial)
  refine ⟨⟨_, q, hp⟩, hkept _ _ ⟨.of .empty, default⟩ _ (hfails _), e', q', hp', fun state => ?_⟩
  rw [← hfails state]
  exact halike _ e' q q' hp hp' state

/-- `new int[1 + 1]` with the items 1, 2 and 3. -/
def Setting.oversized : Setting where
  registry := .primitive
  scope := .empty
  options := .standard
  tokens := .ofTokens (#[.new, .type (.named "int" []), .opening .square, .int 1,
    .operator (.binary .add), .int 1, .closing .square, .opening .brace, .int 1, .comma, .int 2,
    .comma, .int 3, .closing .brace].map .unplaced)

/-- Folding refuses what is accepted without it. -/
theorem Parser.rejects_oversized : Accepts (Setting.oversized.withFold false) (.start .initial) ∧
    Rejects (Setting.oversized.withFold true) (.start .initial) .tooManyElements := by
  decide +kernel

end TypedExpr
