import TypedExpr.Proofs.Depth.Collection
import TypedExpr.Proofs.Extent
/-!
# The limit of nesting

Expressions may nest down to a limit only. The limit makes no other difference: what is parsed
within one limit is parsed in the same way within every greater one, also where it fails, and it is
parsed just within the limits that are no less than its depth.

* `Setting.withDepth`: the setting with another limit.
* `Parser.graded_expression`: an expression takes as many levels as its tokens nest.
* `Parser.next_depth`: **the limit of nesting is the only thing that it changes.**
-/

namespace TypedExpr

/-- The same setting with another limit of nesting. -/
@[reducible] def Setting.withDepth (s : Setting) (limit : Nat) : Setting :=
  { s with options := { s.options with maxDepth := limit } }

namespace Parser

variable {s : Setting} {n m limit : Nat} {p q : ParseState}

/-! ### Only one message names the limit -/

section

variable (sub : Parser (Option Expr))

theorem arguments_withDepth : arguments (s.withDepth limit) sub = arguments s sub := by
  delta arguments restOfArguments
  rfl

theorem initializer_withDepth : initializer (s.withDepth limit) sub = initializer s sub := by
  delta initializer restOfInitializer
  rfl

theorem convertAll_withDepth : convertAll (s.withDepth limit) = convertAll s := by
  delta convertAll
  rfl

theorem collectMember_withDepth : collectMember (s.withDepth limit) sub = collectMember s sub := by
  delta collectMember member methodCall
  simp only [arguments_withDepth, convertAll_withDepth]
  rfl

theorem construct_withDepth : construct (s.withDepth limit) sub = construct s sub := by
  delta construct newArray newObject arrayItems insertedItems constructorArguments
  simp only [arguments_withDepth, initializer_withDepth, convertAll_withDepth]
  rfl

theorem collectName_withDepth : collectName (s.withDepth limit) sub = collectName s sub := by
  delta collectName globalCall
  simp only [arguments_withDepth, convertAll_withDepth]
  rfl

theorem collectNext_withDepth : collectNext (s.withDepth limit) sub = collectNext s sub := by
  delta collectNext
  simp only [collectMember_withDepth, construct_withDepth, collectName_withDepth]
  rfl

theorem collectFrom_withDepth (k : Nat) (items : List Item) :
    collectFrom (s.withDepth limit) sub k items = collectFrom s sub k items := by
  induction k generalizing items with
  | zero => rfl
  | succ k ih =>
    simp only [collectFrom, collectNext_withDepth, ih]
    rfl

theorem collect_withDepth : collect (s.withDepth limit) sub = collect s sub :=
  collectFrom_withDepth sub _ _

end

theorem applyOperators_withDepth : applyOperators (s.withDepth limit) = applyOperators s := by
  delta applyOperators applyPasses applyIndexes applyStepsAfter applyStepsBefore applyPrefixes
    applyCasts applyCastsFrom applyNot applyLeftward applyRightward applyTernaries applyAssignments
  rfl

/-! ### Expressions -/

/-- Nothing more is collected at a token that ends the expression. -/
theorem collectFrom_of_ends {sub : Parser (Option Expr)} {k : Nat} {items items' : List Item}
    (hend : (s.tokens.get p.position).kind.isTerminator = true)
    (h : (collectFrom s sub k items).run p = (.ok items', q)) : items' = items.reverse := by
  cases k with
  | zero =>
    cases h
    rfl
  | succ k =>
    obtain ⟨token, p₁, ht, h⟩ := run_bind_ok.1 h
    cases ht
    rw [if_pos hend] at h
    cases h
    rfl

/-- A type that is followed by the end of the expression is all that is collected. -/
theorem collect_type {sub : Parser (Option Expr)} {ref : TypeRef}
    (hk : (s.tokens.get p.position).kind = .type ref)
    (hend : (s.tokens.get (p.position + 1)).kind.isTerminator = true) {items : List Item}
    (h : (collect s sub).run p = (.ok items, q)) :
    ∃ t span line, items = [⟨.typeName t, span, line⟩] := by
  have hopen : ¬(s.tokens.get p.position).kind.isTerminator = true := by
    rw [hk]
    exact Bool.false_ne_true
  have hadvance : Follows s s.tokens p _ (advance s) (advance s) :=
    .advance (show (s.tokens.get p.position).kind ≠ .eof from hk ▸ nofun)
  have hresolve (token : Token) : Follows s s.tokens p.moved _ (resolveType s ref token)
      (resolveType s ref token) := .resolveType ref token p.moved
  obtain ⟨token, p₁, ht, h⟩ := run_bind_ok.1 h
  cases ht
  rw [if_neg hopen] at h
  obtain ⟨items', p₂, hnext, h⟩ := run_bind_ok.1 h
  obtain ⟨token, p₁, ht, hnext⟩ := run_bind_ok.1 hnext
  cases ht
  rw [hk] at hnext
  obtain ⟨token, p₁, ht, hnext⟩ := run_bind_ok.1 hnext
  obtain ⟨-, ⟨-, rfl⟩, -⟩ := hadvance token p₁ ht
  obtain ⟨t, p₁, ht, hnext⟩ := run_bind_ok.1 hnext
  obtain ⟨-, hstill, -⟩ := hresolve _ t p₁ ht
  cases hnext
  rw [← p.moved_position, ← hstill.1] at hend
  exact ⟨_, _, _, collectFrom_of_ends hend h⟩

/-- A type is no value. -/
theorem applyOperators_type {t : Ty} {span : Span} {line : Nat} {root : Option Expr} :
    (applyOperators s [⟨.typeName t, span, line⟩]).run p ≠ (.ok root, q) := by
  intro h
  cases h

/-- What has been parsed begins with an expression. -/
theorem begins_of_some {levels : Nat} {e : Expr}
    (h : (expression s levels).run p = (.ok (some e), q)) : s.tokens.Begins p.position := by
  cases levels with
  | zero => cases h
  | succ levels =>
    have h : (do applyOperators s (← collect s (expression s levels)) : Parser _).run p =
        (.ok (some e), q) := h
    obtain ⟨items, p₁, hc, ho⟩ := run_bind_ok.1 h
    constructor
    · by_contra hend
      rw [Bool.not_eq_false] at hend
      rw [collectFrom_of_ends hend hc] at ho
      cases ho
    · intro ref hk
      by_contra hend
      rw [Bool.not_eq_false] at hend
      obtain ⟨t, span, line, rfl⟩ := collect_type hk hend hc
      exact applyOperators_type ho

/-- What is known when what has been parsed stands inside another expression. -/
theorem inside_of_some {levels d : Nat} {e : Expr}
    (h : (expression s levels).run p = (.ok (some e), q))
    (hd : s.tokens.Piece [] p.position q.position d) : Inside s p q d := by
  obtain ⟨-, hparses, -⟩ := local_expression s s.tokens levels p _ q h
  exact ⟨begins_of_some h, hd, hparses.ends, hparses.lt rfl⟩

/-- The items up to a token that ends the expression, and the operators between them. -/
theorem Deepens.operators {sub sub' : Parser (Option Expr)} (hsub : Deepens s n m sub sub')
    (hlocal : Local s s.tokens sub sub) (p : ParseState) :
    Graded n m p (fun _ q d => s.tokens.Piece [] p.position q.position d)
      (do applyOperators s (← Parser.collect s sub))
      (do applyOperators s (← Parser.collect s sub')) := by
  refine (hsub.collect hlocal p).andThen fun items q => ?_
  have hblind : Follows s s.tokens q (fun _ r => r.position = q.position)
      (applyOperators s items) (applyOperators s items) := .blind rfl fun root r hr =>
    have hpos := (applyOperators_builds hr).position
    ⟨hpos.ge, hpos⟩
  refine (Graded.fixed s hblind).mono ?_
  rintro root r _ ⟨hr, rfl⟩
  show s.tokens.Piece [] q.position r.position 0
  rw [hr]
  exact .refl _ _ _

/-- One level of an expression within another limit. -/
theorem expression_withDepth (s : Setting) (limit levels : Nat) :
    expression (s.withDepth limit) (levels + 1) =
      (do applyOperators s (← collect s (expression (s.withDepth limit) levels))) := by
  rw [← applyOperators_withDepth, ← collect_withDepth]
  rfl

/-- **An expression takes as many levels as its tokens nest.** -/
theorem graded_expression (s : Setting) (limit n m : Nat) (p : ParseState) :
    Graded n m p
      (fun root q d => ∃ d', d = d' + 1 ∧ s.tokens.Piece [] p.position q.position d' ∧
        ∀ e, root = some e → Inside s p q d')
      (expression s n) (expression (s.withDepth limit) m) := by
  induction n generalizing m p with
  | zero =>
    constructor
    · intro a q h
      cases h
    · intro e q h
      cases h
      exact .inl rfl
  | succ n ih =>
    have hdeepens (m : Nat) : Deepens s n m (expression s n) (expression (s.withDepth limit) m) :=
      fun p => (ih m p).mono fun root q d ⟨d', hd, _, hinside⟩ e he => ⟨d', hd, hinside e he⟩
    have hinside (root : Option Expr) (q : ParseState)
        (hr : (expression s (n + 1)).run p = (.ok root, q)) (d : Nat)
        (hd : s.tokens.Piece [] p.position q.position d) (e : Expr) (he : root = some e) :
        Inside s p q d := inside_of_some (he ▸ hr) hd
    have hitems (m : Nat) :=
      ((hdeepens m).operators (local_expression s s.tokens n) p).and hinside
    cases m with
    | zero =>
      have hdeep : TooDeep ((expression (s.withDepth limit) 0).run p).1 := ⟨_, rfl, rfl⟩
      refine ((hitems 0).exhausted hdeep).mono ?_
      rintro root q _ ⟨d, rfl, hd, h⟩
      exact ⟨d, rfl, hd, h d hd⟩
    | succ m =>
      rw [expression_withDepth s limit m]
      refine (hitems m).deeper.mono ?_
      rintro root q _ ⟨d, rfl, hd, h⟩
      exact ⟨d, rfl, hd, h d hd⟩

/-- What has been parsed within a limit is parsed in the same way within those limits that are no
less than the depth of its tokens, and is given up within the others. -/
theorem next_of_ok {n : Nat} {root : Option Expr} (h : (next (s.withDepth n)).run p = (.ok root, q))
    (m : Nat) :
    (nestingDepth (s.tokens.kinds p.position q.position) ≤ m →
      (next (s.withDepth m)).run p = (.ok root, q)) ∧
    (m < nestingDepth (s.tokens.kinds p.position q.position) →
      TooDeep ((next (s.withDepth m)).run p).1) := by
  obtain ⟨_, -, ⟨d, rfl, hpiece, -⟩, hsame, hdeep⟩ :=
    (graded_expression (s.withDepth n) m n m p).ok h
  have hdepth : nestingDepth (s.tokens.kinds p.position q.position) = d + 1 := by
    have hd := hpiece.depth [] le_rfl
    simp only [List.append_nil, TokenList.kinds_self] at hd
    rw [nestingDepth, hd]
    show 1 + max (0 + d) 0 = d + 1
    omega
  rw [hdepth]
  exact ⟨hsame, hdeep⟩

theorem not_tooDeep_ok {α : Type} {a : α} : ¬TooDeep (.ok a) := fun ⟨_, h, _⟩ => by cases h

/-- Tokens are an expression if one has been parsed and they are at their end. -/
theorem whole_ok {root : Option Expr} : (whole s).run p = (.ok root, q) ↔
    (next s).run p = (.ok root, q) ∧ (s.tokens.get q.position).kind = .eof := by
  constructor
  · intro h
    obtain ⟨root₁, q₁, hnext, h⟩ := run_bind_ok.1 h
    obtain ⟨_, q₂, hend, h⟩ := run_bind_ok.1 h
    cases h
    obtain ⟨token, _, ht, hend⟩ := run_bind_ok.1 hend
    cases ht
    split at hend
    · rename_i heof
      cases hend
      exact ⟨hnext, heof⟩
    · cases hend
  · rintro ⟨hnext, heof⟩
    have hend : (expectEnd s).run q = (.ok (), q) := by
      refine run_bind_ok.2 ⟨_, q, rfl, ?_⟩
      rw [if_pos heof]
      rfl
    exact run_bind_ok.2 ⟨root, q, hnext, run_bind_ok.2 ⟨(), q, hend, rfl⟩⟩

/-- **The limit of nesting makes one difference only.** Where parsing is not given up for the limit,
it does the same within every greater limit, also where it fails. And an expression, or a list of
tokens that is one, is accepted within some limit just if it is accepted within those limits that
are no less than the depth of its tokens. -/
theorem next_depth (s : Setting) (n m : Nat) (p : ParseState) :
    (n ≤ m → ¬TooDeep ((next (s.withDepth n)).run p).1 →
      (next (s.withDepth m)).run p = (next (s.withDepth n)).run p) ∧
    (∀ root q, (next (s.withDepth n)).run p = (.ok root, q) →
      ((∃ root' q', (next (s.withDepth m)).run p = (.ok root', q')) ↔
        nestingDepth (s.tokens.kinds p.position q.position) ≤ m)) ∧
    ∀ root q, (whole (s.withDepth n)).run p = (.ok root, q) →
      ((∃ root' q', (whole (s.withDepth m)).run p = (.ok root', q')) ↔
        nestingDepth (s.tokens.kinds p.position q.position) ≤ m) := by
  have haccepted {root : Option Expr} {q : ParseState}
      (h : (next (s.withDepth n)).run p = (.ok root, q)) :
      (∃ root' q', (next (s.withDepth m)).run p = (.ok root', q')) ↔
        nestingDepth (s.tokens.kinds p.position q.position) ≤ m := by
    obtain ⟨hsame, hdeep⟩ := next_of_ok h m
    refine ⟨fun ⟨root', q', h'⟩ => ?_, fun hm => ⟨root, q, hsame hm⟩⟩
    by_contra hm
    have hdeep := hdeep (by omega)
    rw [h'] at hdeep
    exact not_tooDeep_ok hdeep
  refine ⟨fun hnm hdeep => ?_, fun root q h => haccepted h, fun root q h => ?_⟩
  · have hgraded := graded_expression (s.withDepth n) m n m p
    rcases hr : (next (s.withDepth n)).run p with ⟨e | root, q⟩
    · rw [hr] at hdeep
      refine (hgraded.error hr).resolve_left (fun hcode => hdeep ⟨e, rfl, hcode⟩) hnm
    · obtain ⟨d, hd, -, hsame, -⟩ := hgraded.ok hr
      exact hsame (by omega)
  · obtain ⟨hnext, hend⟩ := whole_ok.1 h
    rw [← haccepted hnext]
    constructor
    · rintro ⟨root', q', h'⟩
      exact ⟨root', q', (whole_ok.1 h').1⟩
    · intro h'
      have hsame := (next_of_ok hnext m).1 ((haccepted hnext).1 h')
      exact ⟨root, q, whole_ok.2 ⟨hsame, hend⟩⟩

end Parser

/-- `((1))`, within five levels. -/
def Setting.grouped : Setting where
  registry := .primitive
  scope := .empty
  options := ⟨true, 5⟩
  tokens := .ofTokens #[.unplaced (.opening .paren), .unplaced (.opening .paren),
    .unplaced (.int 1), .unplaced (.closing .paren), .unplaced (.closing .paren)]

/-- It is accepted just within three levels or more. -/
theorem Parser.next_depth_grouped (m : Nat) :
    (∃ root q, (next (Setting.grouped.withDepth m)).run (.start .initial) = (.ok root, q)) ↔
      3 ≤ m := by
  obtain ⟨root, q, h, hq⟩ : ∃ root q,
      (next .grouped).run (.start .initial) = (.ok root, q) ∧ q.position = 5 := ⟨_, _, rfl, rfl⟩
  have hdepth := (next_depth .grouped 5 m (.start .initial)).2.1 root q h
  rw [hq] at hdepth
  exact hdepth

end TypedExpr
