import TypedExpr.Proofs.Positions.Collection
/-!
# Items in bounds

Items are collected and operators are applied in a list that changes in place, with nothing but
indexes to tell where. No index is ever out of bounds, and the items are in order at every step:
behind every index stands what it is taken of, and a `?` is followed by its branches and nothing
else.

* `Parser.Indexed.expression_eq`: what happens out of bounds makes no difference.
* `Parser.expression_in_bounds`: **no access is out of bounds, and items are always in order.**
-/

namespace TypedExpr

namespace Parser

variable {s : Setting} {p q : ParseState} {items : List Item}

theorem Indexed.expression_eq (s : Setting) (amiss : (α : Type) → Parser α) (levels : Nat) :
    Indexed.expression s amiss levels = Parser.expression s levels := by
  induction levels with
  | zero => rfl
  | succ levels ih =>
    have hindexed : Indexed.expression s amiss (levels + 1) = (do
        let items ← collectFrom s amiss (Indexed.expression s amiss levels) s.tokens.size []
        remaining s (← (passes s amiss).foldlM (fun items pass => pass items) items)) := rfl
    have hplain : Parser.expression s (levels + 1) = (do
        applyOperators s (← collect s (Parser.expression s levels))) := rfl
    rw [hindexed, hplain, ih]
    refine Mirrors.eq fun p => ?_
    refine (collectFrom_mirrors (local_expression s s.tokens levels) _ .nil).bind ?_
    rintro items _ q ⟨rfl, ho⟩
    rw [applyOperators, applyPasses_eq_foldlM]
    refine (foldlM_mirrors passes_match ho).bind ?_
    rintro items' _ r ⟨rfl, -⟩
    exact .same fun _ _ _ => rfl

/-- The items collected in so many steps, after so many passes. -/
def itemsAfter (s : Setting) (levels steps count : Nat) : Parser (List Item) := do
  let items ← collectFrom s (expression s levels) steps []
  ((Indexed.plainPasses s).take count).foldlM (fun items pass => pass items) items

theorem itemsAfter_orderly {levels steps count : Nat}
    (h : (itemsAfter s levels steps count).run p = (.ok items, q)) : Item.Orderly items := by
  obtain ⟨collected, p₁, hcollect, hpasses⟩ := run_bind_ok.1 h
  -- any way to go on out of bounds will do
  let amiss : (α : Type) → Parser α := fun _ => refuse (.error .unexpectedToken) 1
  have hmirrors : Mirrors p Indexed.Kept
      (Indexed.collectFrom s amiss (expression s levels) steps [])
      (collectFrom s (expression s levels) steps []) :=
    Indexed.collectFrom_mirrors (local_expression s s.tokens levels) steps .nil
  obtain ⟨_, -, -, ho⟩ := hmirrors.of_ok hcollect
  have hmatch : List.Forall₂ Indexed.Matches ((Indexed.passes s amiss).take count)
      ((Indexed.plainPasses s).take count) := List.forall₂_take count Indexed.passes_match
  obtain ⟨_, -, -, ho⟩ := (Indexed.foldlM_mirrors hmatch ho).of_ok hpasses
  exact ho

/-- **No access is out of bounds, and items are always in order.** Whatever happens when an index is
out of bounds or the items are not in order, at any level of nesting, makes no difference. At every
step of collecting and after every pass, there is at most one `?`, and each item is placed as it
must be. -/
theorem expression_in_bounds (s : Setting) (levels : Nat) :
    (∀ amiss : (α : Type) → Parser α, Indexed.expression s amiss levels = expression s levels) ∧
    ∀ steps count p items q, (itemsAfter s levels steps count).run p = (.ok items, q) →
      (items.countP fun item => item.operator? = some .question) ≤ 1 ∧
      ∀ front item behind, items = front ++ item :: behind →
        Item.Placed front.getLast? item behind := by
  refine ⟨fun amiss => Indexed.expression_eq s amiss levels, fun steps count p items q h => ?_⟩
  have ho := itemsAfter_orderly h
  refine ⟨ho.countP_question_le, fun front item behind heq => ?_⟩
  simpa using Item.orderlyFrom_iff.1 ho front item behind heq

end Parser

/-- `xs[0] ? 1 : 2`. -/
def Setting.indexed : Setting where
  registry := .primitive
  scope := NameMap.empty.insert "xs" (.var (.array .bool))
  options := .standard
  tokens := .ofTokens #[.unplaced (.ident "xs" []), .unplaced (.opening .square),
    .unplaced (.int 0), .unplaced (.closing .square), .unplaced (.operator .question),
    .unplaced (.int 1), .unplaced .colon, .unplaced (.int 2)]

theorem Parser.expression_in_bounds_indexed : ∃ xs bracket question yes no q,
    (itemsAfter .indexed 1 8 0).run (.start .initial) =
      (.ok [xs, bracket, question, yes, no], q) ∧
    Item.Placed (some xs) bracket [question, yes, no] ∧
    Item.Placed (some bracket) question [yes, no] := by
  obtain ⟨xs, bracket, question, yes, no, q, h⟩ : ∃ xs bracket question yes no q,
    (itemsAfter .indexed 1 8 0).run (.start .initial) =
      (.ok [xs, bracket, question, yes, no], q) := ⟨_, _, _, _, _, _, rfl⟩
  obtain ⟨-, hplaced⟩ := (expression_in_bounds .indexed 1).2 _ _ _ _ _ h
  exact ⟨xs, bracket, question, yes, no, q, h, hplaced [xs] _ _ rfl, hplaced [xs, bracket] _ _ rfl⟩

end TypedExpr
