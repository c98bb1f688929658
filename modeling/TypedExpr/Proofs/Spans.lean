import TypedExpr.Parse
import TypedExpr.Proofs.Spans.Collection
/-!
# The spans of compound expressions

The span of an expression that is put together from several items starts with the first token that
has been read for it. It ends with the last one too, brackets around the last operand included,
unless the expression ends with a conditional. The span of a conditional ends where the node of its
second branch does, and if this branch is in parentheses these are left out.

* `Parser.bounds_expression`: the span of any expression, but for parentheses around it.
* `Parser.expression_span`: **how far the span of a compound expression reaches.**
-/

namespace TypedExpr

/-- What all items become reaches from the first token to the last, but for parentheses around
it. -/
theorem Units.core {ts : TokenList} {i j : Nat} {items : List Item} {item : Item} {e : Expr}
    (hd : ts.Disjoint) (h : Units ts i items j) (hm : Item.Merges items [item])
    (hk : item.kind = .value e) : ts.Core e.span i j := by
  by_cases hlen : 2 ≤ items.length
  · have hne : items ≠ [] := by
      rintro rfl
      exact absurd hlen (by decide)
    obtain ⟨k, hik, hkj, hfill, hclosing⟩ := h.fill hd hne
    rw [hm.span_eq hk hfill hlen]
    exact ⟨i, k, Nat.le_refl i, hik, hkj, rfl, by omega, hclosing⟩
  · obtain rfl := hm.eq_of_length hlen
    exact h.covers.core e hk

namespace Parser

variable {s : Setting}

theorem bounds_expression (hd : s.tokens.Disjoint) (levels : Nat) :
    Bounds s (expression s levels) := by
  induction levels with
  | zero => exact ⟨local_expression s s.tokens 0, fun h => by cases h⟩
  | succ levels ih =>
    refine ⟨local_expression s s.tokens (levels + 1), fun {p q root} h e he => ?_⟩
    obtain rfl := he
    obtain ⟨items, p₁, hitems, h⟩ := run_bind_ok.1 h
    obtain ⟨item, hk, hm⟩ := applyOperators_merges h
    have hunits := (ih.collect hd p items p₁ hitems).2.1
    rw [(applyOperators_builds h).position]
    exact hunits.core hd hm hk

/-- **The span of a compound expression starts with the first of its tokens and ends with the last
one, brackets around operands included.** If the expression ends with a conditional, its span ends
where the node of the second branch does: parentheses around this branch are left out, and nothing
else. -/
theorem expression_span (hd : s.tokens.Disjoint) {levels : Nat} {p p₁ q : ParseState}
    {items : List Item} {e : Expr}
    (hc : (collect s (expression s levels)).run p = (.ok items, p₁)) (hlen : 2 ≤ items.length)
    (he : (expression s (levels + 1)).run p = (.ok (some e), q)) :
    ((∀ item ∈ items, item.operator? ≠ some .question) →
      e.span = s.tokens.stretch p.position q.position) ∧
    (∃ k, p.position < k ∧ k ≤ q.position ∧ e.span = s.tokens.stretch p.position k ∧
      ∀ j, k ≤ j → j < q.position → (s.tokens.get j).kind = .closing .paren) ∧
    ((∃ item ∈ items, item.operator? = some .question) → ∃ front question yes no line,
      items = front ++ [question, ⟨.value yes, yes.span, line⟩, ⟨.value no, no.span, line⟩] ∧
        question.operator? = some .question ∧ e.span.stop = no.span.stop) := by
  have hne : items ≠ [] := by
    rintro rfl
    exact absurd hlen (by decide)
  obtain ⟨items', p₂, hitems, he⟩ := run_bind_ok.1 he
  cases hc.symm.trans hitems
  obtain ⟨item, hk, hm⟩ := applyOperators_merges he
  have hpos : q.position = p₁.position := (applyOperators_builds he).position
  have hunits : Units s.tokens p.position items q.position := by
    rw [hpos]
    exact ((bounds_expression hd levels).collect hd p items p₁ hc).2.1
  refine ⟨fun hq => hm.span_eq hk (hunits.fill_of_not_question hd hq) hlen, ?_, fun hq => ?_⟩
  · obtain ⟨k, hpk, hkq, hfill, hclosing⟩ := hunits.fill hd hne
    exact ⟨k, hpk, hkq, hm.span_eq hk hfill hlen, hclosing⟩
  · obtain ⟨front, question, yes, no, line, rfl, hop⟩ := hunits.eq_append_of_question hq
    obtain ⟨k, -, -, hfill, -⟩ := hunits.fill hd hne
    refine ⟨front, question, yes, no, line, rfl, hop, ?_⟩
    rw [hm.span_eq hk hfill hlen]
    exact (hfill.last ⟨.value no, no.span, line⟩ (by simp)).symm

end Parser

/-- `true ? 1 : (2)`. -/
def Setting.chosen : Setting where
  registry := .primitive
  scope := .empty
  options := .standard
  tokens := .ofTokens #[⟨.bool true, ⟨0, 4⟩, 1⟩, ⟨.operator .question, ⟨5, 6⟩, 1⟩,
    ⟨.int 1, ⟨7, 8⟩, 1⟩, ⟨.colon, ⟨9, 10⟩, 1⟩, ⟨.opening .paren, ⟨11, 12⟩, 1⟩,
    ⟨.int 2, ⟨12, 13⟩, 1⟩, ⟨.closing .paren, ⟨13, 14⟩, 1⟩]

/-- The tokens reach up to 14, the span of the conditional up to 13. -/
theorem Parser.expression_span_chosen : ∃ items p₁ e q,
    Setting.chosen.tokens.Disjoint ∧ 2 ≤ items.length ∧
    (collect .chosen (expression .chosen 2)).run (.start .initial) = (.ok items, p₁) ∧
    (expression .chosen 3).run (.start .initial) = (.ok (some e), q) ∧
    Setting.chosen.tokens.stretch 0 q.position = ⟨0, 14⟩ ∧ e.span = ⟨0, 13⟩ ∧
    ∃ k, 0 < k ∧ k ≤ q.position ∧ e.span = Setting.chosen.tokens.stretch 0 k ∧
      ∀ j, k ≤ j → j < q.position → (Setting.chosen.tokens.get j).kind = .closing .paren := by
  have hd : Setting.chosen.tokens.Disjoint := by decide
  obtain ⟨items, p₁, hc, hlen⟩ : ∃ items p₁,
    (collect .chosen (expression .chosen 2)).run (.start .initial) = (.ok items, p₁) ∧
    2 ≤ items.length := ⟨_, _, rfl, by decide⟩
  obtain ⟨e, q, he, hq, hspan⟩ : ∃ e q,
    (expression .chosen 3).run (.start .initial) = (.ok (some e), q) ∧
    Setting.chosen.tokens.stretch 0 q.position = ⟨0, 14⟩ ∧ e.span = ⟨0, 13⟩ :=
    ⟨_, _, rfl, rfl, rfl⟩
  exact ⟨items, p₁, e, q, hd, hlen, hc, he, hq, hspan, (expression_span hd hc hlen he).2.1⟩

end TypedExpr
