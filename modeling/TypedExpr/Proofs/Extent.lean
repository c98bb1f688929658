import TypedExpr.Parse
import TypedExpr.Proofs.Extent.Collection
import TypedExpr.Proofs.Fragments.Passes
/-!
# The extent of an expression

Where an expression ends depends on the kinds of the tokens alone: at the first token that can end
it, outside of brackets and with no `?` before it that still waits for its `:`. What comes behind
that token is not looked at.

* `Parser.local_next`: parsing follows the tokens.
* `Parser.next_extent`: **an expression ends at the first token that can end it.**
-/

namespace TypedExpr

namespace Parser

variable {s : Setting} {us : TokenList}

/-- The passes do not look at the tokens. -/
theorem applyOperators_withTokens : applyOperators (s.withTokens us) = applyOperators s := by
  delta applyOperators applyPasses applyIndexes applyStepsAfter applyStepsBefore applyPrefixes
    applyCasts applyCastsFrom applyNot applyLeftward applyRightward applyTernaries applyAssignments
  rfl

theorem applyOperators_nil : applyOperators s [] = pure none := rfl

theorem local_expression (s : Setting) (us : TokenList) (levels : Nat) :
    Local s us (expression s levels) (expression (s.withTokens us) levels) := by
  induction levels with
  | zero => exact fun p => .fails fun _ _ h => by cases h
  | succ levels ih =>
    intro p
    show Follows s us p _ (do applyOperators s (← collect s (expression s levels)))
      (do applyOperators (s.withTokens us)
            (← collect (s.withTokens us) (expression (s.withTokens us) levels)))
    refine (Local.collect ih p).bind ?_
    rintro items q ⟨hr, hends, hnil⟩
    refine .blind (by rw [applyOperators_withTokens]) fun root r hroot => ?_
    have hb := applyOperators_builds hroot
    refine ⟨Nat.le_of_eq hb.position.symm, hr.builds hb, ?_, fun {e} hsome => ?_⟩
    · rw [Setting.kindAt, hb.position]
      exact hends
    · -- where no token has been passed, there are no items
      rw [hb.position]
      refine Nat.lt_of_le_of_ne hr.le fun hpos => ?_
      rw [hnil hpos.symm, applyOperators_nil, hsome] at hroot
      cases hroot

/-- Parsing an expression follows the tokens. -/
theorem local_next (s : Setting) (us : TokenList) : Local s us (next s) (next (s.withTokens us)) :=
  local_expression s us s.options.maxDepth

/-- **An expression ends at the first token that can end it.** The tokens before are balanced. With
any tokens behind that token, down to none but the end of input, the expression, the nodes built on
the way and the place where it ends are the same. -/
theorem next_extent (s : Setting) {p q : ParseState} {root : Option Expr}
    (h : (next s).run p = (.ok root, q)) :
    Balanced (s.tokens.kinds p.position q.position) ∧
    IsLeast {i | p.position ≤ i ∧ s.tokens.EndsAt p.position i} q.position ∧
    ∀ us : TokenList, s.tokens.SameUpTo us q.position →
      (next (s.withTokens us)).run p = (.ok root, q) := by
  obtain ⟨hle, hparses, -⟩ := local_next s s.tokens p root q h
  have hphrase := hparses.consumes.phrase
  refine ⟨hphrase.balanced, hphrase.isLeast hle hparses.ends, fun us => ?_⟩
  exact (local_next s us p root q h).2.2

end Parser

/-- `true ? (1) : 2; 3`, of which the first expression ends at the semicolon. -/
def Setting.listed : Setting where
  registry := .primitive
  scope := .empty
  options := .standard
  tokens := .ofTokens #[.unplaced (.bool true), .unplaced (.operator .question),
    .unplaced (.opening .paren), .unplaced (.int 1), .unplaced (.closing .paren), .unplaced .colon,
    .unplaced (.int 2), .unplaced .semicolon, .unplaced (.int 3)]

theorem Parser.next_extent_listed : ∃ root q,
    (next .listed).run (.start .initial) = (.ok (some root), q) ∧
    IsLeast {i | 0 ≤ i ∧ Setting.listed.tokens.EndsAt 0 i} 7 ∧
    (next (Setting.listed.withTokens (.ofTokens (Setting.listed.tokens.init.take 8)))).run
      (.start .initial) = (.ok (some root), q) := by
  obtain ⟨root, q, h, hq⟩ : ∃ root q,
    (next .listed).run (.start .initial) = (.ok (some root), q) ∧ q.position = 7 :=
    ⟨_, _, rfl, rfl⟩
  obtain ⟨-, hleast, hsame⟩ := next_extent .listed h
  have hsameUpTo : Setting.listed.tokens.SameUpTo
      (.ofTokens (Setting.listed.tokens.init.take 8)) 7 := by
    intro i hi
    match i, hi with
    | 0, _ | 1, _ | 2, _ | 3, _ | 4, _ | 5, _ | 6, _ | 7, _ => rfl
  exact ⟨root, q, h, hq ▸ hleast, hsame _ (hq ▸ hsameUpTo)⟩

end TypedExpr
