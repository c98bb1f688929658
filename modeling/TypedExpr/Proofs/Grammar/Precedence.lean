import TypedExpr.Proofs.Grammar.Complete
/-!
# The passes and the grammar

The passes accept exactly the items that have a derivation in the grammar of the operators whose
nodes all have types, and build what has the shape of that derivation.

What stands behind `!` is an expression of the level of shifts or again a `!`; if another `!` could
not stand there, `!!x` would have no derivation, although the passes accept it.

* `Parser.applyOperators_iff`: **the passes implement the grammar.**
* `Parser.applyOperators_not_not`: a `!` behind a `!`.
-/

namespace TypedExpr

namespace Parser

variable {s : Setting} {items : List Item} {p q : ParseState}

/-- Nothing is left just of nothing. -/
theorem remaining_eq_none (h : (remaining s items).run p = (.ok none, q)) : items = [] := by
  unfold remaining at h
  split at h
  · cases h
  · split at h
    · rfl
    · split at h <;> cases h
    · cases h

/-- **The passes accept the items that have a derivation whose nodes have types, and what they
build has its shape.** -/
theorem applyOperators_iff (hfold : s.options.fold = false) (hx : Collected items)
    (hne : items ≠ []) (p : ParseState) :
    ((∃ r q, (applyOperators s items).run p = (.ok r, q)) ↔
      ∃ t, Derives 10 16 items t ∧ t.Typed s.registry) ∧
    ∀ r q, (applyOperators s items).run p = (.ok r, q) →
      ∃ e, r = some e ∧ ∀ t, Derives 10 16 items t → t.Typed s.registry → t.Shapes e := by
  have found {r : Option Expr} {q : ParseState} (h : (applyOperators s items).run p = (.ok r, q)) :
      ∃ e t, r = some e ∧ Derives 10 16 items t ∧ t.Fits s.registry e := by
    cases r with
    | none =>
      obtain ⟨out, _, hp, hr⟩ := run_bind_ok.1 h
      cases remaining_eq_none hr
      exact absurd (applyPasses_covers hfold hx hp).eq_nil hne
    | some e =>
      obtain ⟨t, ht, hfit⟩ := applyOperators_sound hfold hx h
      exact ⟨e, t, rfl, ht, hfit⟩
  refine ⟨⟨?_, ?_⟩, ?_⟩
  · rintro ⟨r, q, h⟩
    obtain ⟨e, t, -, ht, hfit⟩ := found h
    exact ⟨t, ht, by rw [Tree.Typed, hfit.type]; rfl⟩
  · rintro ⟨t, ht, htyped⟩
    obtain ⟨e, q, h, -⟩ := applyOperators_complete hfold ht htyped p
    exact ⟨some e, q, h⟩
  · intro r q h
    obtain ⟨e, -, rfl, -⟩ := found h
    refine ⟨e, rfl, fun t ht htyped => ?_⟩
    obtain ⟨e', q', h', hfit⟩ := applyOperators_complete hfold ht htyped p
    cases h.symm.trans h'
    exact hfit.shape

end Parser

/-! ### A `!` behind a `!` -/

/-- No user types, no folding. -/
def Setting.plain : Setting := ⟨.primitive, default, ⟨false, 256⟩, .ofTokens #[]⟩

/-- The items of `!!true`. -/
def notNot : List Item :=
  [⟨.operator .bang, ⟨0, 1⟩, 1⟩, ⟨.operator .bang, ⟨1, 2⟩, 1⟩,
    ⟨.value (.node 0 ⟨2, 6⟩ .bool (.bool true)), ⟨2, 6⟩, 1⟩]

/-- The tree of `!!true`. -/
def Tree.notNot : Tree :=
  .unary .not (.unary .not (.operand (.node 0 ⟨2, 6⟩ .bool (.bool true))))

theorem notNot_collected : Collected notNot := .plain (by simp [notNot])

theorem notNot_derives : Derives 10 16 notNot .notNot := by
  refine .looser (.not (.not (.looser (.operand rfl) ?_) rfl) rfl) ?_ <;> decide

theorem Parser.applyOperators_iff_notNot :
    Setting.plain.options.fold = false ∧ Collected notNot ∧ notNot ≠ [] ∧
      ∃ e q, (applyOperators .plain notNot).run (.start .initial) = (.ok (some e), q) ∧
        Tree.notNot.Shapes e := by
  have hne : notNot ≠ [] := List.cons_ne_nil _ _
  obtain ⟨hiff, hshape⟩ := applyOperators_iff (s := .plain) rfl notNot_collected hne
    (.start .initial)
  obtain ⟨r, q, h⟩ := hiff.2 ⟨_, notNot_derives, rfl⟩
  obtain ⟨e, rfl, he⟩ := hshape r q h
  exact ⟨rfl, notNot_collected, hne, e, q, h, he _ notNot_derives rfl⟩

namespace Derives

variable {bang n : Nat} {xs : List Item} {t : Tree}

theorem ne_bang (h : Derives bang n xs t) (hn : n < 10) : ∀ i ∈ xs, i.kind ≠ .operator .bang := by
  induction h with
  | @binary i op ls rs l r hop hl hr hi ihl ihr =>
    have := ihl hn
    have := ihr (by omega)
    grind
  | _ => grind

/-- If what stands behind `!` binds tighter than it, that does not begin with another `!`. -/
theorem not_bang (h : Derives bang n xs t) (hb : bang < 10) {i : Item} {ys : List Item}
    (hxs : xs = i :: ys) (hi : i.kind = .operator .bang) :
    ∃ j zs, ys = j :: zs ∧ j.kind ≠ .operator .bang := by
  induction h generalizing ys with
  | operand hv => 
    cases hxs
    simp [hv] at hi
  | looser _ _ ih => exact ih hxs
  | not h _ ih => 
    cases hxs
    obtain ⟨j, zs, rfl⟩ := List.exists_cons_of_ne_nil h.ne_nil
    exact ⟨j, zs, rfl, h.ne_bang hb j List.mem_cons_self⟩
  | index h hv ih | stepAfter h hv ih | binary _ h _ hv ih | power h _ hv ih | ternary h hv _ _ ih
  | assign h _ hv ih =>
    obtain ⟨k, xs, rfl⟩ := List.exists_cons_of_ne_nil h.ne_nil
    obtain ⟨rfl, rfl⟩ := List.cons.inj hxs
    obtain ⟨j, zs, rfl, hj⟩ := ih rfl
    exact ⟨j, zs ++ _, rfl, hj⟩
  | _ => grind

end Derives

/-- `!!true` is accepted, although it has no derivation if what stands behind `!` has to bind
tighter than it. -/
theorem Parser.applyOperators_not_not :
    Setting.plain.options.fold = false ∧ Collected notNot ∧ notNot ≠ [] ∧
      (∃ r q, (applyOperators .plain notNot).run (.start .initial) = (.ok r, q)) ∧
      ¬ ∃ t, Derives 9 16 notNot t ∧ t.Typed Setting.plain.registry := by
  refine ⟨rfl, notNot_collected, List.cons_ne_nil _ _, ?_, ?_⟩
  · obtain ⟨e, q, h, -⟩ := applyOperators_complete (s := .plain) rfl notNot_derives rfl
      (.start .initial)
    exact ⟨some e, q, h⟩
  · rintro ⟨t, ht, -⟩
    obtain ⟨j, zs, hj, hk⟩ := ht.not_bang (by decide) rfl rfl
    cases hj
    exact hk rfl

end TypedExpr
