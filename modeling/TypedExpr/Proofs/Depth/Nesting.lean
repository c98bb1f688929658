import TypedExpr.Proofs.Extent.Phrase
/-!
# How deep tokens nest

An expression stands inside another in brackets and in the branches of a conditional. What is open
at a token is a stack: a bracket until it is closed, the first branch from `?` to its `:`, and the
second branch from there to where the expression ends that the conditional is in. The depth of
tokens is the greatest height of the stack, where brackets with nothing inside and casts do not
count.

* `Inner`: what an expression may stand in; `Inner.after`: what is open after a token.
* `Inner.deepest`, `nestingDepth`: the depth of a list of tokens.
* `TokenList.Piece`: tokens that leave open what was open, with their depth; `Piece.trans`,
  `Piece.brackets`, `Piece.choice`: how pieces are put together.
-/

namespace TypedExpr

/-- What an expression may stand in: brackets, or one of the branches of a conditional. -/
inductive Inner where
  | bracket
  | yes
  | no
  deriving DecidableEq

namespace Inner

/-- What is open after a token, the innermost first. A closing bracket ends the branches inside it,
and so does a comma; a `:` ends second branches up to a first branch, which it ends, too. -/
def after (opened : List Inner) : TokenKind → List Inner
  | .opening _ => bracket :: opened
  | .closing _ => (opened.dropWhile (· ≠ bracket)).tail
  | .comma => opened.dropWhile (· ≠ bracket)
  | .operator .question => yes :: opened
  | .colon =>
    match opened.dropWhile (· = no) with
    | yes :: rest => no :: rest
    | rest => rest
  | .semicolon | .eof => []
  | _ => opened

/-- How much is open at most, before, between and after the tokens. Brackets with nothing inside do
not count, and neither does a type in parentheses. -/
def deepest (opened : List Inner) : List TokenKind → Nat
  | [] => opened.length
  | .opening _ :: .closing _ :: ks => deepest opened ks
  | .opening .paren :: .type _ :: .closing .paren :: ks => deepest opened ks
  | k :: ks => max opened.length (deepest (after opened k) ks)

theorem length_le_deepest (opened : List Inner) (ks : List TokenKind) :
    opened.length ≤ deepest opened ks := by
  fun_induction deepest opened ks with
  | case1 opened => exact Nat.le_refl _
  | case2 opened _ _ ks ih => exact ih
  | case3 opened _ ks ih => exact ih
  | case4 opened k ks _ _ ih => exact Nat.le_max_left _ _

/-- A token that opens nothing. -/
theorem deepest_cons {opened : List Inner} {k : TokenKind} (h : ∀ b, k ≠ .opening b)
    (ks : List TokenKind) :
    deepest opened (k :: ks) = max opened.length (deepest (after opened k) ks) := by
  cases k with
  | opening b => exact absurd rfl (h b)
  | _ => rfl

/-- A token that leaves open what was open. -/
theorem deepest_of_after {opened : List Inner} {k : TokenKind} (h : ∀ b, k ≠ .opening b)
    (ha : after opened k = opened) (ks : List TokenKind) :
    deepest opened (k :: ks) = deepest opened ks := by
  rw [deepest_cons h, ha]
  exact Nat.max_eq_right (length_le_deepest opened ks)

/-- A bracket with something inside that is no cast. -/
theorem deepest_opening {opened : List Inner} {b : Bracket} {k l : TokenKind}
    (hk : k.isTerminator = false) (hl : ∀ ref, k = .type ref → l.isTerminator = false)
    (ks : List TokenKind) :
    deepest opened (.opening b :: k :: l :: ks) =
      max opened.length (deepest (bracket :: opened) (k :: l :: ks)) := by
  rw [deepest.eq_4]
  · rfl
  · rintro _ _ _ - h
    cases h
    cases hk
  · rintro ref _ - h
    cases h
    cases hl ref rfl

theorem deepest_closing (b : Bracket) (opened : List Inner) (ks : List TokenKind) :
    deepest (bracket :: opened) (.closing b :: ks) =
      max (opened.length + 1) (deepest opened ks) := rfl

theorem deepest_question (opened : List Inner) (ks : List TokenKind) :
    deepest opened (.operator .question :: ks) =
      max opened.length (deepest (yes :: opened) ks) := rfl

theorem deepest_colon (opened : List Inner) (ks : List TokenKind) :
    deepest (yes :: opened) (.colon :: ks) =
      max (opened.length + 1) (deepest (no :: opened) ks) := rfl

theorem after_of_isPlain {k : TokenKind} (h : k.isPlain = true) (opened : List Inner) :
    after opened k = opened := by
  unfold after
  split
  · cases h
  · cases h
  · cases h
  · exact absurd h (by decide)
  · cases h
  · cases h
  · cases h
  · rfl

theorem max_max_of_le {a b : Nat} (h : a ≤ b) (c : Nat) : max a (max b c) = max b c :=
  Nat.max_eq_right (Nat.le_trans h (Nat.le_max_left b c))

theorem max_max_of_ge {a b : Nat} (h : b ≤ a) (c : Nat) : max a (max b c) = max a c := by
  rw [← Nat.max_assoc, Nat.max_eq_left h]

/-- At a token that ends an expression it does not matter that a second branch is open. -/
theorem after_no {k : TokenKind} (h : k.isTerminator = true) (opened : List Inner) :
    after (no :: opened) k = after opened k := by
  cases k with
  | comma | semicolon | colon | closing _ | eof => rfl
  | _ => cases h

end Inner

/-- How deep an expression nests, itself included. -/
def nestingDepth (ks : List TokenKind) : Nat := 1 + Inner.deepest [] ks

namespace TokenList

open TypedExpr.Inner

/-- The token begins an expression inside brackets: it ends none, and is no type that is all there
is. -/
structure Begins (ts : TokenList) (i : Nat) : Prop where
  first : (ts.get i).kind.isTerminator = false
  second (ref : TypeRef) (h : (ts.get i).kind = .type ref) :
    (ts.get (i + 1)).kind.isTerminator = false

/-- The tokens from one place to another leave open what was open, `top` the innermost of it, and
nest so deep within it. -/
structure Piece (ts : TokenList) (top : List Inner) (i j d : Nat) : Prop where
  le : i ≤ j
  depth (below : List Inner) {k : Nat} (hk : j ≤ k) :
    deepest (top ++ below) (ts.kinds i k) =
      max ((top ++ below).length + d) (deepest (top ++ below) (ts.kinds j k))

namespace Piece

variable {ts : TokenList} {top : List Inner} {i j k d e : Nat}

theorem refl (ts : TokenList) (top : List Inner) (i : Nat) : ts.Piece top i i 0 :=
  ⟨Nat.le_refl _, fun _ {_} _ => (Nat.max_eq_right (length_le_deepest _ _)).symm⟩

theorem trans (h : ts.Piece top i j d) (h' : ts.Piece top j k e) :
    ts.Piece top i k (max d e) := by
  refine ⟨Nat.le_trans h.le h'.le, fun below m hm => ?_⟩
  rw [h.depth below (Nat.le_trans h'.le hm), h'.depth below hm, ← Nat.max_assoc,
    Nat.add_max_add_left]

/-- What stands anywhere may stand inside. -/
theorem within (h : ts.Piece [] i j d) (top : List Inner) : ts.Piece top i j d :=
  ⟨h.le, fun below {_} hk => h.depth (top ++ below) hk⟩

/-- A token that leaves open what was open. -/
theorem token (ho : ∀ b, (ts.get i).kind ≠ .opening b)
    (ha : ∀ below, after (top ++ below) (ts.get i).kind = top ++ below) :
    ts.Piece top i (i + 1) 0 := by
  refine ⟨Nat.le_succ i, fun below k hk => ?_⟩
  rw [ts.kinds_cons (by omega), deepest_of_after ho (ha below)]
  exact (Nat.max_eq_right (length_le_deepest _ _)).symm

theorem plain (h : (ts.get i).kind.isPlain = true) : ts.Piece [] i (i + 1) 0 := by
  refine token (fun b hb => ?_) fun below => after_of_isPlain h _
  rw [hb] at h
  cases h

theorem dot (h : (ts.get i).kind = .dot) : ts.Piece [] i (i + 1) 0 := by
  refine token (fun b hb => ?_) fun below => ?_
  · rw [h] at hb
    cases hb
  · rw [h]
    rfl

theorem comma (h : (ts.get i).kind = .comma) : ts.Piece [.bracket] i (i + 1) 0 := by
  refine token (fun b hb => ?_) fun below => ?_
  · rw [h] at hb
    cases hb
  · rw [h]
    rfl

/-- A type in parentheses. -/
theorem cast {ref : TypeRef} (ho : (ts.get i).kind = .opening .paren)
    (ht : (ts.get (i + 1)).kind = .type ref) (hc : (ts.get (i + 2)).kind = .closing .paren) :
    ts.Piece [] i (i + 3) 0 := by
  refine ⟨by omega, fun below k hk => ?_⟩
  rw [ts.kinds_cons (by omega), ts.kinds_cons (by omega), ts.kinds_cons (by omega), ho, ht, hc]
  exact (Nat.max_eq_right (length_le_deepest _ _)).symm

/-- A `?` with its branches. The second branch reaches to where the expression ends. -/
theorem choice (hq : (ts.get i).kind = .operator .question) (hy : ts.Piece [] (i + 1) j d)
    (hc : (ts.get j).kind = .colon) (hn : ts.Piece [] (j + 1) k e)
    (hk : (ts.get k).kind.isTerminator = true) : ts.Piece [] i k (max d e + 1) := by
  have hij := hy.le
  have hjk := hn.le
  refine ⟨by omega, fun below m hm => ?_⟩
  have hyes := hy.depth (yes :: below) (k := m) (by omega)
  have hno := hn.depth (no :: below) hm
  -- the second branch ends with the expression
  have hends : deepest (no :: below) (ts.kinds k m) =
      max (below.length + 1) (deepest below (ts.kinds k m)) := by
    rcases Nat.eq_or_lt_of_le hm with rfl | hlt
    · rw [ts.kinds_self]
      exact (Nat.max_eq_left (Nat.le_succ _)).symm
    · have hopen : ∀ b, (ts.get k).kind ≠ .opening b := fun b hb => by
        rw [hb] at hk
        cases hk
      rw [ts.kinds_cons hlt, deepest_cons hopen, deepest_cons hopen, after_no hk, List.length_cons]
      omega
  simp only [List.nil_append, List.length_cons] at hyes hno ⊢
  rw [ts.kinds_cons (by omega), hq, deepest_question, hyes, ts.kinds_cons (by omega), hc,
    deepest_colon, hno, hends, max_max_of_ge (Nat.le_add_right (below.length + 1) e),
    max_max_of_le (Nat.le_add_right (below.length + 1) e),
    ← Nat.max_assoc (below.length + 1 + d), Nat.add_max_add_left, max_max_of_le (by omega),
    Nat.add_right_comm, Nat.add_assoc]

end Piece

/-- What is inside of brackets: nothing, or something that begins with an expression. The depth is
counted from outside. -/
inductive Filled (ts : TokenList) (i : Nat) : Nat → Nat → Prop
  | nothing : Filled ts i i 0
  | something {j d : Nat} (begins : ts.Begins i) (piece : ts.Piece [.bracket] i j d) :
    Filled ts i j (d + 1)

variable {ts : TokenList} {i j k d e : Nat}

theorem Filled.le (h : ts.Filled i j d) : i ≤ j := by
  cases h with
  | nothing => exact Nat.le_refl _
  | something _ piece => exact piece.le

/-- An expression before what else is inside of the brackets. -/
theorem Filled.cons (hb : ts.Begins i) (h : ts.Piece [.bracket] i j d) (h' : ts.Filled j k e) :
    ts.Filled i k (max (d + 1) e) := by
  cases h' with
  | nothing => exact .something hb h
  | @something _ e _ piece =>
    rw [show max (d + 1) (e + 1) = max d e + 1 by omega]
    exact .something hb (h.trans piece)

/-- Brackets and what is inside. -/
theorem Piece.brackets {b : Bracket} (ho : (ts.get i).kind = .opening b)
    (h : ts.Filled (i + 1) j d) (hc : (ts.get j).kind = .closing b) :
    ts.Piece [] i (j + 1) d := by
  have hij := h.le
  refine ⟨by omega, fun below k hk => ?_⟩
  rw [ts.kinds_cons (by omega), ho]
  cases h with
  | nothing =>
    rw [ts.kinds_cons (by omega), hc]
    exact (Nat.max_eq_right (length_le_deepest _ _)).symm
  | @something _ d begins piece =>
    have hlt : i + 1 < j := by
      refine Nat.lt_of_le_of_ne hij fun h => ?_
      have hfirst := begins.first
      rw [h, hc] at hfirst
      cases hfirst
    have hpiece := piece.depth below (k := k) (by omega)
    have hopened : deepest below (TokenKind.opening b :: ts.kinds (i + 1) k) =
        max below.length (deepest (bracket :: below) (ts.kinds (i + 1) k)) := by
      rw [ts.kinds_cons (by omega), ts.kinds_cons (by omega)]
      exact deepest_opening begins.first begins.second _
    have hclosed : deepest (bracket :: below) (ts.kinds j k) =
        max (below.length + 1) (deepest below (ts.kinds (j + 1) k)) := by
      rw [ts.kinds_cons (by omega), hc, deepest_closing]
    simp only [List.nil_append, List.singleton_append, List.length_cons] at hpiece ⊢
    rw [hopened, hpiece, hclosed, max_max_of_ge (Nat.le_add_right (below.length + 1) d),
      max_max_of_le (by omega), Nat.add_right_comm, Nat.add_assoc]

end TokenList

end TypedExpr
