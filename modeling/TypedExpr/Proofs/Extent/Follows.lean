import TypedExpr.Proofs.Extent.Phrase
import TypedExpr.Proofs.Fragments.Building
/-!
# Steps that follow the tokens

A step of parsing that succeeds has read the tokens up to the one at hand, and none behind it: on
other tokens that are the same so far it does the same. What it has read is a phrase, and its words
have come into hand.

* `Consumes`: a phrase has been read, and nodes have been built from its words and what was in hand.
* `Parser.Follows`: what is known of a step that succeeds, and that another list of tokens that is
  the same so far makes no difference. There is one rule for each construct of the monad, and one
  for each step over a token.
-/

namespace TypedExpr

/-- The state in which the token at hand has been passed. -/
def ParseState.moved (p : ParseState) : ParseState := { p with position := p.position + 1 }

@[simp] theorem ParseState.moved_position (p : ParseState) : p.moved.position = p.position + 1 :=
  rfl

@[simp] theorem ParseState.moved_nodes (p : ParseState) : p.moved.nodes = p.nodes := rfl

/-- Nothing has been built or passed. -/
def ParseState.Still (p q : ParseState) : Prop := q.position = p.position ∧ q.nodes = p.nodes

/-- The kind of the token at hand. -/
def Setting.kindAt (s : Setting) (p : ParseState) : TokenKind := (s.tokens.get p.position).kind

theorem ParseState.Still.builds {p q : ParseState} (h : p.Still q) (s : Setting) (ps : Fragments) :
    Builds s p q ps ps := ⟨h.1, .still h.2 ps⟩

/-! ### Reading -/

/-- A phrase has been read, and its words have come into hand behind the fragments `ps`; by now
these have become `ps'`. -/
structure Consumes (s : Setting) (inside : Bool) (p q : ParseState) (ps ps' : Fragments) :
    Prop where
  le : p.position ≤ q.position
  phrase : Phrase inside (s.tokens.kinds p.position q.position)
  turns : Turns s p q ps ps' (s.scope.words (s.tokens.kinds p.position q.position))

/-- The inside of brackets has been read, and the closing bracket. -/
def Closes (s : Setting) (bracket : Bracket) (p q : ParseState) (ps ps' : Fragments) : Prop :=
  ∃ r, Consumes s true p r ps ps' ∧ s.kindAt r = .closing bracket ∧ q = r.moved

theorem Builds.consumes {s : Setting} {p q : ParseState} {ps ps' : Fragments}
    (h : Builds s p q ps ps') (inside : Bool) : Consumes s inside p q ps ps' := by
  refine ⟨Nat.le_of_eq h.position.symm, ?_, ?_⟩
  · rw [h.position, TokenList.kinds_self]
    exact .nil
  · rw [h.position, TokenList.kinds_self]
    exact h.turns

namespace Consumes

variable {s : Setting} {inside : Bool} {p q r : ParseState} {ps ps' ps'' : Fragments}

theorem refl (s : Setting) (inside : Bool) (p : ParseState) (ps : Fragments) :
    Consumes s inside p p ps ps := (Builds.refl s p ps).consumes inside

theorem trans (h : Consumes s inside p q ps ps') (h' : Consumes s inside q r ps' ps'') :
    Consumes s inside p r ps ps'' := by
  have hkinds := s.tokens.kinds_append h.le h'.le
  refine ⟨Nat.le_trans h.le h'.le, ?_, ?_⟩
  · rw [← hkinds]
    exact h.phrase.append h'.phrase
  · rw [← hkinds, h.phrase.words_append]
    exact h.turns.trans h'.turns

theorem builds (h : Consumes s inside p q ps ps') (h' : Builds s q r ps' ps'') :
    Consumes s inside p r ps ps'' := h.trans (h'.consumes inside)

theorem within (h : Consumes s inside p q ps ps') : Consumes s true p q ps ps' :=
  ⟨h.le, h.phrase.within, h.turns⟩

theorem after (rs : Fragments) (h : Consumes s inside p q ps ps') :
    Consumes s inside p q (rs ++ ps) (rs ++ ps') := ⟨h.le, h.phrase, h.turns.after rs⟩

/-- A token that is read by itself. -/
theorem token (h : (s.kindAt p).isPlain = true) (ps : Fragments) :
    Consumes s inside p p.moved ps (ps ++ ((s.kindAt p).words s.scope).map .word) := by
  have hkinds : s.tokens.kinds p.position p.moved.position = [s.kindAt p] :=
    s.tokens.kinds_succ p.position
  have hdot : s.kindAt p ≠ .dot := fun hk => by
    rw [hk] at h
    cases h
  refine ⟨Nat.le_succ _, ?_, ?_⟩
  · rw [hkinds]
    exact .token h
  · rw [hkinds, s.scope.words_cons hdot, show s.scope.words [] = [] from rfl, List.append_nil]
    exact .read p.moved_nodes ps _

/-- A token that is read by itself and has no words. -/
theorem silent (h : (s.kindAt p).isPlain = true) (hw : (s.kindAt p).words s.scope = [])
    (ps : Fragments) : Consumes s inside p p.moved ps ps := by
  simpa [hw] using token h ps

theorem comma (h : s.kindAt p = .comma) (ps : Fragments) : Consumes s true p p.moved ps ps := by
  have hkinds : s.tokens.kinds p.position p.moved.position = [.comma] :=
    (s.tokens.kinds_succ p.position).trans (congrArg (fun k => [k]) h)
  refine ⟨Nat.le_succ _, ?_, ?_⟩
  · rw [hkinds]
    exact .comma
  · rw [hkinds]
    exact .still p.moved_nodes ps

theorem closes {bracket : Bracket} (h : Consumes s true p q ps ps')
    (h' : Closes s bracket q r ps' ps'') : Closes s bracket p r ps ps'' := by
  obtain ⟨r', hr, hk, rfl⟩ := h'
  exact ⟨r', h.trans hr, hk, rfl⟩

/-- Brackets and what is inside. -/
theorem group {bracket : Bracket} (h : s.kindAt p = .opening bracket)
    (hc : Closes s bracket p.moved q ps ps') : Consumes s inside p q ps ps' := by
  obtain ⟨r, hr, hk, rfl⟩ := hc
  have hle : p.position < r.position := hr.le
  have hkinds : s.tokens.kinds p.position r.moved.position =
      .opening bracket :: (s.tokens.kinds p.moved.position r.position ++ [.closing bracket]) := by
    show s.tokens.kinds p.position (r.position + 1) = _
    rw [← s.tokens.kinds_append (Nat.le_of_lt hle) (Nat.le_succ r.position),
      s.tokens.kinds_cons hle, s.tokens.kinds_succ]
    show s.kindAt p :: (_ ++ [s.kindAt r]) = _
    rw [h, hk]
    rfl
  have hwords : s.scope.words (s.tokens.kinds p.position r.moved.position) =
      s.scope.words (s.tokens.kinds p.moved.position r.position) := by
    have hopening : TokenKind.opening bracket ≠ .dot := nofun
    have hclosing : s.scope.words [.closing bracket] = [] := rfl
    rw [hkinds, s.scope.words_cons hopening, hr.phrase.words_append, hclosing, List.append_nil]
    rfl
  refine ⟨Nat.le_succ_of_le (Nat.le_of_lt hle), hkinds ▸ .group bracket hr.phrase, ?_⟩
  have hopened : Turns s p p.moved ps ps [] := .still p.moved_nodes ps
  have hclosed : Turns s r r.moved ps' ps' [] := .still r.moved_nodes ps'
  rw [hwords]
  simpa using (hopened.trans hr.turns).trans hclosed

/-- A `?`, a phrase, its `:` and another phrase. -/
theorem choice (h : s.kindAt p = .operator .question)
    (hy : Consumes s inside p.moved q (ps ++ [.word (.operator .question)]) ps')
    (hc : s.kindAt q = .colon) (hn : Consumes s inside q.moved r ps' ps'') :
    Consumes s inside p r ps ps'' := by
  have hle : p.position < q.position := hy.le
  have hle' : q.position < r.position := hn.le
  have hkinds : s.tokens.kinds p.position r.position = .operator .question ::
      (s.tokens.kinds p.moved.position q.position ++
        .colon :: s.tokens.kinds q.moved.position r.position) := by
    rw [← s.tokens.kinds_append (Nat.le_of_lt hle) (Nat.le_of_lt hle'), s.tokens.kinds_cons hle,
      s.tokens.kinds_cons hle']
    show s.kindAt p :: (_ ++ s.kindAt q :: _) = _
    rw [h, hc]
    rfl
  have hwords : s.scope.words (s.tokens.kinds p.position r.position) =
      .operator .question :: (s.scope.words (s.tokens.kinds p.moved.position q.position) ++
        s.scope.words (s.tokens.kinds q.moved.position r.position)) := by
    have hquestion : TokenKind.operator .question ≠ .dot := nofun
    have hcolon : TokenKind.colon ≠ .dot := nofun
    rw [hkinds, s.scope.words_cons hquestion, hy.phrase.words_append, s.scope.words_cons hcolon]
    rfl
  refine ⟨Nat.le_of_lt (Nat.lt_trans hle hle'), hkinds ▸ .choice hy.phrase hn.phrase, ?_⟩
  have hquestion : Turns s p p.moved ps (ps ++ [.word (.operator .question)])
    [.operator .question] := .read p.moved_nodes ps [.operator .question]
  have hcolon : Turns s q q.moved ps' ps' [] := .still q.moved_nodes ps'
  rw [hwords]
  simpa using ((hquestion.trans hy.turns).trans hcolon).trans hn.turns

/-- A dot, what is built before the name is read, and the name of a member. -/
theorem member {name : String} {typeArgs : List TypeRef} (hd : s.kindAt p = .dot)
    (hb : Builds s p.moved q ps ps') (hn : s.kindAt q = .ident name typeArgs)
    (hr : Consumes s inside q.moved r ps' ps'') : Consumes s inside p r ps ps'' := by
  have hq : q.position = p.position + 1 := hb.position
  have hkinds : s.tokens.kinds p.position q.moved.position = [.dot, .ident name typeArgs] := by
    show s.tokens.kinds p.position (q.position + 1) = _
    rw [hq, s.tokens.kinds_cons (by omega), s.tokens.kinds_succ, ← hq]
    show [s.kindAt p, s.kindAt q] = _
    rw [hd, hn]
  have hdot : Turns s p p.moved ps ps [] := .still p.moved_nodes ps
  have hname : Turns s q q.moved ps' ps' [] := .still q.moved_nodes ps'
  have hmember : Consumes s inside p q.moved ps ps' := by
    refine ⟨?_, hkinds ▸ .member name typeArgs, ?_⟩
    · show p.position ≤ q.position + 1
      omega
    · rw [hkinds]
      exact (hdot.trans hb.turns).trans hname
  exact hmember.trans hr

end Consumes

theorem Closes.after {s : Setting} {bracket : Bracket} {p q : ParseState} {ps ps' : Fragments}
    (rs : Fragments) (h : Closes s bracket p q ps ps') :
    Closes s bracket p q (rs ++ ps) (rs ++ ps') := by
  obtain ⟨r, hr, hk, rfl⟩ := h
  exact ⟨r, hr.after rs, hk, rfl⟩

/-! ### Other tokens -/

/-- The same setting with other tokens. -/
@[reducible] def Setting.withTokens (s : Setting) (us : TokenList) : Setting :=
  { s with tokens := us }

namespace TokenList

/-- The tokens are the same up to a place, and there. -/
def SameUpTo (ts us : TokenList) (j : Nat) : Prop := ∀ i ≤ j, us.get i = ts.get i

theorem SameUpTo.mono {ts us : TokenList} {i j : Nat} (h : ts.SameUpTo us j) (hij : i ≤ j) :
    ts.SameUpTo us i := fun k hk => h k (Nat.le_trans hk hij)

/-- A loop that may go on so often from a place does not run out before the tokens do. -/
structure Enough (ts : TokenList) (n i : Nat) : Prop where
  pos : 0 < n
  lt : ts.init.size < n + i

theorem enough_size (ts : TokenList) (i : Nat) : ts.Enough ts.size i :=
  ⟨Nat.succ_pos _, Nat.lt_add_right i (Nat.lt_succ_self _)⟩

theorem lt_size_of_kind_ne_eof {ts : TokenList} {i : Nat} (h : (ts.get i).kind ≠ .eof) :
    i < ts.init.size := by
  by_contra hi
  refine h ?_
  unfold get
  rw [Array.getElem?_eq_none (Nat.le_of_not_lt hi)]
  exact ts.last_eof

/-- One more round, which passes a token. -/
theorem Enough.next {ts : TokenList} {n i j k : Nat} (h : ts.Enough (n + 1) i) (hij : i ≤ j)
    (hj : (ts.get j).kind ≠ .eof) (hjk : j < k) : ts.Enough n k := by
  have hsize := lt_size_of_kind_ne_eof hj
  have hlt := h.lt
  exact ⟨by omega, by omega⟩

/-- Two loops, each over one of two lists of tokens, do not run out before the tokens do; the second
only needs to last if the tokens are the same so far. -/
structure Lasting (ts us : TokenList) (n m i : Nat) : Prop where
  first : ts.Enough n i
  second (same : ts.SameUpTo us i) : us.Enough m i

namespace Lasting

variable {ts us : TokenList} {n m i j k : Nat}

theorem size (ts us : TokenList) (i : Nat) : Lasting ts us ts.size us.size i :=
  ⟨ts.enough_size i, fun _ => us.enough_size i⟩

theorem pred_add_one (h : Lasting ts us n m i) (same : ts.SameUpTo us i) : m = m - 1 + 1 :=
  (Nat.sub_one_add_one (Nat.ne_of_gt (h.second same).pos)).symm

/-- One more round, which passes a token. -/
theorem next (h : Lasting ts us (n + 1) m i) (hij : i ≤ j) (hj : (ts.get j).kind ≠ .eof)
    (hjk : j < k) : Lasting ts us n (m - 1) k := by
  refine ⟨h.first.next hij hj hjk, fun same => ?_⟩
  have hsame : ts.SameUpTo us i := same.mono (by omega)
  have hm := h.second hsame
  rw [h.pred_add_one hsame] at hm
  refine hm.next hij ?_ hjk
  rwa [same j (Nat.le_of_lt hjk)]

end Lasting

end TokenList

namespace Parser

variable {α β : Type} {s : Setting} {us : TokenList} {p : ParseState}

/-- Whenever the first step succeeds from the state, it has gone forward, `Q` holds of its result
and the state after it, and if the tokens up to the one at hand then are the same, the second step
does the same. -/
def Follows (s : Setting) (us : TokenList) (p : ParseState) (Q : α → ParseState → Prop)
    (x y : Parser α) : Prop :=
  ∀ a q, x.run p = (.ok a, q) →
    p.position ≤ q.position ∧ Q a q ∧ (s.tokens.SameUpTo us q.position → y.run p = (.ok a, q))

namespace Follows

variable {Q : α → ParseState → Prop} {R : β → ParseState → Prop} {x y : Parser α}

theorem pure {a : α} (h : Q a p) : Follows s us p Q (pure a) (pure a) := by
  intro a q hp
  cases hp
  exact ⟨Nat.le_refl _, h, fun _ => rfl⟩

theorem bind {f g : α → Parser β} (hx : Follows s us p Q x y)
    (hf : ∀ a q, Q a q → Follows s us q R (f a) (g a)) : Follows s us p R (x >>= f) (y >>= g) := by
  intro b r hp
  obtain ⟨a, q, ha, hb⟩ := run_bind_ok.1 hp
  obtain ⟨hpq, hQ, hy⟩ := hx a q ha
  obtain ⟨hqr, hR, hg⟩ := hf a q hQ b r hb
  exact ⟨Nat.le_trans hpq hqr, hR, fun same => run_bind_ok.2 ⟨a, q, hy (same.mono hqr), hg same⟩⟩

theorem mono {Q' : α → ParseState → Prop} (hx : Follows s us p Q x y)
    (h : ∀ a q, Q a q → Q' a q) : Follows s us p Q' x y := by
  intro a q hp
  obtain ⟨hpq, hQ, hy⟩ := hx a q hp
  exact ⟨hpq, h a q hQ, hy⟩

/-- What the second step is matters only if the tokens are the same so far. -/
theorem congr {y' : Parser α} (hx : Follows s us p Q x y)
    (h : s.tokens.SameUpTo us p.position → y' = y) : Follows s us p Q x y' := by
  intro a q hp
  obtain ⟨hpq, hQ, hy⟩ := hx a q hp
  exact ⟨hpq, hQ, fun same => by rw [h (same.mono hpq), hy same]⟩

/-- A step that does not look at the tokens. -/
theorem blind (hy : y = x)
    (h : ∀ a q, x.run p = (.ok a, q) → p.position ≤ q.position ∧ Q a q) :
    Follows s us p Q x y := by
  intro a q hp
  obtain ⟨hpq, hQ⟩ := h a q hp
  exact ⟨hpq, hQ, fun _ => by rw [hy, hp]⟩

/-- A step that builds without looking at the tokens. -/
theorem building (hy : y = x) {ps : Fragments} {ps' : α → Fragments}
    (h : ∀ a q, x.run p = (.ok a, q) → Builds s p q ps (ps' a)) :
    Follows s us p (fun a q => Builds s p q ps (ps' a)) x y :=
  blind hy fun a q hp => ⟨Nat.le_of_eq (h a q hp).position.symm, h a q hp⟩

theorem fails (h : ∀ a q, x.run p ≠ (.ok a, q)) : Follows s us p Q x y :=
  fun a q hp => absurd hp (h a q)

theorem refuse {d : Diagnostic} {line : Nat} : Follows s us p Q (refuse d line) y :=
  fails fun _ _ hp => by cases hp

theorem throw {e : ParseError} : Follows s us p Q (throw e) y := fails fun _ _ hp => by cases hp

/-- Both steps turn on the same condition. -/
theorem ite {c : Prop} [Decidable c] {x' y' : Parser α} (h : c → Follows s us p Q x y)
    (h' : ¬c → Follows s us p Q x' y') :
    Follows s us p Q (if c then x else x') (if c then y else y') := by
  by_cases hc : c
  · rw [if_pos hc, if_pos hc]
    exact h hc
  · rw [if_neg hc, if_neg hc]
    exact h' hc

/-! ### Tokens -/

theorem current (p : ParseState) :
    Follows s us p (fun token q => token = s.tokens.get p.position ∧ q = p) (current s)
      (current (s.withTokens us)) := by
  intro token q hp
  cases hp
  refine ⟨Nat.le_refl _, ⟨rfl, rfl⟩, fun same => ?_⟩
  show (Except.ok (us.get p.position), p) = _
  rw [same _ (Nat.le_refl _)]

theorem isAt (kind : TokenKind) (p : ParseState) :
    Follows s us p (fun b q => (b = true ↔ s.kindAt p = kind) ∧ q = p) (isAt s kind)
      (isAt (s.withTokens us) kind) := by
  refine (current p).bind ?_
  rintro token q ⟨rfl, rfl⟩
  exact .pure ⟨decide_eq_true_iff, rfl⟩

theorem advance (h : s.kindAt p ≠ .eof) :
    Follows s us p (fun token q => token = s.tokens.get p.position ∧ q = p.moved) (advance s)
      (advance (s.withTokens us)) := by
  refine (current p).bind ?_
  rintro token q ⟨rfl, rfl⟩
  have hkind : (s.tokens.get q.position).kind ≠ .eof := h
  dsimp only
  rw [if_pos hkind]
  intro token q hp
  cases hp
  exact ⟨Nat.le_succ _, ⟨rfl, rfl⟩, fun _ => rfl⟩

theorem eat (kind : TokenKind) (hk : kind ≠ .eof) (p : ParseState) :
    Follows s us p
      (fun b q => b = true ∧ s.kindAt p = kind ∧ q = p.moved ∨ b = false ∧ q = p)
      (eat s kind) (eat (s.withTokens us) kind) := by
  refine (isAt kind p).bind ?_
  rintro b q ⟨hb, rfl⟩
  refine .ite (fun h => ?_) fun _ => .pure (.inr ⟨rfl, rfl⟩)
  have hkind := hb.1 h
  refine (advance (hkind ▸ hk)).bind ?_
  rintro token q ⟨-, rfl⟩
  exact .pure (.inl ⟨rfl, hkind, rfl⟩)

theorem unexpected {expected : String} : Follows s us p Q (unexpected s expected) y :=
  fails fun _ _ hp => by cases hp

theorem expectOpening (bracket : Bracket) (p : ParseState) :
    Follows s us p (fun _ q => s.kindAt p = .opening bracket ∧ q = p.moved)
      (expectOpening s bracket) (expectOpening (s.withTokens us) bracket) := by
  refine (isAt _ p).bind ?_
  rintro b q ⟨hb, rfl⟩
  refine .ite (fun h => ?_) fun _ => .unexpected
  have hkind := hb.1 h
  exact (advance (hkind ▸ nofun)).mono fun _ _ h => ⟨hkind, h.2⟩

theorem expectClosing (opened : Token) (bracket : Bracket) (p : ParseState) :
    Follows s us p (fun _ q => s.kindAt p = .closing bracket ∧ q = p.moved)
      (expectClosing s opened bracket) (expectClosing (s.withTokens us) opened bracket) := by
  refine (isAt _ p).bind ?_
  rintro b q ⟨hb, rfl⟩
  refine .ite (fun h => ?_) fun _ => .fails fun _ _ hp => by cases hp
  have hkind := hb.1 h
  exact (advance (hkind ▸ nofun)).mono fun _ _ h => ⟨hkind, h.2⟩

/-- A look ahead, if the token is passed before the end. -/
theorem kindAfter {n : Nat} {f g : TokenKind → Parser α}
    (h : Follows s us p (fun a q => Q a q ∧ p.position + n ≤ q.position)
      (f (s.tokens.get (p.position + n)).kind) (g (s.tokens.get (p.position + n)).kind)) :
    Follows s us p Q (kindAfter s n >>= f) (kindAfter (s.withTokens us) n >>= g) := by
  intro a q hp
  obtain ⟨hpq, ⟨hQ, hn⟩, hg⟩ := h a q hp
  refine ⟨hpq, hQ, fun same => ?_⟩
  show (g (us.get (p.position + n)).kind).run p = _
  rw [same _ hn]
  exact hg same

/-! ### Steps over no token -/

theorem noteTypes (ts : List Ty) (p : ParseState) :
    Follows s us p (fun _ q => p.Still q) (noteTypes ts) (noteTypes ts) :=
  blind rfl fun _ _ hp => by
    cases hp
    exact ⟨Nat.le_refl _, rfl, rfl⟩

theorem requireValue (e : Expr) (line : Nat) (p : ParseState) :
    Follows s us p (fun _ q => q = p) (requireValue e line) (requireValue e line) :=
  blind rfl fun _ _ hp => by
    obtain ⟨rfl, -⟩ := requireValue_ok.1 hp
    exact ⟨Nat.le_refl _, rfl⟩

theorem resolveType (ref : TypeRef) (token : Token) (p : ParseState) :
    Follows s us p (fun _ q => p.Still q) (resolveType s ref token)
      (resolveType (s.withTokens us) ref token) := by
  refine (noteTypes _ p).bind fun _ q hq => ?_
  dsimp only
  cases s.registry.resolveType ref with
  | ok t => exact .pure hq
  | error _ => exact .refuse

theorem resolveTypes (refs : List TypeRef) (token : Token) (p : ParseState) :
    Follows s us p (fun _ q => p.Still q) (resolveTypes s refs token)
      (resolveTypes (s.withTokens us) refs token) := by
  unfold Parser.resolveTypes
  induction refs generalizing p with
  | nil => exact .pure ⟨rfl, rfl⟩
  | cons ref refs ih =>
    rw [List.mapM_cons, List.mapM_cons]
    refine (resolveType ref token p).bind fun t q hq => ?_
    refine (ih q).bind fun ts r hr => .pure ?_
    exact ⟨hr.1.trans hq.1, hr.2.trans hq.2⟩

theorem found (result : Except ResolveError α) (token : Token) (owner : Option Ty)
    (member : String) (p : ParseState) :
    Follows s us p (fun a q => result = .ok a ∧ q = p) (found s result token owner member)
      (found (s.withTokens us) result token owner member) := by
  cases result with
  | ok a => exact .pure ⟨rfl, rfl⟩
  | error _ => exact .refuse

end Follows

end Parser

end TypedExpr
