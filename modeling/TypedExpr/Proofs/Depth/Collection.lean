import TypedExpr.Proofs.Depth.Nesting
import TypedExpr.Proofs.Extent.Collection
/-!
# Collecting items within a limit

How deep expressions may nest makes no difference but one: where it is too little, parsing is given
up for that reason. What depth it takes is known from the tokens that have been read.

* `Parser.Graded`: two steps, the first of which has so many levels left and the second so many, do
  the same unless the levels are too few. There is one rule for each construct of the monad.
* `Parser.Inside`, `Parser.Deepens`: what is known of the step that parses the expressions inside.
* `Parser.Deepens.collect`: the items up to a token that ends the expression.
-/

namespace TypedExpr.Parser

variable {α β : Type} {s : Setting} {n m : Nat} {p q r : ParseState}

/-- Parsing has been given up because expressions nest too deep. -/
def TooDeep (result : Except ParseError α) : Prop :=
  ∃ e, result = .error e ∧ e.code = .nestingTooDeep

/-- The first step has `n` levels left and the second has `m`. If the first succeeds, it has taken
so many levels that `Q` holds, and the second does the same if it has that many, and is given up if
it has not. If the first fails, then because it has too few levels, or so does the second, with as
many levels. -/
structure Graded (n m : Nat) (p : ParseState) (Q : α → ParseState → Nat → Prop) (x y : Parser α) :
    Prop where
  ok {a : α} {q : ParseState} (h : x.run p = (.ok a, q)) : ∃ d ≤ n, Q a q d ∧
    (d ≤ m → y.run p = (.ok a, q)) ∧ (m < d → TooDeep (y.run p).1)
  error {e : ParseError} {q : ParseState} (h : x.run p = (.error e, q)) :
    e.code = .nestingTooDeep ∨ (n ≤ m → y.run p = (.error e, q))

namespace Graded

variable {Q : α → ParseState → Nat → Prop} {R : β → ParseState → Nat → Prop} {x y : Parser α}

/-- A step that does not parse expressions. -/
theorem fixed (s : Setting) {P : α → ParseState → Prop} {z : Parser α}
    (h : Follows s s.tokens p P x z) :
    Graded n m p (fun a q d => P a q ∧ d = 0) x x where
  ok hx := ⟨0, Nat.zero_le n, ⟨(h _ _ hx).2.1, rfl⟩, fun _ => hx,
    fun h => absurd h (Nat.not_lt_zero m)⟩
  error hx := .inr fun _ => hx

theorem pure {a : α} (h : Q a p 0) : Graded n m p Q (pure a) (pure a) where
  ok hx := by
    cases hx
    exact ⟨0, Nat.zero_le n, h, fun _ => rfl, fun h => absurd h (Nat.not_lt_zero m)⟩
  error hx := by cases hx

/-- A step that fails. -/
theorem fails (h : ∀ a q, x.run p ≠ (.ok a, q)) : Graded n m p Q x x where
  ok hx := absurd hx (h _ _)
  error hx := .inr fun _ => hx

theorem refuse {diagnostic : Diagnostic} {line : Nat} :
    Graded n m p Q (refuse diagnostic line) (Parser.refuse diagnostic line) :=
  fails fun _ _ h => by cases h

theorem unexpected {expected : String} :
    Graded n m p Q (unexpected s expected) (Parser.unexpected s expected) :=
  fails fun _ _ h => by cases h

theorem bind {f g : α → Parser β} (hx : Graded n m p Q x y)
    (hf : ∀ a q d, Q a q d → Graded n m q (fun b r e => R b r (max d e)) (f a) (g a)) :
    Graded n m p R (x >>= f) (y >>= g) where
  ok {b r} h := by
    obtain ⟨a, q, ha, hb⟩ := run_bind_ok.1 h
    obtain ⟨d, hd, hQ, hsame, hdeep⟩ := hx.ok ha
    obtain ⟨e, he, hR, hsame', hdeep'⟩ := (hf a q d hQ).ok hb
    refine ⟨max d e, by omega, hR, fun hm => ?_, fun hm => ?_⟩
    · rw [run_bind_of_ok (hsame (by omega))]
      exact hsame' (by omega)
    · by_cases hdm : d ≤ m
      · rw [run_bind_of_ok (hsame hdm)]
        exact hdeep' (by omega)
      · obtain ⟨e, he, hcode⟩ := hdeep (by omega)
        rw [run_bind, show y.run p = (.error e, (y.run p).2) from Prod.ext he rfl]
        exact ⟨e, rfl, hcode⟩
  error {e r} h := by
    rw [run_bind] at h
    rcases hr : x.run p with ⟨_ | a, q⟩
    · rw [hr] at h
      cases h
      refine (hx.error hr).imp_right fun hsame hnm => ?_
      rw [run_bind, hsame hnm]
    · rw [hr] at h
      obtain ⟨d, hd, hQ, hsame, -⟩ := hx.ok hr
      refine ((hf a q d hQ).error h).imp_right fun hsame' hnm => ?_
      rw [run_bind_of_ok (hsame (by omega))]
      exact hsame' hnm

theorem mono {Q' : α → ParseState → Nat → Prop} (hx : Graded n m p Q x y)
    (h : ∀ a q d, Q a q d → Q' a q d) : Graded n m p Q' x y where
  ok hr := by
    obtain ⟨d, hd, hQ, hrest⟩ := hx.ok hr
    exact ⟨d, hd, h _ _ d hQ, hrest⟩
  error := hx.error

/-- What is known anyway when the first step succeeds. -/
theorem and {P : α → ParseState → Prop} (hx : Graded n m p Q x y)
    (h : ∀ a q, x.run p = (.ok a, q) → P a q) :
    Graded n m p (fun a q d => Q a q d ∧ P a q) x y where
  ok hr := by
    obtain ⟨d, hd, hQ, hrest⟩ := hx.ok hr
    exact ⟨d, hd, ⟨hQ, h _ _ hr⟩, hrest⟩
  error := hx.error

/-- With one more level on both sides, of which one is taken. -/
theorem deeper (hx : Graded n m p Q x y) :
    Graded (n + 1) (m + 1) p (fun a q d => ∃ d', d = d' + 1 ∧ Q a q d') x y where
  ok hr := by
    obtain ⟨d, hd, hQ, hsame, hdeep⟩ := hx.ok hr
    exact ⟨d + 1, by omega, ⟨d, rfl, hQ⟩, fun h => hsame (by omega), fun h => hdeep (by omega)⟩
  error hr := (hx.error hr).imp_right fun hsame hnm => hsame (by omega)

/-- With one more level on one side, where none was left on the other. -/
theorem exhausted {z : Parser α} (hx : Graded n 0 p Q x y) (hz : TooDeep (z.run p).1) :
    Graded (n + 1) 0 p (fun a q d => ∃ d', d = d' + 1 ∧ Q a q d') x z where
  ok hr := by
    obtain ⟨d, hd, hQ, -⟩ := hx.ok hr
    exact ⟨d + 1, by omega, ⟨d, rfl, hQ⟩, fun h => absurd h (Nat.not_succ_le_zero d), fun _ => hz⟩
  error hr := (hx.error hr).imp_right fun _ h => absurd h (Nat.not_succ_le_zero n)

/-- Both steps turn on the same condition. -/
theorem ite {c : Prop} [Decidable c] {x' y' : Parser α} (h : c → Graded n m p Q x y)
    (h' : ¬c → Graded n m p Q x' y') :
    Graded n m p Q (if c then x else x') (if c then y else y') := by
  by_cases hc : c
  · rw [if_pos hc, if_pos hc]
    exact h hc
  · rw [if_neg hc, if_neg hc]
    exact h' hc

/-- Before a step that does not parse expressions. -/
theorem before (s : Setting) {P : α → ParseState → Prop} {z : Parser α} {f g : α → Parser β}
    (h : Follows s s.tokens p P x z) (hf : ∀ a q, P a q → Graded n m q R (f a) (g a)) :
    Graded n m p R (x >>= f) (x >>= g) := by
  refine (fixed s h).bind ?_
  rintro a q _ ⟨hP, rfl⟩
  exact (hf a q hP).mono fun b r e h => by rwa [Nat.zero_max]

/-- The tokens from a place on have been read; they nest so deep. -/
def ReadFrom (s : Setting) (i : Nat) : α → ParseState → Nat → Prop :=
  fun _ q d => s.tokens.Piece [] i q.position d

/-- Before a step that passes no token. -/
theorem still (s : Setting) {P : α → ParseState → Prop} {z : Parser α} {f g : α → Parser β}
    (h : Follows s s.tokens p P x z) (hpos : ∀ a q, P a q → q.position = p.position)
    (hf : ∀ a q, P a q → Graded n m q (ReadFrom s q.position) (f a) (g a)) :
    Graded n m p (ReadFrom s p.position) (x >>= f) (x >>= g) := by
  refine before s h fun a q hP => ?_
  rw [← hpos a q hP]
  exact hf a q hP

/-- After tokens that have been read. -/
theorem andThen {f g : α → Parser β} (hx : Graded n m p (ReadFrom s p.position) x y)
    (hf : ∀ a q, Graded n m q (ReadFrom s q.position) (f a) (g a)) :
    Graded n m p (ReadFrom s p.position) (x >>= f) (y >>= g) :=
  hx.bind fun a q _ hd => (hf a q).mono fun _ _ _ he => hd.trans he

/-- Behind a token that leaves open what was open. -/
theorem after {i j : Nat} (h : s.tokens.Piece [] i j 0) (hx : Graded n m p (ReadFrom s j) x y) :
    Graded n m p (ReadFrom s i) x y := by
  refine hx.mono fun a q d hd => ?_
  have hall := h.trans hd
  rwa [Nat.zero_max] at hall

theorem done {a : α} : Graded n m p (ReadFrom s p.position) (Pure.pure a) (Pure.pure a) :=
  pure (.refl _ _ _)

/-- A node, and what is made of it. -/
theorem pushed {form : Form Expr} {span : Span} {t : Ty} (f : Expr → α) (p : ParseState) :
    Graded n m p (ReadFrom s p.position) (do return f (← push form span t))
      (do return f (← push form span t)) :=
  .still s (.building rfl fun _ _ h => push_builds h) (fun _ _ h => h.position) fun _ _ _ => .done

end Graded

open TypedExpr.Parser.Graded (ReadFrom)

/-! ### Expressions inside expressions -/

/-- What is known when an expression inside another has been parsed. -/
structure Inside (s : Setting) (p q : ParseState) (d : Nat) : Prop where
  begins : s.tokens.Begins p.position
  piece : s.tokens.Piece [] p.position q.position d
  ends : (s.kindAt q).isTerminator = true
  lt : p.position < q.position

/-- The steps that parse an expression take one level more than its tokens nest. -/
def Deepens (s : Setting) (n m : Nat) (sub sub' : Parser (Option Expr)) : Prop :=
  ∀ p, Graded n m p (fun root q d => ∀ e, root = some e → ∃ d', d = d' + 1 ∧ Inside s p q d')
    sub sub'

/-- A token that is read by itself. -/
theorem piece_token {k : TokenKind} (hk : s.kindAt p = k) (h : k.isPlain = true) :
    s.tokens.Piece [] p.position p.moved.position 0 := by
  subst hk
  exact .plain h

namespace Deepens

variable {sub sub' : Parser (Option Expr)} (hsub : Deepens s n m sub sub')

include hsub

theorem requiredExpression (p : ParseState) :
    Graded n m p (fun _ q d => ∃ d', d = d' + 1 ∧ Inside s p q d') (requiredExpression s sub)
      (Parser.requiredExpression s sub') := by
  refine .before s (.current p) ?_
  rintro token p ⟨rfl, rfl⟩
  refine (hsub p).bind fun root q d hroot => ?_
  cases root with
  | none => exact .refuse
  | some e => exact .pure (by rw [Nat.max_zero]; exact hroot e rfl)

theorem valueExpression (p : ParseState) :
    Graded n m p (fun _ q d => ∃ d', d = d' + 1 ∧ Inside s p q d') (valueExpression s sub)
      (Parser.valueExpression s sub') := by
  refine .before s (.current p) ?_
  rintro token p ⟨rfl, rfl⟩
  refine (hsub.requiredExpression p).bind fun e q d hd => ?_
  refine .before s (.requireValue e _ q) ?_
  rintro _ _ rfl
  exact .pure (by rwa [Nat.max_zero])

/-- The arguments from a place on, if the tokens do not run out. -/
theorem restOfArguments (opened : Token) {k : Nat} {p : ParseState}
    (h : s.tokens.Enough k p.position) :
    Graded n m p
      (fun _ q d => ∃ r, s.tokens.Filled p.position r.position d ∧
        s.kindAt r = .closing .paren ∧ q = r.moved)
      (restOfArguments s sub opened k) (Parser.restOfArguments s sub' opened k) := by
  induction k generalizing p with
  | zero => exact absurd h.pos (Nat.lt_irrefl 0)
  | succ k ih =>
    refine (hsub.valueExpression p).bind ?_
    rintro arg q _ ⟨d, rfl, harg⟩
    refine .before s (.eat .comma nofun q) ?_
    rintro b r (⟨rfl, hcomma, rfl⟩ | ⟨rfl, rfl⟩)
    · have hne : s.kindAt q ≠ .eof := hcomma ▸ nofun
      have hnext := h.next (Nat.le_of_lt harg.lt) hne (Nat.lt_succ_self _)
      refine (ih (p := q.moved) hnext).bind ?_
      rintro ⟨args, closed⟩ r e ⟨r', hrest, hk, rfl⟩
      have harg' := (harg.piece.within [.bracket]).trans (.comma hcomma)
      refine .pure ⟨r', ?_, hk, rfl⟩
      rw [Nat.max_zero] at *
      exact hrest.cons harg.begins harg'
    · refine .before s (.expectClosing opened .paren r) ?_
      rintro closed _ ⟨hk, rfl⟩
      refine .pure ⟨r, ?_, hk, rfl⟩
      exact .something harg.begins (harg.piece.within _)

theorem arguments (p : ParseState) :
    Graded n m p (ReadFrom s p.position) (arguments s sub) (Parser.arguments s sub') := by
  refine .before s (.expectOpening .paren p) ?_
  rintro opened _ ⟨ho, rfl⟩
  refine .before s (.isAt _ _) ?_
  rintro b _ ⟨hb, rfl⟩
  refine .ite (fun h => ?_) fun _ => ?_
  · have hc := hb.1 h
    refine .before s (.advance (hc ▸ nofun)) ?_
    rintro closed _ ⟨-, rfl⟩
    exact .pure (.brackets ho .nothing hc)
  · refine (hsub.restOfArguments opened (s.tokens.enough_size _)).mono ?_
    rintro args _ d ⟨r, hfilled, hc, rfl⟩
    exact .brackets ho hfilled hc

/-- The items of an initializer from a place on, if the tokens do not run out. -/
theorem restOfInitializer (opened : Token) {k : Nat} {p : ParseState}
    (h : s.tokens.Enough k p.position) :
    Graded n m p
      (fun _ q d => ∃ r, s.tokens.Filled p.position r.position d ∧
        s.kindAt r = .closing .brace ∧ q = r.moved)
      (restOfInitializer s sub opened k) (Parser.restOfInitializer s sub' opened k) := by
  induction k generalizing p with
  | zero => exact absurd h.pos (Nat.lt_irrefl 0)
  | succ k ih =>
    refine .before s (.isAt _ p) ?_
    rintro b p ⟨hb, rfl⟩
    refine .ite (fun hclosing => ?_) fun _ => ?_
    · have hc := hb.1 hclosing
      refine .before s (.advance (hc ▸ nofun)) ?_
      rintro closed _ ⟨-, rfl⟩
      exact .pure ⟨p, .nothing, hc, rfl⟩
    refine (hsub.valueExpression p).bind ?_
    rintro item q _ ⟨d, rfl, hitem⟩
    refine .before s (.eat .comma nofun q) ?_
    rintro b r (⟨rfl, hcomma, rfl⟩ | ⟨rfl, rfl⟩)
    · have hne : s.kindAt q ≠ .eof := hcomma ▸ nofun
      have hnext := h.next (Nat.le_of_lt hitem.lt) hne (Nat.lt_succ_self _)
      refine (ih (p := q.moved) hnext).bind ?_
      rintro ⟨items, closed⟩ r e ⟨r', hrest, hk, rfl⟩
      have hitem' := (hitem.piece.within [.bracket]).trans (.comma hcomma)
      refine .pure ⟨r', ?_, hk, rfl⟩
      rw [Nat.max_zero] at *
      exact hrest.cons hitem.begins hitem'
    · refine .before s (.expectClosing opened .brace r) ?_
      rintro closed _ ⟨hk, rfl⟩
      refine .pure ⟨r, ?_, hk, rfl⟩
      exact .something hitem.begins (hitem.piece.within _)

theorem initializer (p : ParseState) :
    Graded n m p (ReadFrom s p.position) (initializer s sub) (Parser.initializer s sub') := by
  refine .before s (.expectOpening .brace p) ?_
  rintro opened _ ⟨ho, rfl⟩
  refine (hsub.restOfInitializer opened (s.tokens.enough_size _)).mono ?_
  rintro items _ d ⟨r, hfilled, hc, rfl⟩
  exact .brackets ho hfilled hc

/-! ### Calls and members -/

theorem globalCall (name : String) (typeArgs : List TypeRef) (token : Token) (p : ParseState) :
    Graded n m p (ReadFrom s p.position) (globalCall s sub name typeArgs token)
      (Parser.globalCall s sub' name typeArgs token) := by
  refine .still s (.isAt _ p) (fun _ _ h => congrArg _ h.2) fun b p _ => ?_
  refine .ite (fun _ => .refuse) fun _ => ?_
  refine .still s (.resolveTypes typeArgs token p) (fun _ _ h => h.1) fun typeArgs p _ => ?_
  refine (hsub.arguments p).andThen ?_
  rintro ⟨args, closed⟩ p
  refine .still s (.noteTypes _ p) (fun _ _ h => h.1) fun _ p _ => ?_
  refine .still s (.found _ token none name p) (fun _ _ h => congrArg _ h.2) fun call p hcall => ?_
  have hl : args.length = call.params.length := by
    simpa using (Registry.resolveFunction_assignable hcall.1).length_eq
  refine .still s (.convertAll hl _ _ p) (fun _ _ h => h.position) fun args p _ => ?_
  exact .pushed _ p

theorem methodCall (owner : Owner) (name : String) (typeArgs : List TypeRef) (token : Token)
    (p : ParseState) :
    Graded n m p (ReadFrom s p.position) (methodCall s sub owner name typeArgs token)
      (Parser.methodCall s sub' owner name typeArgs token) := by
  refine .still s (.resolveTypes typeArgs token p) (fun _ _ h => h.1) fun typeArgs p _ => ?_
  refine (hsub.arguments p).andThen ?_
  rintro ⟨args, closed⟩ p
  refine .still s (.noteTypes _ p) (fun _ _ h => h.1) fun _ p _ => ?_
  refine .still s (.found _ token owner.type name p) (fun _ _ h => congrArg _ h.2)
    fun call p hcall => ?_
  have hl : args.length = call.params.length := by
    simpa using (Registry.resolveMethod_assignable hcall.1).length_eq
  refine .still s (.convertAll hl _ _ p) (fun _ _ h => h.position) fun args p _ => ?_
  exact .pushed _ p

theorem member (owner : Owner) (p : ParseState) :
    Graded n m p (ReadFrom s p.position) (member s sub owner) (Parser.member s sub' owner) := by
  refine .before s (.current p) ?_
  rintro token p ⟨rfl, rfl⟩
  dsimp only
  split
  · rename_i name typeArgs hk
    have hident : s.kindAt p = .ident name typeArgs := hk
    have hname := piece_token hident rfl
    refine .before s (.advance (hident ▸ nofun)) ?_
    rintro token _ ⟨-, rfl⟩
    refine .before s (.isAt _ _) ?_
    rintro b _ ⟨-, rfl⟩
    refine .ite (fun _ => ?_) fun _ => ?_
    · exact .after hname (hsub.methodCall owner name typeArgs _ p.moved)
    · refine (Graded.fixed s (.building rfl fun _ _ h => property_builds h)).mono ?_
      rintro item q _ ⟨hq, rfl⟩
      show s.tokens.Piece [] p.position q.position 0
      rw [hq.position]
      exact hname
  · exact .refuse

theorem collectMember {items : List Item} {p : ParseState} (h : s.kindAt p = .dot) :
    Graded n m p (ReadFrom s p.position) (collectMember s sub items)
      (Parser.collectMember s sub' items) := by
  have hdot : s.tokens.Piece [] p.position p.moved.position 0 := .dot h
  refine .before s (.advance (h ▸ nofun)) ?_
  rintro dot _ ⟨-, rfl⟩
  refine .after hdot ?_
  refine .still s (.building rfl fun _ _ h => attachIndexes_builds h) (fun _ _ h => h.position)
    fun items p₁ _ => ?_
  have howner : Follows s s.tokens p₁ (fun _ q => q = p₁) (ownerOf dot items)
      (ownerOf dot items) := by
    refine .blind rfl fun r q hr => ?_
    obtain ⟨rfl, -⟩ := ownerOf_ok hr
    exact ⟨Nat.le_refl _, rfl⟩
  refine .still s howner (fun _ _ h => congrArg _ h) ?_
  rintro ⟨owner, below⟩ p₂ -
  exact (hsub.member owner p₂).andThen fun item q => .done

/-! ### Construction -/

theorem arrayItems (count : Option Expr) (stop : Span) (p : ParseState) :
    Graded n m p (ReadFrom s p.position) (arrayItems s sub count stop)
      (Parser.arrayItems s sub' count stop) := by
  refine .still s (.isAt _ p) (fun _ _ h => congrArg _ h.2) fun b p _ => ?_
  refine .ite (fun _ => ?_) fun _ => .ite (fun _ => .unexpected) fun _ => .done
  exact (hsub.initializer p).andThen fun items q => .done

theorem newArray (start : Token) (elem : Ty) (count : Option Expr) (stop : Span) (p : ParseState) :
    Graded n m p (ReadFrom s p.position) (newArray s sub start elem count stop)
      (Parser.newArray s sub' start elem count stop) := by
  refine (hsub.arrayItems count stop p).andThen ?_
  rintro ⟨items, stop⟩ p
  refine .still s (.building rfl fun _ _ h => convertEach_builds h) (fun _ _ h => h.position)
    fun items p _ => ?_
  have hlength : Follows s s.tokens p (fun _ q => q = p)
      (checkLength count items.length (start.span.merge stop) start.line)
      (checkLength count items.length (start.span.merge stop) start.line) := by
    refine .blind rfl fun _ q h => ?_
    obtain rfl := checkLength_ok h
    exact ⟨Nat.le_refl _, rfl⟩
  refine .still s hlength (fun _ _ h => congrArg _ h) fun _ p _ => ?_
  refine .still s (.noteTypes _ p) (fun _ _ h => h.1) fun _ p _ => ?_
  exact .pushed _ p

theorem constructorArguments (typeToken : Token) (p : ParseState) :
    Graded n m p (ReadFrom s p.position) (constructorArguments s sub typeToken)
      (Parser.constructorArguments s sub' typeToken) := by
  refine .still s (.isAt _ p) (fun _ _ h => congrArg _ h.2) fun b p _ => ?_
  refine .ite (fun _ => (hsub.arguments p).andThen fun args q => .done) fun _ => ?_
  refine .still s (.isAt _ p) (fun _ _ h => congrArg _ h.2) fun b p _ => ?_
  exact .ite (fun _ => .done) fun _ => .unexpected

theorem insertedItems (start : Token) (t : Ty) (stop : Span) (p : ParseState) :
    Graded n m p (ReadFrom s p.position) (insertedItems s sub start t stop)
      (Parser.insertedItems s sub' start t stop) := by
  refine .still s (.isAt _ p) (fun _ _ h => congrArg _ h.2) fun b p _ => ?_
  refine .ite (fun _ => ?_) fun _ => .done
  refine .still s (.noteTypes _ p) (fun _ _ h => h.1) fun _ p _ => ?_
  dsimp only
  split
  · exact .before s (.current p) fun _ _ _ => .refuse
  · refine (hsub.initializer p).andThen ?_
    rintro ⟨items, closed⟩ p
    refine .still s (.building rfl fun _ _ h => convertEach_builds h) (fun _ _ h => h.position)
      fun items p _ => ?_
    exact .done

theorem newObject (start typeToken : Token) (t : Ty) (p : ParseState) :
    Graded n m p (ReadFrom s p.position) (newObject s sub start typeToken t)
      (Parser.newObject s sub' start typeToken t) := by
  refine (hsub.constructorArguments typeToken p).andThen ?_
  rintro ⟨args, stop⟩ p
  refine .still s (Local.constructorFor typeToken t _ p) (fun _ _ h => h.1.1) fun call p hcall => ?_
  have hl : args.length = call.params.length := by
    simpa using (Registry.resolveConstructor_assignable hcall.2).length_eq
  refine .still s (.convertAll hl _ _ p) (fun _ _ h => h.position) fun args p _ => ?_
  refine (hsub.insertedItems start t stop p).andThen ?_
  rintro ⟨items, insert, stop⟩ p
  exact .pushed _ p

/-- The length of an array, between the brackets. -/
theorem arrayCount (p : ParseState) :
    Graded n m p (fun _ q d => s.tokens.Filled p.position q.position d) (arrayCount s sub)
      (Parser.arrayCount s sub') := by
  refine .before s (.isAt _ p) ?_
  rintro b p ⟨-, rfl⟩
  refine .ite (fun _ => .pure .nothing) fun _ => ?_
  refine .before s (.current p) ?_
  rintro first p ⟨rfl, rfl⟩
  refine (hsub.valueExpression p).bind ?_
  rintro count q _ ⟨d, rfl, hcount⟩
  refine .before s (.building rfl fun _ _ h => convert_builds h) fun count r hr => .pure ?_
  rw [hr.position, Nat.max_zero]
  exact .something hcount.begins (hcount.piece.within _)

theorem construct {p : ParseState} (h : s.kindAt p = .new) :
    Graded n m p (ReadFrom s p.position) (construct s sub) (Parser.construct s sub') := by
  refine .before s (.advance (h ▸ nofun)) ?_
  rintro start _ ⟨-, rfl⟩
  refine .after (piece_token h rfl) ?_
  refine .before s (.current p.moved) ?_
  rintro typeToken _ ⟨rfl, rfl⟩
  generalize p.moved = p
  dsimp only
  split
  · rename_i elem hk
    have hk : s.kindAt p = .type (.array elem) := hk
    refine .before s (.advance (hk ▸ nofun)) ?_
    rintro _ _ ⟨-, rfl⟩
    refine .after (piece_token hk rfl) ?_
    refine .still s (.resolveType elem _ p.moved) (fun _ _ h => h.1) fun t p _ => ?_
    exact hsub.newArray _ t none _ p
  · rename_i ref _ hk
    have hk : s.kindAt p = .type ref := hk
    refine .before s (.advance (hk ▸ nofun)) ?_
    rintro _ _ ⟨-, rfl⟩
    refine .after (piece_token hk rfl) ?_
    refine .still s (.resolveType ref _ p.moved) (fun _ _ h => h.1) fun t p _ => ?_
    refine .before s (.isAt _ p) ?_
    rintro b p ⟨hb, rfl⟩
    refine .ite (fun hsquare => ?_) fun _ => hsub.newObject _ _ t p
    have ho := hb.1 hsquare
    refine .before s (.advance (ho ▸ nofun)) ?_
    rintro opened _ ⟨-, rfl⟩
    refine (hsub.arrayCount p.moved).bind fun count q d hcount => ?_
    refine .before s (.expectClosing opened .square q) ?_
    rintro closed _ ⟨hc, rfl⟩
    have hbrackets : s.tokens.Piece [] p.position q.moved.position d := .brackets ho hcount hc
    exact (hsub.newArray _ t count _ q.moved).mono fun item r e he => hbrackets.trans he
  · exact .refuse

/-! ### Items -/

theorem collectName (name : String) (typeArgs : List TypeRef) (token : Token) (p : ParseState) :
    Graded n m p (ReadFrom s p.position) (collectName s sub name typeArgs token)
      (Parser.collectName s sub' name typeArgs token) := by
  unfold Parser.collectName
  dsimp only
  cases s.scope.get? name with
  | none =>
    refine .ite (fun _ => hsub.globalCall name typeArgs token p) fun _ => ?_
    refine .ite (fun _ => ?_) fun _ => .refuse
    exact .still s (.resolveType _ token p) (fun _ _ h => h.1) fun t q _ => .done
  | some meaning =>
    have literal (form : Form Expr) (t : Ty) (p : ParseState) :
        Graded n m p (ReadFrom s p.position)
          (do return (⟨.value (← Parser.push form token.span t), token.span, token.line⟩ : Item))
          (do return ⟨.value (← Parser.push form token.span t), token.span, token.line⟩) :=
      .pushed _ p
    cases meaning with
    | function => exact hsub.globalCall name typeArgs token p
    | var t => exact literal (.var name) t p
    | constant c =>
      cases c with
      | str text =>
        have hnote : Follows s s.tokens p (fun _ q => p.Still q) (noteName text)
            (noteName text) := .blind rfl fun _ _ hp => by
          cases hp
          exact ⟨Nat.le_refl _, rfl, rfl⟩
        exact .still s hnote (fun _ _ h => h.1) fun _ q _ => literal _ _ q
      | _ => exact literal _ _ p

theorem collectGroup {items : List Item} {p : ParseState} (h : s.kindAt p = .opening .paren) :
    Graded n m p (ReadFrom s p.position) (collectGroup s sub items)
      (Parser.collectGroup s sub' items) := by
  have hpast : ∀ k, Follows s s.tokens p.moved
      (fun a q => a = (s.tokens.get (p.moved.position + k)).kind ∧ q = p.moved) (kindAfter s k)
      (kindAfter s k) := fun k => .blind rfl fun _ _ hp => by
    cases hp
    exact ⟨Nat.le_refl _, rfl, rfl⟩
  refine .before s (.advance (h ▸ nofun)) ?_
  rintro opened _ ⟨-, rfl⟩
  refine .before s (hpast 0) ?_
  rintro _ _ ⟨rfl, rfl⟩
  refine .before s (hpast 1) ?_
  rintro _ _ ⟨rfl, rfl⟩
  split
  · rename_i ref ht hc
    have ht : s.kindAt p.moved = .type ref := ht
    refine .before s (.advance fun he => by cases ht.symm.trans he) ?_
    rintro typeToken _ ⟨-, rfl⟩
    refine .before s (.resolveType ref typeToken p.moved.moved) fun t q hq => ?_
    have hpos : q.position = p.moved.position + 1 := hq.1
    have hclosing : s.kindAt q = .closing .paren := by
      rw [Setting.kindAt, hpos]
      exact hc
    refine .before s (.advance fun he => by cases hclosing.symm.trans he) ?_
    rintro closed _ ⟨-, rfl⟩
    refine .pure ?_
    show s.tokens.Piece [] p.position (q.position + 1) 0
    rw [hpos]
    exact .cast h ht hc
  · refine (hsub.requiredExpression p.moved).bind ?_
    rintro e q _ ⟨d, rfl, hd⟩
    refine .before s (.expectClosing opened .paren q) ?_
    rintro closed _ ⟨hc, rfl⟩
    refine .pure ?_
    exact .brackets h (.something hd.begins (hd.piece.within _)) hc

theorem collectIndex {items : List Item} {p : ParseState} (h : s.kindAt p = .opening .square) :
    Graded n m p (ReadFrom s p.position) (collectIndex s sub items)
      (Parser.collectIndex s sub' items) := by
  refine .before s (.current p) ?_
  rintro opened p ⟨rfl, rfl⟩
  refine .ite (fun _ => .refuse) fun _ => ?_
  refine .before s (.advance (h ▸ nofun)) ?_
  rintro _ _ ⟨-, rfl⟩
  refine (hsub.valueExpression p.moved).bind ?_
  rintro i q _ ⟨d, rfl, hd⟩
  refine .before s (.expectClosing _ .square q) ?_
  rintro closed _ ⟨hc, rfl⟩
  refine .pure ?_
  exact .brackets h (.something hd.begins (hd.piece.within _)) hc

theorem collectTernary {items : List Item} {p : ParseState}
    (h : s.kindAt p = .operator .question) :
    Graded n m p (ReadFrom s p.position) (collectTernary s sub items)
      (Parser.collectTernary s sub' items) := by
  refine .before s (.advance (h ▸ nofun)) ?_
  rintro question _ ⟨-, rfl⟩
  refine (hsub.valueExpression p.moved).bind ?_
  rintro yes q _ ⟨d, rfl, hyes⟩
  refine .before s (.eat .colon nofun q) ?_
  rintro b _ (⟨rfl, hcolon, rfl⟩ | ⟨rfl, rfl⟩)
  · refine (hsub.valueExpression q.moved).bind ?_
    rintro no r _ ⟨e, rfl, hno⟩
    refine .pure ?_
    rw [Nat.max_zero, show max (d + 1) (e + 1) = max d e + 1 by omega]
    exact .choice h hyes.piece hcolon hno.piece hno.ends
  · exact .before s (.current _) fun _ _ _ => .refuse

omit hsub in
theorem collectLiteral {form : Form Expr} {t : Ty} {items : List Item} {p : ParseState}
    (h : (s.kindAt p).isPlain = true) :
    Graded n m p (ReadFrom s p.position) (collectLiteral s form t items)
      (Parser.collectLiteral s form t items) := by
  refine .before s (.advance fun he => by rw [he] at h; cases h) ?_
  rintro token _ ⟨rfl, rfl⟩
  refine .after (piece_token rfl h) ?_
  exact .pushed _ _

theorem collectNext {items : List Item} {p : ParseState}
    (h : (s.kindAt p).isTerminator = false) :
    Graded n m p (ReadFrom s p.position) (collectNext s sub items)
      (Parser.collectNext s sub' items) := by
  have hne : s.kindAt p ≠ .eof := fun he => by rw [he] at h; cases h
  refine .before s (.current p) ?_
  rintro token p ⟨rfl, rfl⟩
  split
  · exact hsub.collectGroup ‹_›
  · exact hsub.collectIndex ‹_›
  · exact hsub.collectMember ‹_›
  · exact hsub.collectTernary ‹_›
  · exact (hsub.construct ‹_›).andThen fun item q => .done
  iterate 4
    rename_i hk
    have hk : s.kindAt p = _ := hk
    exact collectLiteral (by rw [hk]; rfl)
  · rename_i name typeArgs hk
    have hk : s.kindAt p = .ident name typeArgs := hk
    refine .before s (.advance hne) ?_
    rintro _ _ ⟨-, rfl⟩
    refine .after (piece_token hk rfl) ?_
    exact (hsub.collectName name typeArgs _ p.moved).andThen fun item q => .done
  · rename_i ref hk
    have hk : s.kindAt p = .type ref := hk
    refine .before s (.advance hne) ?_
    rintro _ _ ⟨-, rfl⟩
    refine .after (piece_token hk rfl) ?_
    exact .still s (.resolveType ref _ p.moved) (fun _ _ h => h.1) fun t q _ => .done
  · rename_i op hq hk
    have hk : s.kindAt p = .operator op := hk
    refine .before s (.advance hne) ?_
    rintro _ _ ⟨-, rfl⟩
    exact .after (piece_token hk (decide_eq_true hq)) .done
  · exact .unexpected

/-- The items from a place on, if the tokens do not run out. -/
theorem collectFrom (hlocal : Local s s.tokens sub sub) {k : Nat} {items : List Item}
    {p : ParseState} (h : s.tokens.Enough k p.position) :
    Graded n m p (ReadFrom s p.position) (collectFrom s sub k items)
      (Parser.collectFrom s sub' k items) := by
  induction k generalizing items p with
  | zero => exact absurd h.pos (Nat.lt_irrefl 0)
  | succ k ih =>
    refine .before s (.current p) ?_
    rintro token p ⟨rfl, rfl⟩
    refine .ite (fun _ => .done) fun hend => ?_
    have hk : (s.kindAt p).isTerminator = false := Bool.eq_false_iff.2 hend
    have hne : s.kindAt p ≠ .eof := fun he => by rw [he] at hk; cases hk
    have hpasses : ∀ items' q, (Parser.collectNext s sub items).run p = (.ok items', q) →
        p.position < q.position := fun items' q hr => ((hlocal.collectNext hk) items' q hr).2.1.lt
    refine ((hsub.collectNext hk).and hpasses).bind ?_
    rintro items' q d ⟨hd, hlt⟩
    exact (ih (h.next le_rfl hne hlt)).mono fun items'' r e he => hd.trans he

theorem collect (hlocal : Local s s.tokens sub sub) (p : ParseState) :
    Graded n m p (ReadFrom s p.position) (collect s sub) (Parser.collect s sub') :=
  hsub.collectFrom hlocal (s.tokens.enough_size _)

end Deepens

end TypedExpr.Parser
