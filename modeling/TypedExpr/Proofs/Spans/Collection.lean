import TypedExpr.Proofs.Extent
import TypedExpr.Proofs.Spans.Stretches
/-!
# Collecting stretches of tokens

Whatever begins at a token becomes an item that covers the tokens which have been read for it. The
span of a node that ends with a bracket is joined with that of the bracket, and the span of a group
is that of its parentheses.

* `Parser.Reads`: what is known of a step that succeeds.
* `Parser.Bounds`: what is known of the step that parses the expressions inside.
* `Parser.Bounds.collect`: the items up to a token that ends the expression.
-/

namespace TypedExpr

/-- The token passed last. -/
def Setting.passed (s : Setting) (p : ParseState) : Token := s.tokens.get (p.position - 1)

theorem Setting.passed_eq {s : Setting} {p q : ParseState} (h : q.position = p.position) :
    s.passed q = s.passed p := by
  rw [passed, h, passed]

@[simp] theorem Setting.passed_moved (s : Setting) (p : ParseState) :
    s.passed p.moved = s.tokens.get p.position := rfl

/-- Joined with the token passed last, tokens reach up to it. -/
theorem Setting.merge_passed {s : Setting} {p : ParseState} {i j : Nat}
    (hd : s.tokens.Disjoint) (hi : i < p.position) (hj : j ≤ p.position) :
    (s.tokens.stretch i j).merge (s.passed p).span = s.tokens.stretch i p.position :=
  hd.merge_stretch (Nat.le_sub_one_of_lt hi) hj

namespace Parser

variable {α : Type} {s : Setting} {sub : Parser (Option Expr)} {p : ParseState} {i : Nat}
  {items : List Item} {start token : Token}

/-- Whenever the step succeeds from the state, it has gone forward, and `Q` holds of its result and
of the state after it. -/
abbrev Reads (s : Setting) (p : ParseState) (Q : α → ParseState → Prop) (x : Parser α) : Prop :=
  Follows s s.tokens p Q x x

theorem Reads.expectClosing (opened : Token) (bracket : Bracket) (p : ParseState) :
    Reads s p
      (fun closed q => closed = s.passed q ∧ s.kindAt p = .closing bracket ∧ q = p.moved)
      (expectClosing s opened bracket) := by
  refine (Follows.isAt _ p).bind ?_
  rintro b q ⟨hb, rfl⟩
  refine .ite (fun h => ?_) fun _ => .fails fun _ _ hp => by cases hp
  have hkind := hb.1 h
  refine (Follows.advance (hkind ▸ nofun)).mono ?_
  rintro closed _ ⟨rfl, rfl⟩
  exact ⟨rfl, hkind, rfl⟩

theorem Reads.push (form : Form Expr) (span : Span) (t : Ty) (p : ParseState) :
    Reads s p (fun e q => e.span = span ∧ q.position = p.position) (push form span t) :=
  .blind rfl fun _ _ h => by
    cases h
    exact ⟨Nat.le_refl _, rfl, rfl⟩

/-! ### Expressions inside expressions -/

/-- An expression that is parsed reaches from the first of its tokens to the last, but for
parentheses around it. -/
structure Bounds (s : Setting) (sub : Parser (Option Expr)) : Prop where
  follows : Local s s.tokens sub sub
  core {p q : ParseState} {root : Option Expr} (h : sub.run p = (.ok root, q)) :
    ∀ e ∈ root, s.tokens.Core e.span p.position q.position

namespace Bounds

variable (hsub : Bounds s sub)

include hsub

theorem requiredExpression (p : ParseState) :
    Reads s p (fun e q => s.tokens.Core e.span p.position q.position ∧
      (s.kindAt q).isTerminator = true) (requiredExpression s sub) := by
  have hroot (p : ParseState) : Reads s p (fun root q =>
      (∀ e ∈ root, s.tokens.Core e.span p.position q.position) ∧
        (s.kindAt q).isTerminator = true) sub := fun root q h => by
    obtain ⟨hle, hparses, hsame⟩ := hsub.follows p root q h
    exact ⟨hle, ⟨hsub.core h, hparses.ends⟩, hsame⟩
  refine (Follows.current p).bind ?_
  rintro token p ⟨rfl, rfl⟩
  refine (hroot p).bind ?_
  rintro root q ⟨hcore, hends⟩
  cases root with
  | none => exact .refuse
  | some e => exact .pure ⟨hcore e rfl, hends⟩

theorem valueExpression (p : ParseState) :
    Reads s p (fun e q => s.tokens.Core e.span p.position q.position ∧
      (s.kindAt q).isTerminator = true) (valueExpression s sub) := by
  refine (Follows.current p).bind ?_
  rintro token p ⟨rfl, rfl⟩
  refine (hsub.requiredExpression p).bind fun e q he => ?_
  refine (Follows.requireValue e _ q).bind ?_
  rintro _ _ rfl
  exact .pure he

/-- The arguments end with the token passed last. -/
theorem restOfArguments (opened : Token) {n : Nat} {p : ParseState}
    (h : s.tokens.Enough n p.position) :
    Reads s p (fun r q => p.position < q.position ∧ r.2 = s.passed q)
      (restOfArguments s sub opened n) := by
  induction n generalizing p with
  | zero => exact absurd h.pos (Nat.lt_irrefl 0)
  | succ n ih =>
    refine (hsub.valueExpression p).bind ?_
    rintro arg q ⟨harg, -⟩
    have hlt := harg.lt
    refine (Follows.eat .comma nofun q).bind ?_
    rintro b r (⟨rfl, hcomma, rfl⟩ | ⟨rfl, rfl⟩)
    · have hne : s.kindAt q ≠ .eof := hcomma ▸ nofun
      refine (ih (h.next (Nat.le_of_lt hlt) hne (Nat.lt_succ_self _))).bind ?_
      rintro ⟨args, closed⟩ r ⟨hlt', hclosed⟩
      exact .pure ⟨Nat.lt_trans hlt (Nat.lt_trans (Nat.lt_succ_self _) hlt'), hclosed⟩
    · refine (Reads.expectClosing opened .paren r).bind ?_
      rintro closed _ ⟨hclosed, -, rfl⟩
      exact .pure ⟨Nat.lt_succ_of_lt hlt, hclosed⟩

theorem arguments (p : ParseState) :
    Reads s p (fun r q => p.position < q.position ∧ r.2 = s.passed q) (arguments s sub) := by
  refine (Follows.expectOpening .paren p).bind ?_
  rintro opened _ ⟨-, rfl⟩
  refine (Follows.isAt _ _).bind ?_
  rintro b _ ⟨hb, rfl⟩
  refine .ite (fun h => ?_) fun _ => ?_
  · have hc := hb.1 h
    refine (Follows.advance (hc ▸ nofun)).bind ?_
    rintro closed _ ⟨rfl, rfl⟩
    exact .pure ⟨Nat.lt_succ_of_lt (Nat.lt_succ_self _), rfl⟩
  · refine (hsub.restOfArguments opened (s.tokens.enough_size _)).mono ?_
    rintro r q ⟨hlt, hclosed⟩
    exact ⟨Nat.lt_trans (Nat.lt_succ_self _) hlt, hclosed⟩

/-- The initializer ends with the token passed last. -/
theorem restOfInitializer (opened : Token) {n : Nat} {p : ParseState}
    (h : s.tokens.Enough n p.position) :
    Reads s p (fun r q => p.position < q.position ∧ r.2 = s.passed q)
      (restOfInitializer s sub opened n) := by
  induction n generalizing p with
  | zero => exact absurd h.pos (Nat.lt_irrefl 0)
  | succ n ih =>
    refine (Follows.isAt _ p).bind ?_
    rintro b p ⟨hb, rfl⟩
    refine .ite (fun h => ?_) fun _ => ?_
    · have hc := hb.1 h
      refine (Follows.advance (hc ▸ nofun)).bind ?_
      rintro closed _ ⟨rfl, rfl⟩
      exact .pure ⟨Nat.lt_succ_self _, rfl⟩
    refine (hsub.valueExpression p).bind ?_
    rintro item q ⟨hitem, -⟩
    have hlt := hitem.lt
    refine (Follows.eat .comma nofun q).bind ?_
    rintro b r (⟨rfl, hcomma, rfl⟩ | ⟨rfl, rfl⟩)
    · have hne : s.kindAt q ≠ .eof := hcomma ▸ nofun
      refine (ih (h.next (Nat.le_of_lt hlt) hne (Nat.lt_succ_self _))).bind ?_
      rintro ⟨items, closed⟩ r ⟨hlt', hclosed⟩
      exact .pure ⟨Nat.lt_trans hlt (Nat.lt_trans (Nat.lt_succ_self _) hlt'), hclosed⟩
    · refine (Reads.expectClosing opened .brace r).bind ?_
      rintro closed _ ⟨hclosed, -, rfl⟩
      exact .pure ⟨Nat.lt_succ_of_lt hlt, hclosed⟩

theorem initializer (p : ParseState) :
    Reads s p (fun r q => p.position < q.position ∧ r.2 = s.passed q) (initializer s sub) := by
  refine (Follows.expectOpening .brace p).bind ?_
  rintro opened _ ⟨-, rfl⟩
  refine (hsub.restOfInitializer opened (s.tokens.enough_size _)).mono ?_
  rintro r q ⟨hlt, hclosed⟩
  exact ⟨Nat.lt_trans (Nat.lt_succ_self _) hlt, hclosed⟩

/-! ### Calls and members -/

variable (hd : s.tokens.Disjoint)

include hd

theorem globalCall (name : String) (typeArgs : List TypeRef) (p : ParseState)
    (hi : i < p.position) :
    Reads s p (fun item q => item.Covers s.tokens i q.position)
      (globalCall s sub name typeArgs (s.tokens.get i)) := by
  refine (Follows.isAt _ p).bind ?_
  rintro b p ⟨-, rfl⟩
  refine .ite (fun _ => .refuse) fun _ => ?_
  refine (Follows.resolveTypes typeArgs _ p).bind fun typeArgs p₁ h₁ => ?_
  refine (hsub.arguments p₁).bind ?_
  rintro ⟨args, closed⟩ p₂ ⟨hlt, rfl⟩
  refine (Follows.noteTypes _ p₂).bind fun _ p₃ h₃ => ?_
  refine (Follows.found _ _ none name p₃).bind ?_
  rintro call _ ⟨hcall, rfl⟩
  have hl : args.length = call.params.length := by
    simpa using (Registry.resolveFunction_assignable hcall).length_eq
  refine (Follows.convertAll hl _ _ _).bind fun args p₄ h₄ => ?_
  refine (Reads.push _ _ _ p₄).bind ?_
  rintro e p₅ ⟨he, h₅⟩
  have hpos : p₅.position = p₂.position := h₅.trans (h₄.position.trans h₃.1)
  have hlt : i < p₂.position := Nat.lt_of_lt_of_le hi (h₁.1 ▸ Nat.le_of_lt hlt)
  refine .pure (hpos ▸ .value hlt he ?_ _)
  exact s.merge_passed hd hlt hlt

theorem methodCall {owner : Owner} {j : Nat} (ho : owner.item.span = s.tokens.stretch i j)
    (name : String) (typeArgs : List TypeRef) (token : Token) (p : ParseState)
    (hi : i < p.position) (hj : j ≤ p.position) :
    Reads s p (fun item q => item.Covers s.tokens i q.position)
      (methodCall s sub owner name typeArgs token) := by
  refine (Follows.resolveTypes typeArgs _ p).bind fun typeArgs p₁ h₁ => ?_
  refine (hsub.arguments p₁).bind ?_
  rintro ⟨args, closed⟩ p₂ ⟨hlt, rfl⟩
  refine (Follows.noteTypes _ p₂).bind fun _ p₃ h₃ => ?_
  refine (Follows.found _ _ owner.type name p₃).bind ?_
  rintro call _ ⟨hcall, rfl⟩
  have hl : args.length = call.params.length := by
    simpa using (Registry.resolveMethod_assignable hcall).length_eq
  refine (Follows.convertAll hl _ _ _).bind fun args p₄ h₄ => ?_
  refine (Reads.push _ _ _ p₄).bind ?_
  rintro e p₅ ⟨he, h₅⟩
  have hpos : p₅.position = p₂.position := h₅.trans (h₄.position.trans h₃.1)
  have hlt : p.position ≤ p₂.position := h₁.1 ▸ Nat.le_of_lt hlt
  refine .pure (hpos ▸ .value (Nat.lt_of_lt_of_le hi hlt) he ?_ _)
  rw [ho]
  exact s.merge_passed hd (Nat.lt_of_lt_of_le hi hlt) (Nat.le_trans hj hlt)

omit hsub in
theorem property {owner : Owner} {j : Nat} (ho : owner.item.span = s.tokens.stretch i j)
    (name : String) (p : ParseState) (hi : i < p.position) (hj : j ≤ p.position) :
    Reads s p (fun item q => item.Covers s.tokens i q.position)
      (property s owner name (s.passed p)) := by
  refine (Follows.noteTypes _ p).bind fun _ p₁ h₁ => ?_
  dsimp only
  split
  · refine (Reads.push _ _ _ p₁).bind ?_
    rintro e p₂ ⟨he, h₂⟩
    have hpos : p₂.position = p.position := h₂.trans h₁.1
    refine .pure (hpos ▸ .value hi he ?_ _)
    rw [ho]
    exact s.merge_passed hd hi hj
  · exact .ite (fun _ => .throw) fun _ => .throw

theorem member {owner : Owner} {j : Nat} (ho : owner.item.span = s.tokens.stretch i j)
    (p : ParseState) (hi : i ≤ p.position) (hj : j ≤ p.position) :
    Reads s p (fun item q => item.Covers s.tokens i q.position) (member s sub owner) := by
  refine (Follows.current p).bind ?_
  rintro token p ⟨rfl, rfl⟩
  dsimp only
  split
  · rename_i name typeArgs hk
    have hne : s.kindAt p ≠ .eof := fun h => by cases hk.symm.trans h
    refine (Follows.advance hne).bind ?_
    rintro _ _ ⟨-, rfl⟩
    refine (Follows.isAt _ _).bind ?_
    rintro b _ ⟨-, rfl⟩
    have hi := Nat.lt_succ_of_le hi
    have hj := Nat.le_succ_of_le hj
    refine .ite (fun _ => ?_) fun _ => ?_
    · exact hsub.methodCall hd ho name typeArgs _ p.moved hi hj
    · exact property hd ho name p.moved hi hj
  · exact .refuse

omit hsub in
/-- Indexes become part of the item that they follow. -/
theorem attach {brackets below : List Item} (hb : ∀ b ∈ brackets, b.isIndex = true)
    {container : Item} {j : Nat}
    (h : Stacked s.tokens i (brackets.reverse ++ container :: below) j) (p : ParseState) :
    Reads s p (fun item q => Stacked s.tokens i (item :: below) j ∧ q.position = p.position)
      (brackets.foldlM (fun container bracket =>
        match bracket.kind with
        | .index i => Parser.buildIndex s container i bracket
        | _ => return container) container) := by
  induction brackets generalizing container p with
  | nil => exact .pure ⟨h, rfl⟩
  | cons bracket brackets ih =>
    rw [List.foldlM_cons]
    rw [List.reverse_cons, List.append_assoc, List.singleton_append] at h
    have hstep : Reads s p (fun element q =>
        Stacked s.tokens i (brackets.reverse ++ element :: below) j ∧ q.position = p.position)
        (match bracket.kind with
        | .index i => Parser.buildIndex s container i bracket
        | _ => return container) := by
      split
      · refine .blind rfl fun element q hp => ?_
        have hpos := (buildIndex_builds hp).position
        obtain ⟨e, he, rfl⟩ := buildIndex_ok hp
        refine ⟨Nat.le_of_eq hpos.symm, h.replace fun j hj => ?_, hpos⟩
        obtain _ | ⟨hj, hi⟩ := hj
        obtain _ | ⟨hbelow, hc⟩ := hj
        refine .cons hbelow (.value (Nat.lt_trans hc.lt hi.lt) he ?_ _)
        rw [hc.span, hi.span]
        exact hd.merge_stretch (Nat.le_of_lt hc.lt) (Nat.le_of_lt hi.lt)
      · rename_i hk
        obtain ⟨kind, _, _⟩ := bracket
        have hindex := hb _ (.head _)
        cases kind with
        | index i => exact absurd rfl (hk i)
        | _ => cases hindex
    refine hstep.bind ?_
    rintro element q ⟨helement, hq⟩
    refine (ih (fun b hb' => hb b (.tail _ hb')) helement q).mono ?_
    rintro item r ⟨hitem, hr⟩
    exact ⟨hitem, hr.trans hq⟩

omit hsub in
theorem attachIndexes {j : Nat} (h : Stacked s.tokens i items j) (p : ParseState) :
    Reads s p (fun items' q => Stacked s.tokens i items' j ∧ q.position = p.position)
      (attachIndexes s items) := by
  have hindex : ∀ b ∈ (items.takeWhile (·.isIndex)).reverse, b.isIndex = true := fun b hb =>
    List.mem_takeWhile_imp (List.mem_reverse.1 hb)
  have hall : (items.takeWhile (·.isIndex)).reverse.reverse ++ items.dropWhile (·.isIndex) =
      items := by
    rw [List.reverse_reverse, List.takeWhile_append_dropWhile]
  rw [← hall] at h
  unfold Parser.attachIndexes
  dsimp only
  generalize (items.takeWhile (·.isIndex)).reverse = brackets at h hindex ⊢
  generalize items.dropWhile (·.isIndex) = rest at h ⊢
  split
  · exact .pure ⟨h, rfl⟩
  · exact .refuse
  · refine (attach hd hindex h p).bind ?_
    rintro item q ⟨hitem, hq⟩
    exact .pure ⟨hitem, hq⟩

omit hsub hd in
theorem ownerOf {dot : Token} {j : Nat} (h : Stacked s.tokens i items j) (p : ParseState) :
    Reads s p (fun r q => q = p ∧ ∃ m, Stacked s.tokens i r.2 m ∧
      r.1.item.span = s.tokens.stretch m j ∧ m < j) (ownerOf dot items) := by
  unfold Parser.ownerOf
  split
  · exact .refuse
  · rename_i last below
    obtain _ | ⟨hbelow, hlast⟩ := h
    split
    · refine (Follows.requireValue _ _ p).bind ?_
      rintro _ _ rfl
      exact .pure ⟨rfl, _, hbelow, hlast.span, hlast.lt⟩
    · exact .pure ⟨rfl, _, hbelow, hlast.span, hlast.lt⟩
    · exact .refuse

theorem collectMember (h : Stacked s.tokens i items p.position) (hk : s.kindAt p = .dot) :
    Reads s p (fun items' q => Stacked s.tokens i items' q.position)
      (collectMember s sub items) := by
  refine (Follows.advance (hk ▸ nofun)).bind ?_
  rintro dot _ ⟨-, rfl⟩
  refine (attachIndexes hd h _).bind ?_
  rintro items p₁ ⟨hitems, h₁⟩
  refine (ownerOf hitems p₁).bind ?_
  rintro ⟨owner, below⟩ p₁ ⟨rfl, m, hbelow, ho, hm⟩
  have hle : p.position ≤ p₁.position := h₁ ▸ Nat.le_succ _
  refine (hsub.member hd ho p₁ (by omega) hle).bind fun item q hitem => ?_
  exact .pure (.cons hbelow hitem)

/-! ### Construction -/

omit hd

theorem arrayItems (count : Option Expr) (p : ParseState) :
    Reads s p (fun r q => p.position ≤ q.position ∧ r.2 = (s.passed q).span)
      (arrayItems s sub count (s.passed p).span) := by
  refine (Follows.isAt _ p).bind ?_
  rintro b p ⟨-, rfl⟩
  refine .ite (fun _ => ?_) fun _ => .ite (fun _ => .unexpected) fun _ => .pure ⟨Nat.le_refl _, rfl⟩
  refine (hsub.initializer p).bind ?_
  rintro ⟨items, closed⟩ q ⟨hlt, rfl⟩
  exact .pure ⟨Nat.le_of_lt hlt, rfl⟩

theorem constructorArguments (p : ParseState) {typeToken : Token}
    (ht : typeToken = s.passed p) :
    Reads s p (fun r q => p.position ≤ q.position ∧ r.2 = (s.passed q).span)
      (constructorArguments s sub typeToken) := by
  refine (Follows.isAt _ p).bind ?_
  rintro b p ⟨-, rfl⟩
  refine .ite (fun _ => ?_) fun _ => ?_
  · refine (hsub.arguments p).bind ?_
    rintro ⟨args, closed⟩ q ⟨hlt, rfl⟩
    exact .pure ⟨Nat.le_of_lt hlt, rfl⟩
  · refine (Follows.isAt _ p).bind ?_
    rintro b p ⟨-, rfl⟩
    exact .ite (fun _ => .pure ⟨Nat.le_refl _, congrArg Token.span ht⟩) fun _ => .unexpected

theorem insertedItems (t : Ty) {stop : Span} (p : ParseState) (hstop : stop = (s.passed p).span) :
    Reads s p (fun r q => p.position ≤ q.position ∧ r.2.2 = (s.passed q).span)
      (insertedItems s sub start t stop) := by
  refine (Follows.isAt _ p).bind ?_
  rintro b p ⟨-, rfl⟩
  refine .ite (fun _ => ?_) fun _ => .pure ⟨Nat.le_refl _, hstop⟩
  refine (Follows.noteTypes _ p).bind fun _ p₁ h₁ => ?_
  dsimp only
  split
  · exact (Follows.current _).bind fun _ _ _ => .refuse
  · refine (hsub.initializer p₁).bind ?_
    rintro ⟨items, closed⟩ p₂ ⟨hlt, rfl⟩
    refine (Follows.building rfl fun _ _ h => convertEach_builds h).bind fun items p₃ h₃ => ?_
    have hpos := h₃.position
    refine .pure ⟨?_, ?_⟩
    · rw [hpos, ← h₁.1]
      exact Nat.le_of_lt hlt
    · rw [s.passed_eq hpos]

include hd

theorem newArray (elem : Ty) (count : Option Expr) {stop : Span} (p : ParseState)
    (hstop : stop = (s.passed p).span) (hi : i < p.position) :
    Reads s p (fun item q => item.Covers s.tokens i q.position)
      (newArray s sub (s.tokens.get i) elem count stop) := by
  subst hstop
  refine (hsub.arrayItems count p).bind ?_
  rintro ⟨items, stop⟩ p₁ ⟨h₁, rfl⟩
  refine (Follows.building rfl fun _ _ h => convertEach_builds h).bind fun items p₂ h₂ => ?_
  have hlength : Reads s p₂ (fun _ q => q = p₂)
      (checkLength count items.length ((s.tokens.get i).span.merge (s.passed p₁).span)
        (s.tokens.get i).line) := .blind rfl fun _ q h => by
    obtain rfl := checkLength_ok h
    exact ⟨Nat.le_refl _, rfl⟩
  refine hlength.bind ?_
  rintro _ _ rfl
  refine (Follows.noteTypes _ _).bind fun _ p₃ h₃ => ?_
  refine (Reads.push _ _ _ p₃).bind ?_
  rintro e p₄ ⟨he, h₄⟩
  have hpos : p₄.position = p₁.position := h₄.trans (h₃.1.trans h₂.position)
  have hlt : i < p₁.position := Nat.lt_of_lt_of_le hi h₁
  refine .pure (hpos ▸ .value hlt he ?_ _)
  exact s.merge_passed hd hlt hlt

theorem newObject {typeToken : Token} (t : Ty) (p : ParseState) (ht : typeToken = s.passed p)
    (hi : i < p.position) :
    Reads s p (fun item q => item.Covers s.tokens i q.position)
      (newObject s sub (s.tokens.get i) typeToken t) := by
  refine (hsub.constructorArguments p ht).bind ?_
  rintro ⟨args, stop⟩ p₁ ⟨h₁, hstop⟩
  refine (Local.constructorFor typeToken t _ p₁).bind ?_
  rintro call p₂ ⟨h₂, hcall⟩
  have hl : args.length = call.params.length := by
    simpa using (Registry.resolveConstructor_assignable hcall).length_eq
  refine (Follows.convertAll hl _ _ _).bind fun args p₃ h₃ => ?_
  have hpos : p₃.position = p₁.position := h₃.position.trans h₂.1
  refine (hsub.insertedItems t p₃ (hstop.trans (by rw [s.passed_eq hpos]))).bind ?_
  rintro ⟨items, insert, stop⟩ p₄ ⟨h₄, rfl⟩
  refine (Reads.push _ _ _ p₄).bind ?_
  rintro e p₅ ⟨he, h₅⟩
  have hlt : i < p₄.position := by omega
  refine .pure (h₅ ▸ .value hlt he ?_ _)
  exact s.merge_passed hd hlt hlt

theorem construct (hk : s.kindAt p = .new) :
    Reads s p (fun item q => item.Covers s.tokens p.position q.position) (construct s sub) := by
  refine (Follows.advance (hk ▸ nofun)).bind ?_
  rintro start _ ⟨rfl, rfl⟩
  refine (Follows.current _).bind ?_
  rintro typeToken _ ⟨rfl, rfl⟩
  have hne {ref : TypeRef} (hk : (s.tokens.get p.moved.position).kind = .type ref) :
      s.kindAt p.moved ≠ .eof := fun h => by cases hk.symm.trans h
  dsimp only
  split
  · rename_i elem hk
    refine (Follows.advance (hne hk)).bind ?_
    rintro _ _ ⟨-, rfl⟩
    refine (Follows.resolveType elem _ _).bind fun t p₁ h₁ => ?_
    have hpos : p₁.position = p.position + 1 + 1 := h₁.1
    refine hsub.newArray hd t none p₁ ?_ (by omega)
    rw [s.passed_eq h₁.1]
    rfl
  · rename_i ref _ hk
    refine (Follows.advance (hne hk)).bind ?_
    rintro _ _ ⟨-, rfl⟩
    refine (Follows.resolveType ref _ _).bind fun t p₁ h₁ => ?_
    have hpos : p₁.position = p.position + 1 + 1 := h₁.1
    refine (Follows.isAt _ p₁).bind ?_
    rintro b p₁ ⟨hb, rfl⟩
    refine .ite (fun hsquare => ?_) fun _ => ?_
    · refine (Follows.advance (hb.1 hsquare ▸ nofun)).bind ?_
      rintro opened _ ⟨-, rfl⟩
      have hcount : Reads s p₁.moved (fun _ q => p₁.position < q.position)
          (Parser.arrayCount s sub) :=
        (hsub.follows.arrayCount p₁.moved).mono fun _ _ h => h.le
      refine hcount.bind fun count p₂ h₂ => ?_
      refine (Reads.expectClosing opened .square p₂).bind ?_
      rintro closed _ ⟨rfl, -, rfl⟩
      refine hsub.newArray hd t count p₂.moved rfl ?_
      rw [ParseState.moved_position]
      omega
    · exact hsub.newObject hd t p₁ (s.passed_eq h₁.1).symm (by omega)
  · exact .refuse

/-! ### Items -/

theorem collectName (name : String) (typeArgs : List TypeRef) (p : ParseState)
    (hi : i + 1 = p.position) :
    Reads s p (fun item q => item.Covers s.tokens i q.position)
      (collectName s sub name typeArgs (s.tokens.get i)) := by
  have hlt : i < p.position := hi ▸ Nat.lt_succ_self i
  have hspan : (s.tokens.get i).span = s.tokens.stretch i p.position := by
    rw [← hi, TokenList.stretch_succ]
  have node (form : Form Expr) (t : Ty) (q : ParseState) (hq : q.position = p.position) :
      Reads s q (fun item r => Item.Covers s.tokens item i r.position)
        (do return ⟨.value (← Parser.push form (s.tokens.get i).span t), (s.tokens.get i).span,
          (s.tokens.get i).line⟩) := by
    refine (Reads.push _ _ _ q).bind ?_
    rintro e r ⟨he, hr⟩
    exact .pure ((hr.trans hq) ▸ .value hlt he hspan _)
  unfold Parser.collectName
  split
  · rename_i c _
    cases c with
    | str text =>
      have hnote : Reads s p (fun _ q => q.position = p.position) (noteName text) :=
        .blind rfl fun _ _ hp => by
          cases hp
          exact ⟨Nat.le_refl _, rfl⟩
      exact hnote.bind fun _ q hq => node _ _ q hq
    | _ => exact node _ _ p rfl
  · exact node _ _ p rfl
  · exact hsub.globalCall hd name typeArgs p hlt
  · refine .ite (fun _ => hsub.globalCall hd name typeArgs p hlt) fun _ => ?_
    refine .ite (fun _ => ?_) fun _ => .refuse
    refine (Follows.resolveType _ _ p).bind fun t q hq => .pure ?_
    exact hq.1 ▸ .other hlt hspan rfl rfl

/-- A group has the span of its parentheses, and what is in it is its core. -/
theorem collectGroup (h : Stacked s.tokens i items p.position)
    (hk : s.kindAt p = .opening .paren) :
    Reads s p (fun items' q => Stacked s.tokens i items' q.position)
      (collectGroup s sub items) := by
  refine (Follows.advance fun he => by cases hk.symm.trans he).bind ?_
  rintro opened _ ⟨rfl, rfl⟩
  -- both kinds that are looked at belong to tokens inside of the brackets, or close them
  refine .kindAfter (.kindAfter ?_)
  split
  · rename_i ref ht hc
    refine (Follows.advance fun he => by cases ht.symm.trans he).bind ?_
    rintro typeToken _ ⟨-, rfl⟩
    refine (Follows.resolveType ref _ _).bind fun t p₁ h₁ => ?_
    have hpos : p₁.position = p.position + 1 + 1 := h₁.1
    have hclosing : s.kindAt p₁ = .closing .paren := by
      rw [Setting.kindAt, hpos]
      exact hc
    refine (Follows.advance fun he => by cases hclosing.symm.trans he).bind ?_
    rintro closed _ ⟨rfl, rfl⟩
    have hlt : p.position < p₁.moved.position := by
      rw [ParseState.moved_position]
      omega
    refine .pure ⟨⟨.cons h (.other hlt (s.merge_passed hd hlt hlt) rfl rfl), ?_⟩, ?_⟩
    all_goals
      simp only [ParseState.moved_position]
      omega
  · refine (hsub.requiredExpression _).bind ?_
    rintro e p₁ ⟨he, -⟩
    refine (Reads.expectClosing _ .paren p₁).bind ?_
    rintro closed _ ⟨rfl, hc, rfl⟩
    have hgroup := he.group hk hc
    have hlt : p.position + 1 < p₁.position := he.lt
    have hspan := s.merge_passed (p := p₁.moved) hd hgroup.lt hgroup.lt
    refine .pure ⟨⟨.cons h (.of_core hspan hgroup), ?_⟩, ?_⟩
    all_goals
      simp only [ParseState.moved_position]
      omega

theorem collectIndex (h : Stacked s.tokens i items p.position)
    (hk : s.kindAt p = .opening .square) :
    Reads s p (fun items' q => Stacked s.tokens i items' q.position)
      (collectIndex s sub items) := by
  refine (Follows.current p).bind ?_
  rintro opened p ⟨rfl, rfl⟩
  refine .ite (fun _ => .refuse) fun _ => ?_
  refine (Follows.advance (hk ▸ nofun)).bind ?_
  rintro _ _ ⟨-, rfl⟩
  refine (hsub.valueExpression _).bind ?_
  rintro e p₁ ⟨he, -⟩
  refine (Reads.expectClosing _ .square p₁).bind ?_
  rintro closed _ ⟨rfl, -, rfl⟩
  have hlt : p.position + 1 < p₁.position := he.lt
  have hindex : p.position < p₁.moved.position := by
    rw [ParseState.moved_position]
    omega
  exact .pure (.cons h (.other hindex (s.merge_passed hd hindex hindex) rfl rfl))

omit hd in
/-- The branches have the spans of their nodes; no other item comes behind them. -/
theorem collectTernary (h : Stacked s.tokens i items p.position)
    (hk : s.kindAt p = .operator .question) :
    Reads s p (fun items' q => Units s.tokens i items'.reverse q.position ∧
      (s.kindAt q).isTerminator = true) (collectTernary s sub items) := by
  refine (Follows.advance (hk ▸ nofun)).bind ?_
  rintro question _ ⟨rfl, rfl⟩
  refine (hsub.valueExpression _).bind ?_
  rintro yes p₁ ⟨hy, -⟩
  refine (Follows.eat .colon nofun p₁).bind ?_
  rintro b _ (⟨rfl, -, rfl⟩ | ⟨rfl, rfl⟩)
  · refine (hsub.valueExpression _).bind ?_
    rintro no p₂ ⟨hn, hends⟩
    refine .pure ⟨?_, hends⟩
    simpa using Units.choice h hy hn
  · exact (Follows.current _).bind fun _ _ _ => .refuse

omit hsub hd in
theorem collectLiteral (form : Form Expr) (t : Ty) (h : Stacked s.tokens i items p.position)
    (hk : s.kindAt p ≠ .eof) :
    Reads s p (fun items' q => Stacked s.tokens i items' q.position)
      (collectLiteral s form t items) := by
  refine (Follows.advance hk).bind ?_
  rintro token _ ⟨rfl, rfl⟩
  refine (Reads.push _ _ _ p.moved).bind ?_
  rintro e q ⟨he, hq⟩
  exact .pure (.cons h (hq ▸ .value (Nat.lt_succ_self _) he rfl _))

/-- One more item, or a conditional with its branches, after which the expression ends. -/
theorem collectNext (h : Stacked s.tokens i items p.position)
    (hopen : (s.kindAt p).isTerminator = false) :
    Reads s p (fun items' q => Stacked s.tokens i items' q.position ∨
      Units s.tokens i items'.reverse q.position ∧ (s.kindAt q).isTerminator = true)
      (collectNext s sub items) := by
  have hne : s.kindAt p ≠ .eof := fun he => by rw [he] at hopen; cases hopen
  refine (Follows.current p).bind ?_
  rintro token p ⟨rfl, rfl⟩
  split
  · exact (hsub.collectGroup hd h ‹_›).mono fun _ _ => .inl
  · exact (hsub.collectIndex hd h ‹_›).mono fun _ _ => .inl
  · exact (hsub.collectMember hd h ‹_›).mono fun _ _ => .inl
  · exact (hsub.collectTernary h ‹_›).mono fun _ _ => .inr
  · exact (hsub.construct hd ‹_›).bind fun item q hi => .pure (.inl (.cons h hi))
  iterate 4
    exact (collectLiteral _ _ h hne).mono fun _ _ => .inl
  · refine (Follows.advance hne).bind ?_
    rintro _ _ ⟨-, rfl⟩
    refine (hsub.collectName hd _ _ p.moved rfl).bind fun item q hi => ?_
    exact .pure (.inl (.cons h hi))
  · refine (Follows.advance hne).bind ?_
    rintro _ _ ⟨-, rfl⟩
    refine (Follows.resolveType _ _ _).bind fun t q hq => .pure (.inl (.cons h ?_))
    exact hq.1 ▸ .other (Nat.lt_succ_self _) rfl rfl rfl
  · rename_i op hq hk
    refine (Follows.advance hne).bind ?_
    rintro _ _ ⟨-, rfl⟩
    exact .pure (.inl (.cons h (.operator (Nat.lt_succ_self _) rfl hq)))
  · exact .unexpected

omit hsub hd in
/-- At a token that ends the expression nothing more is collected. -/
theorem collectFrom_ends (h : (s.kindAt p).isTerminator = true) (n : Nat) (items : List Item) :
    Reads s p (fun items' q => items' = items.reverse ∧ q = p) (collectFrom s sub n items) := by
  cases n with
  | zero => exact .pure ⟨rfl, rfl⟩
  | succ n =>
    refine (Follows.current p).bind ?_
    rintro token p ⟨rfl, rfl⟩
    exact .ite (fun _ => .pure ⟨rfl, rfl⟩) fun hopen => absurd h hopen

theorem collectFrom (n : Nat) (h : Stacked s.tokens i items p.position) :
    Reads s p (fun items' q => Units s.tokens i items' q.position)
      (collectFrom s sub n items) := by
  induction n generalizing items p with
  | zero => exact .pure (.plain h)
  | succ n ih =>
    refine (Follows.current p).bind ?_
    rintro token p ⟨rfl, rfl⟩
    refine .ite (fun _ => .pure (.plain h)) fun hopen => ?_
    refine (hsub.collectNext hd h (Bool.eq_false_iff.2 hopen)).bind fun items' q hq => ?_
    rcases hq with hstacked | ⟨hunits, hends⟩
    · exact ih hstacked
    · refine (collectFrom_ends hends n items').mono ?_
      rintro _ r ⟨rfl, rfl⟩
      exact hunits

/-- The items of an expression are made of the tokens that have been passed. -/
theorem collect (p : ParseState) :
    Reads s p (fun items q => Units s.tokens p.position items q.position) (collect s sub) :=
  hsub.collectFrom hd _ .nil

end Bounds

end Parser

end TypedExpr
