import Mathlib.Data.List.TakeWhile
import TypedExpr.Parse.Operand
import TypedExpr.Proofs.Extent.Follows
import TypedExpr.Proofs.Parse.Collection
import TypedExpr.Proofs.Typing.Uses
/-!
# Collecting items from tokens

Whatever begins at a token is read as a phrase, and its words come into hand in their order. No
token behind it is looked at but the one that ends it: a look ahead after `(` stays inside the
brackets.

* `Parser.Takes`: a phrase that is not empty has been read.
* `Parser.Parses`, `Parser.Local`: what is known of the step that parses the expressions inside.
* `Parser.Local.collect`: the items up to a token that ends the expression.
-/

namespace TypedExpr.Parser

variable {s : Setting} {us : TokenList} {p q r : ParseState} {ps ps' ps'' : Fragments}

/-! ### Building while collecting -/

theorem convertAll_withTokens : convertAll (s.withTokens us) = convertAll s := by
  delta convertAll
  rfl

/-- As many arguments as there are parameters are converted. -/
theorem Follows.convertAll {es : List Expr} {targets : List Ty}
    (hl : es.length = targets.length) (context : String) (line : Nat) (p : ParseState) :
    Follows s us p (fun as q => Builds s p q (es.map .part) (as.map .part))
      (convertAll s context line es targets)
      (convertAll (s.withTokens us) context line es targets) :=
  .building (by rw [convertAll_withTokens]) fun _ _ h => convertAll_builds h hl

theorem checkLength_ok {count : Option Expr} {items : Nat} {span : Span} {line : Nat} {u : Unit}
    (h : (checkLength count items span line).run p = (.ok u, q)) : q = p := by
  unfold checkLength at h
  split at h
  · split at h <;> cases h
    rfl
  · cases h
    rfl

/-- Indexes that wait are attached one by one. -/
theorem attach_builds {brackets : List Item} (hb : ∀ b ∈ brackets, b.isIndex = true)
    {container item : Item}
    (h : (brackets.foldlM (fun container bracket =>
      match bracket.kind with
      | .index i => buildIndex s container i bracket
      | _ => return container) container : Parser Item).run p = (.ok item, q)) :
    Builds s p q (container.fragments ++ .of brackets) item.fragments := by
  induction brackets generalizing container p with
  | nil =>
    cases h
    simpa using Builds.refl s _ _
  | cons bracket brackets ih =>
    rw [List.foldlM_cons] at h
    obtain ⟨element, p₁, he, h⟩ := run_bind_ok.1 h
    have hrest := ih (fun b hb' => hb b (.tail _ hb')) h
    obtain ⟨kind, span, line⟩ := bracket
    cases kind with
    | index i =>
      have hstep := (buildIndex_builds he).before (.of brackets)
      simpa [Item.fragments] using hstep.trans hrest
    | _ => cases hb _ (.head _)

/-- The items in order: the indexes at the end, and what is in front of them. -/
theorem reverse_eq_append (items : List Item) : items.reverse =
    (items.dropWhile (·.isIndex)).reverse ++ (items.takeWhile (·.isIndex)).reverse := by
  rw [← List.reverse_append, List.takeWhile_append_dropWhile]

theorem attachIndexes_builds {items items' : List Item}
    (h : (attachIndexes s items).run p = (.ok items', q)) :
    Builds s p q (.of items.reverse) (.of items'.reverse) := by
  have hindex : ∀ b ∈ (items.takeWhile (·.isIndex)).reverse, b.isIndex = true := fun b hb =>
    List.mem_takeWhile_imp (List.mem_reverse.1 hb)
  rw [reverse_eq_append items]
  unfold attachIndexes at h
  dsimp only at h
  generalize (items.takeWhile (·.isIndex)).reverse = brackets at h hindex ⊢
  generalize items.dropWhile (·.isIndex) = rest at h ⊢
  split at h
  · cases h
    simpa using Builds.refl s _ _
  · cases h
  · rename_i container rest _
    obtain ⟨item, p₁, hi, h⟩ := run_bind_ok.1 h
    cases h
    simpa using (attach_builds hindex hi).after (.of rest.reverse)

/-- The fragments of what a member is taken of: a receiver, if there is one. -/
def Owner.fragments (owner : Owner) : Fragments := owner.receiver.toList.map .part

theorem property_builds {owner : Owner} {name : String} {token : Token} {item : Item}
    (h : (property s owner name token).run p = (.ok item, q)) :
    Builds s p q owner.fragments item.fragments := by
  obtain ⟨_, p₁, h₁, h⟩ := run_bind_ok.1 h
  split at h
  · obtain ⟨e, p₂, he, h⟩ := run_bind_ok.1 h
    cases h
    exact (noteTypes_builds h₁ _).trans (push_builds he)
  · dsimp only at h
    split at h <;> cases h

/-- What a member is taken of is the last in hand. -/
theorem ownerOf_ok {dot : Token} {items below : List Item} {owner : Owner}
    (h : (ownerOf dot items).run p = (.ok (owner, below), q)) :
    p = q ∧ Fragments.of items.reverse = .of below.reverse ++ owner.fragments := by
  unfold ownerOf at h
  split at h
  · cases h
  · rename_i last below
    split at h
    · rename_i e he
      obtain ⟨_, p₁, h₁, h⟩ := run_bind_ok.1 h
      obtain ⟨rfl, -⟩ := requireValue_ok.1 h₁
      cases h
      exact ⟨rfl, by simp [Item.fragments_of_value he, Owner.fragments]⟩
    · rename_i t ht
      cases h
      exact ⟨rfl, by simp [Item.fragments, ht, Owner.fragments]⟩
    · cases h

/-! ### Phrases that are not empty -/

/-- A phrase that is not empty has been read. -/
structure Takes (s : Setting) (p q : ParseState) (ps ps' : Fragments) : Prop where
  consumes : Consumes s false p q ps ps'
  lt : p.position < q.position

theorem Takes.after (rs : Fragments) (h : Takes s p q ps ps') :
    Takes s p q (rs ++ ps) (rs ++ ps') :=
  ⟨h.consumes.after rs, h.lt⟩

/-- A token, and what comes after it. -/
theorem Takes.of_token (h : Consumes s false p p.moved ps ps')
    (h' : Consumes s false p.moved q ps' ps'') : Takes s p q ps ps'' := ⟨h.trans h', h'.le⟩

/-- Brackets and what is inside. -/
theorem Takes.group {bracket : Bracket} (h : s.kindAt p = .opening bracket)
    (hr : Consumes s false p.moved q ps ps') (hc : s.kindAt q = .closing bracket) :
    Takes s p q.moved ps ps' := by
  refine ⟨.group h ⟨q, hr.within, hc, rfl⟩, ?_⟩
  have hle := hr.le
  simp only [ParseState.moved_position] at hle ⊢
  omega

/-! ### Expressions inside expressions -/

/-- What is known when an expression has been parsed. -/
structure Parses (s : Setting) (p : ParseState) (root : Option Expr) (q : ParseState) : Prop where
  consumes : Consumes s false p q [] (root.toList.map .part)
  ends : (s.kindAt q).isTerminator = true
  lt {e : Expr} (h : root = some e) : p.position < q.position

/-- The step that parses an expression follows the tokens. -/
def Local (s : Setting) (us : TokenList) (sub sub' : Parser (Option Expr)) : Prop :=
  ∀ p, Follows s us p (Parses s p) sub sub'

namespace Local

variable {sub sub' : Parser (Option Expr)} (hsub : Local s us sub sub')

include hsub

theorem requiredExpression (p : ParseState) :
    Follows s us p (fun e q => Takes s p q [] [.part e]) (requiredExpression s sub)
      (requiredExpression (s.withTokens us) sub') := by
  refine (Follows.current p).bind ?_
  rintro token q ⟨rfl, rfl⟩
  refine (hsub q).bind fun root r hroot => ?_
  cases root with
  | none => exact .refuse
  | some e => exact .pure ⟨hroot.consumes, hroot.lt rfl⟩

theorem valueExpression (p : ParseState) :
    Follows s us p (fun e q => Takes s p q [] [.part e]) (valueExpression s sub)
      (valueExpression (s.withTokens us) sub') := by
  refine (Follows.current p).bind ?_
  rintro token q ⟨rfl, rfl⟩
  refine (hsub.requiredExpression q).bind fun e r he => ?_
  refine (Follows.requireValue e _ r).bind ?_
  rintro _ _ rfl
  exact .pure he

/-- A value ends where an expression does. -/
theorem valueExpression_ends {e : Expr} {p q : ParseState}
    (h : (Parser.valueExpression s sub).run p = (.ok e, q)) :
    (s.kindAt q).isTerminator = true := by
  obtain ⟨token, p₁, ht, h⟩ := run_bind_ok.1 h
  cases ht
  obtain ⟨e', p₂, he, h⟩ := run_bind_ok.1 h
  obtain ⟨_, p₃, hv, h⟩ := run_bind_ok.1 h
  cases h
  obtain ⟨rfl, -⟩ := requireValue_ok.1 hv
  obtain ⟨token, p₁, ht, he⟩ := run_bind_ok.1 he
  cases ht
  obtain ⟨root, p₂, hroot, he⟩ := run_bind_ok.1 he
  cases root with
  | none => cases he
  | some e' =>
    cases he
    exact (hsub p _ _ hroot).2.1.ends

/-- The arguments from a place on, if the tokens do not run out. -/
theorem restOfArguments (opened : Token) {n m : Nat} {p : ParseState}
    (h : s.tokens.Lasting us n m p.position) :
    Follows s us p (fun args q => Closes s .paren p q [] (args.1.map .part))
      (restOfArguments s sub opened n) (restOfArguments (s.withTokens us) sub' opened m) := by
  induction n generalizing m p with
  | zero => exact absurd h.first.pos (Nat.lt_irrefl 0)
  | succ n ih =>
    refine Follows.congr (y := Parser.restOfArguments (s.withTokens us) sub' opened (m - 1 + 1)) ?_
      fun same => by rw [← h.pred_add_one same]
    refine (hsub.valueExpression p).bind fun arg q harg => ?_
    refine (Follows.eat .comma nofun q).bind ?_
    rintro b r (⟨rfl, hcomma, rfl⟩ | ⟨rfl, rfl⟩)
    · have hne : s.kindAt q ≠ .eof := hcomma ▸ nofun
      have hle : p.position ≤ q.position := Nat.le_of_lt harg.lt
      refine (ih (h.next hle hne (Nat.lt_succ_self _))).bind ?_
      rintro ⟨args, closed⟩ r hrest
      have hcomma := harg.consumes.within.trans (.comma hcomma _)
      exact .pure (hcomma.closes (hrest.after [.part arg]))
    · refine (Follows.expectClosing opened .paren r).bind ?_
      rintro closed _ ⟨hk, rfl⟩
      exact .pure ⟨r, harg.consumes.within, hk, rfl⟩

theorem arguments (p : ParseState) :
    Follows s us p (fun args q => Consumes s false p q [] (args.1.map .part)) (arguments s sub)
      (arguments (s.withTokens us) sub') := by
  refine (Follows.expectOpening .paren p).bind ?_
  rintro opened _ ⟨ho, rfl⟩
  refine (Follows.isAt _ _).bind ?_
  rintro b _ ⟨hb, rfl⟩
  refine .ite (fun h => ?_) fun _ => ?_
  · have hc := hb.1 h
    refine (Follows.advance (hc ▸ nofun)).bind ?_
    rintro closed _ ⟨-, rfl⟩
    exact .pure (.group ho ⟨_, .refl s _ _ _, hc, rfl⟩)
  · refine (hsub.restOfArguments opened (.size _ _ _)).mono ?_
    exact fun args q h => .group ho h

/-- The items of an initializer from a place on, if the tokens do not run out. -/
theorem restOfInitializer (opened : Token) {n m : Nat} {p : ParseState}
    (h : s.tokens.Lasting us n m p.position) :
    Follows s us p (fun items q => Closes s .brace p q [] (items.1.map .part))
      (restOfInitializer s sub opened n) (restOfInitializer (s.withTokens us) sub' opened m) := by
  induction n generalizing m p with
  | zero => exact absurd h.first.pos (Nat.lt_irrefl 0)
  | succ n ih =>
    refine Follows.congr
      (y := Parser.restOfInitializer (s.withTokens us) sub' opened (m - 1 + 1)) ?_
      fun same => by rw [← h.pred_add_one same]
    refine (Follows.isAt _ p).bind ?_
    rintro b _ ⟨hb, rfl⟩
    refine .ite (fun h => ?_) fun _ => ?_
    · have hc := hb.1 h
      refine (Follows.advance (hc ▸ nofun)).bind ?_
      rintro closed _ ⟨-, rfl⟩
      exact .pure ⟨_, .refl s _ _ _, hc, rfl⟩
    refine (hsub.valueExpression _).bind fun item q hitem => ?_
    refine (Follows.eat .comma nofun q).bind ?_
    rintro b r (⟨rfl, hcomma, rfl⟩ | ⟨rfl, rfl⟩)
    · have hne : s.kindAt q ≠ .eof := hcomma ▸ nofun
      have hle := Nat.le_of_lt hitem.lt
      refine (ih (h.next hle hne (Nat.lt_succ_self _))).bind ?_
      rintro ⟨items, closed⟩ r hrest
      have hcomma := hitem.consumes.within.trans (.comma hcomma _)
      exact .pure (hcomma.closes (hrest.after [.part item]))
    · refine (Follows.expectClosing opened .brace r).bind ?_
      rintro closed _ ⟨hk, rfl⟩
      exact .pure ⟨r, hitem.consumes.within, hk, rfl⟩

theorem initializer (p : ParseState) :
    Follows s us p (fun items q => Consumes s false p q [] (items.1.map .part)) (initializer s sub)
      (initializer (s.withTokens us) sub') := by
  refine (Follows.expectOpening .brace p).bind ?_
  rintro opened _ ⟨ho, rfl⟩
  refine (hsub.restOfInitializer opened (.size _ _ _)).mono ?_
  exact fun items q h => .group ho h

/-! ### Calls and members -/

theorem globalCall (name : String) (typeArgs : List TypeRef) (token : Token) (p : ParseState) :
    Follows s us p (fun item q => Consumes s false p q [] item.fragments)
      (globalCall s sub name typeArgs token)
      (globalCall (s.withTokens us) sub' name typeArgs token) := by
  refine (Follows.isAt _ p).bind ?_
  rintro b _ ⟨-, rfl⟩
  refine .ite (fun _ => .refuse) fun _ => ?_
  refine (Follows.resolveTypes typeArgs token _).bind fun typeArgs p₁ h₁ => ?_
  refine (hsub.arguments p₁).bind ?_
  rintro ⟨args, closed⟩ p₂ hargs
  refine (Follows.noteTypes _ p₂).bind fun _ p₃ h₃ => ?_
  refine (Follows.found _ token none name p₃).bind ?_
  rintro call _ ⟨hcall, rfl⟩
  have hl : args.length = call.params.length := by
    simpa using (Registry.resolveFunction_assignable hcall).length_eq
  refine (Follows.convertAll hl _ _ _).bind fun args p₄ h₄ => ?_
  refine (Follows.building rfl fun _ _ h => push_builds h).bind fun e p₅ h₅ => ?_
  have hcalled := (((h₁.builds s []).consumes false).trans hargs).builds (h₃.builds s _)
  exact .pure ((hcalled.builds h₄).builds h₅)

theorem methodCall (owner : Owner) (name : String) (typeArgs : List TypeRef) (token : Token)
    (p : ParseState) :
    Follows s us p (fun item q => Consumes s false p q owner.fragments item.fragments)
      (methodCall s sub owner name typeArgs token)
      (methodCall (s.withTokens us) sub' owner name typeArgs token) := by
  refine (Follows.resolveTypes typeArgs token _).bind fun typeArgs p₁ h₁ => ?_
  refine (hsub.arguments p₁).bind ?_
  rintro ⟨args, closed⟩ p₂ hargs
  refine (Follows.noteTypes _ p₂).bind fun _ p₃ h₃ => ?_
  refine (Follows.found _ token owner.type name p₃).bind ?_
  rintro call _ ⟨hcall, rfl⟩
  have hl : args.length = call.params.length := by
    simpa using (Registry.resolveMethod_assignable hcall).length_eq
  refine (Follows.convertAll hl _ _ _).bind fun args p₄ h₄ => ?_
  refine (Follows.building rfl fun _ _ h => push_builds h).bind fun e p₅ h₅ => ?_
  have hcalled := (((h₁.builds s []).consumes false).trans hargs).builds (h₃.builds s _)
  refine .pure ?_
  have hall := (hcalled.builds h₄).after owner.fragments
  rw [List.append_nil] at hall
  refine hall.builds ?_
  obtain ⟨item, receiver, t⟩ := owner
  cases receiver with
  | none => exact h₅
  | some receiver => exact h₅

theorem member (owner : Owner) (p : ParseState) :
    Follows s us p
      (fun item q => ∃ name typeArgs, s.kindAt p = .ident name typeArgs ∧
        Consumes s false p.moved q owner.fragments item.fragments)
      (member s sub owner) (member (s.withTokens us) sub' owner) := by
  refine (Follows.current p).bind ?_
  rintro token q ⟨rfl, rfl⟩
  dsimp only
  split
  · rename_i name typeArgs hk
    have hident : s.kindAt q = .ident name typeArgs := hk
    refine (Follows.advance (hident ▸ nofun)).bind ?_
    rintro token _ ⟨-, rfl⟩
    refine (Follows.isAt _ _).bind ?_
    rintro b _ ⟨-, rfl⟩
    refine .ite (fun _ => ?_) fun _ => ?_
    · exact (hsub.methodCall owner name typeArgs _ _).mono fun item r h => ⟨_, _, hident, h⟩
    · refine (Follows.building rfl fun _ _ h => property_builds h).mono fun item r h => ?_
      exact ⟨_, _, hident, h.consumes false⟩
  · exact .refuse

theorem collectMember {items : List Item} {p : ParseState} (h : s.kindAt p = .dot) :
    Follows s us p (fun items' q => Takes s p q (.of items.reverse) (.of items'.reverse))
      (collectMember s sub items) (collectMember (s.withTokens us) sub' items) := by
  refine (Follows.advance (h ▸ nofun)).bind ?_
  rintro dot _ ⟨-, rfl⟩
  refine (Follows.building rfl fun _ _ h => attachIndexes_builds h).bind fun items p₁ h₁ => ?_
  have howner : Follows s us p₁
      (fun r q => q = p₁ ∧ Fragments.of items.reverse = .of r.2.reverse ++ r.1.fragments)
      (ownerOf dot items) (ownerOf dot items) := by
    refine .blind rfl fun r q hr => ?_
    obtain ⟨rfl, hp⟩ := ownerOf_ok hr
    exact ⟨Nat.le_refl _, rfl, hp⟩
  refine howner.bind ?_
  rintro ⟨owner, below⟩ _ ⟨rfl, hfragments⟩
  refine (hsub.member owner _).bind ?_
  rintro item q ⟨name, typeArgs, hname, hr⟩
  refine .pure ⟨?_, ?_⟩
  · have hr := hr.after (.of below.reverse)
    rw [← hfragments] at hr
    simpa using hr.member h h₁ hname
  · have hle := hr.le
    have hpos := h₁.position
    simp only [ParseState.moved_position] at hle hpos
    omega

/-! ### Construction -/

theorem arrayItems (count : Option Expr) (stop : Span) (p : ParseState) :
    Follows s us p (fun items q => Consumes s false p q [] (items.1.map .part))
      (arrayItems s sub count stop) (arrayItems (s.withTokens us) sub' count stop) := by
  refine (Follows.isAt _ p).bind ?_
  rintro b _ ⟨-, rfl⟩
  refine .ite (fun _ => ?_) fun _ => .ite (fun _ => .unexpected) fun _ => .pure (.refl s _ _ _)
  refine (hsub.initializer _).bind ?_
  rintro ⟨items, closed⟩ q h
  exact .pure h

theorem newArray (start : Token) (elem : Ty) (count : Option Expr) (stop : Span) (p : ParseState) :
    Follows s us p (fun item q => Consumes s false p q (count.toList.map .part) item.fragments)
      (newArray s sub start elem count stop)
      (newArray (s.withTokens us) sub' start elem count stop) := by
  refine (hsub.arrayItems count stop p).bind ?_
  rintro ⟨items, stop⟩ p₁ h₁
  refine (Follows.building rfl fun _ _ h => convertEach_builds h).bind fun items p₂ h₂ => ?_
  have hlength : Follows s us p₂ (fun _ q => q = p₂)
      (checkLength count items.length (start.span.merge stop) start.line)
      (checkLength count items.length (start.span.merge stop) start.line) := by
    refine .blind rfl fun _ q h => ?_
    obtain rfl := checkLength_ok h
    exact ⟨Nat.le_refl _, rfl⟩
  refine hlength.bind ?_
  rintro _ _ rfl
  refine (Follows.noteTypes _ _).bind fun _ p₃ h₃ => ?_
  refine (Follows.building rfl fun _ _ h => push_builds h).bind fun e p₄ h₄ => ?_
  have hitems := ((h₁.builds h₂).builds (h₃.builds s _)).after (count.toList.map .part)
  rw [List.append_nil, ← List.map_append] at hitems
  exact .pure (hitems.builds h₄)

theorem constructorArguments (typeToken : Token) (p : ParseState) :
    Follows s us p (fun args q => Consumes s false p q [] (args.1.map .part))
      (constructorArguments s sub typeToken)
      (constructorArguments (s.withTokens us) sub' typeToken) := by
  refine (Follows.isAt _ p).bind ?_
  rintro b _ ⟨-, rfl⟩
  refine .ite (fun _ => ?_) fun _ => ?_
  · refine (hsub.arguments _).bind ?_
    rintro ⟨args, closed⟩ q h
    exact .pure h
  · refine (Follows.isAt _ _).bind ?_
    rintro b _ ⟨-, rfl⟩
    exact .ite (fun _ => .pure (.refl s _ _ _)) fun _ => .unexpected

omit hsub in
theorem constructorFor (typeToken : Token) (t : Ty) (types : List Ty) (p : ParseState) :
    Follows s us p
      (fun call q => p.Still q ∧ s.registry.resolveConstructor t types = .ok call)
      (constructorFor s typeToken t types)
      (constructorFor (s.withTokens us) typeToken t types) := by
  refine (Follows.noteTypes _ p).bind fun _ q hq => ?_
  dsimp only
  split
  · exact .refuse
  · refine (Follows.found _ typeToken _ _ q).mono ?_
    rintro call _ ⟨hc, rfl⟩
    exact ⟨hq, hc⟩

theorem insertedItems (start : Token) (t : Ty) (stop : Span) (p : ParseState) :
    Follows s us p (fun items q => Consumes s false p q [] (items.1.map .part))
      (insertedItems s sub start t stop) (insertedItems (s.withTokens us) sub' start t stop) := by
  refine (Follows.isAt _ p).bind ?_
  rintro b _ ⟨-, rfl⟩
  refine .ite (fun _ => ?_) fun _ => .pure (.refl s _ _ _)
  refine (Follows.noteTypes _ _).bind fun _ p₁ h₁ => ?_
  dsimp only
  split
  · exact (Follows.current _).bind fun _ _ _ => .refuse
  · refine (hsub.initializer p₁).bind ?_
    rintro ⟨items, closed⟩ p₂ h₂
    refine (Follows.building rfl fun _ _ h => convertEach_builds h).bind fun items p₃ h₃ => ?_
    exact .pure ((((h₁.builds s []).consumes false).trans h₂).builds h₃)

theorem newObject (start typeToken : Token) (t : Ty) (p : ParseState) :
    Follows s us p (fun item q => Consumes s false p q [] item.fragments)
      (newObject s sub start typeToken t)
      (newObject (s.withTokens us) sub' start typeToken t) := by
  refine (hsub.constructorArguments typeToken p).bind ?_
  rintro ⟨args, stop⟩ p₁ h₁
  refine (constructorFor typeToken t _ p₁).bind ?_
  rintro call p₂ ⟨h₂, hcall⟩
  have hl : args.length = call.params.length := by
    simpa using (Registry.resolveConstructor_assignable hcall).length_eq
  refine (Follows.convertAll hl _ _ _).bind fun args p₃ h₃ => ?_
  refine (hsub.insertedItems start t stop p₃).bind ?_
  rintro ⟨items, insert, stop⟩ p₄ h₄
  refine (Follows.building rfl fun _ _ h => push_builds h).bind fun e p₅ h₅ => ?_
  have hargs := (h₁.builds (h₂.builds s _)).builds h₃
  have hitems := h₄.after (args.map .part)
  rw [List.append_nil, ← List.map_append] at hitems
  exact .pure ((hargs.trans hitems).builds h₅)

theorem arrayCount (p : ParseState) :
    Follows s us p (fun count q => Consumes s false p q [] (count.toList.map .part))
      (arrayCount s sub) (arrayCount (s.withTokens us) sub') := by
  refine (Follows.isAt _ p).bind ?_
  rintro b _ ⟨-, rfl⟩
  refine .ite (fun _ => .pure (.refl s _ _ _)) fun _ => ?_
  refine (Follows.current _).bind ?_
  rintro first _ ⟨rfl, rfl⟩
  refine (hsub.valueExpression _).bind fun count p₁ h₁ => ?_
  refine (Follows.building rfl fun _ _ h => convert_builds h).bind fun count p₂ h₂ => ?_
  exact .pure (h₁.consumes.builds h₂)

theorem construct {p : ParseState} (h : s.kindAt p = .new) :
    Follows s us p (fun item q => Takes s p q [] item.fragments) (construct s sub)
      (construct (s.withTokens us) sub') := by
  have hnew : Consumes s false p p.moved [] [] := .silent (by rw [h]; rfl) (by rw [h]; rfl) _
  refine (Follows.advance (h ▸ nofun)).bind ?_
  rintro start _ ⟨-, rfl⟩
  refine (Follows.current _).bind ?_
  rintro typeToken _ ⟨rfl, rfl⟩
  have htype {ref : TypeRef} (hk : s.kindAt p.moved = .type ref) :
      Consumes s false p.moved p.moved.moved [] [] :=
    .silent (by rw [hk]; rfl) (by rw [hk]; rfl) _
  dsimp only
  split
  · rename_i elem hk
    have hk : s.kindAt p.moved = .type (.array elem) := hk
    refine (Follows.advance (hk ▸ nofun)).bind ?_
    rintro _ _ ⟨-, rfl⟩
    refine (Follows.resolveType elem _ _).bind fun t p₁ h₁ => ?_
    refine (hsub.newArray _ t none _ p₁).mono fun item q hitem => .of_token hnew ?_
    exact ((htype hk).builds (h₁.builds s [])).trans hitem
  · rename_i ref _ hk
    have hk : s.kindAt p.moved = .type ref := hk
    refine (Follows.advance (hk ▸ nofun)).bind ?_
    rintro _ _ ⟨-, rfl⟩
    refine (Follows.resolveType ref _ _).bind fun t p₁ h₁ => ?_
    have htyped := (htype hk).builds (h₁.builds s [])
    refine (Follows.isAt _ p₁).bind ?_
    rintro b _ ⟨hb, rfl⟩
    refine .ite (fun hsquare => ?_) fun _ => ?_
    · have ho := hb.1 hsquare
      refine (Follows.advance (ho ▸ nofun)).bind ?_
      rintro opened _ ⟨-, rfl⟩
      refine (hsub.arrayCount _).bind fun count p₂ h₂ => ?_
      refine (Follows.expectClosing opened .square p₂).bind ?_
      rintro closed _ ⟨hc, rfl⟩
      refine (hsub.newArray _ t count _ _).mono fun item q hitem => .of_token hnew ?_
      exact (htyped.trans (Takes.group ho h₂ hc).consumes).trans hitem
    · refine (hsub.newObject _ _ t _).mono fun item q hitem => .of_token hnew ?_
      exact htyped.trans hitem
  · exact .refuse

/-! ### Items -/

theorem collectName (name : String) (typeArgs : List TypeRef) (token : Token) (p : ParseState) :
    Follows s us p
      (fun item q =>
        Consumes s false p q (((TokenKind.ident name typeArgs).words s.scope).map .word)
          item.fragments)
      (collectName s sub name typeArgs token)
      (collectName (s.withTokens us) sub' name typeArgs token) := by
  unfold Parser.collectName TokenKind.words
  dsimp only
  cases s.scope.get? name with
  | none =>
    refine .ite (fun _ => hsub.globalCall name typeArgs token p) fun _ => ?_
    refine .ite (fun _ => ?_) fun _ => .refuse
    refine (Follows.resolveType _ token p).bind fun t q hq => .pure ?_
    exact (hq.builds s []).consumes false
  | some meaning =>
    cases meaning with
    | function => exact hsub.globalCall name typeArgs token p
    | var t =>
      refine (Follows.building rfl fun _ _ h => push_builds h).bind fun e q hq => .pure ?_
      exact hq.consumes false
    | constant c =>
      have hfragments : (c.form : Form Expr).fragments = [.word (.literal c)] := by cases c <;> rfl
      have literal (q : ParseState) (hq : p.Still q) :
          Follows s us q
            (fun item r => Consumes s false p r [.word (.literal c)] (Item.fragments item))
            (do return ⟨.value (← Parser.push c.form token.span c.type), token.span, token.line⟩)
            (do return ⟨.value (← Parser.push c.form token.span c.type), token.span,
              token.line⟩) := by
        refine (Follows.building rfl fun _ _ h => push_builds h).bind fun e r hr => .pure ?_
        rw [hfragments] at hr
        exact ((hq.builds s _).trans hr).consumes false
      cases c with
      | str text =>
        have hnote : Follows s us p (fun _ q => p.Still q) (noteName text) (noteName text) :=
          .blind rfl fun _ _ hp => by
            cases hp
            exact ⟨Nat.le_refl _, rfl, rfl⟩
        exact hnote.bind fun _ q hq => literal q hq
      | _ => exact literal p ⟨rfl, rfl⟩

theorem collectGroup {items : List Item} {p : ParseState} (h : s.kindAt p = .opening .paren) :
    Follows s us p (fun items' q => Takes s p q (.of items.reverse) (.of items'.reverse))
      (collectGroup s sub items) (collectGroup (s.withTokens us) sub' items) := by
  refine (Follows.advance (h ▸ nofun)).bind ?_
  rintro opened _ ⟨-, rfl⟩
  -- both kinds that are looked at belong to tokens inside of the brackets, or close them
  refine .kindAfter (.kindAfter ?_)
  split
  · rename_i ref ht hc
    have ht : s.kindAt p.moved = .type ref := ht
    refine (Follows.advance (ht ▸ nofun)).bind ?_
    rintro typeToken _ ⟨rfl, rfl⟩
    refine (Follows.resolveType ref _ _).bind fun t p₁ h₁ => ?_
    have hpos : p₁.position = p.moved.position + 1 := h₁.1
    have hclosing : s.kindAt p₁ = .closing .paren := by
      rw [Setting.kindAt, hpos]
      exact hc
    refine (Follows.advance (hclosing ▸ nofun)).bind ?_
    rintro closed _ ⟨-, rfl⟩
    have htype : Consumes s false p.moved p₁ (.of items.reverse) (.of items.reverse) :=
      (Consumes.silent (by rw [ht]; rfl) (by rw [ht]; rfl) _).builds (h₁.builds s _)
    refine .pure ⟨⟨?_, ?_⟩, ?_⟩
    · simpa [Item.fragments] using Takes.group h htype hclosing
    · simp only [ParseState.moved_position] at hpos ⊢
      omega
    · simp only [ParseState.moved_position] at hpos ⊢
      omega
  · refine (hsub.requiredExpression _).bind fun e p₁ h₁ => ?_
    refine (Follows.expectClosing opened .paren p₁).bind ?_
    rintro closed _ ⟨hc, rfl⟩
    have hlt := h₁.lt
    refine .pure ⟨⟨?_, ?_⟩, ?_⟩
    · simpa [Item.fragments] using (Takes.group h h₁.consumes hc).after (.of items.reverse)
    · simp only [ParseState.moved_position] at hlt ⊢
      omega
    · simp only [ParseState.moved_position] at hlt ⊢
      omega

theorem collectIndex {items : List Item} {p : ParseState} (h : s.kindAt p = .opening .square) :
    Follows s us p (fun items' q => Takes s p q (.of items.reverse) (.of items'.reverse))
      (collectIndex s sub items) (collectIndex (s.withTokens us) sub' items) := by
  refine (Follows.current p).bind ?_
  rintro opened _ ⟨rfl, rfl⟩
  refine .ite (fun _ => .refuse) fun _ => ?_
  refine (Follows.advance (h ▸ nofun)).bind ?_
  rintro _ _ ⟨-, rfl⟩
  refine (hsub.valueExpression _).bind fun i p₁ h₁ => ?_
  refine (Follows.expectClosing _ .square p₁).bind ?_
  rintro closed _ ⟨hc, rfl⟩
  refine .pure ?_
  simpa [Item.fragments] using (Takes.group h h₁.consumes hc).after (.of items.reverse)

theorem collectTernary {items : List Item} {p : ParseState}
    (h : s.kindAt p = .operator .question) :
    Follows s us p (fun items' q => Takes s p q (.of items.reverse) (.of items'.reverse))
      (collectTernary s sub items) (collectTernary (s.withTokens us) sub' items) := by
  refine (Follows.advance (h ▸ nofun)).bind ?_
  rintro question _ ⟨-, rfl⟩
  refine (hsub.valueExpression _).bind fun yes p₁ h₁ => ?_
  refine (Follows.eat .colon nofun p₁).bind ?_
  rintro b _ (⟨rfl, hcolon, rfl⟩ | ⟨rfl, rfl⟩)
  · refine (hsub.valueExpression _).bind fun no p₂ h₂ => .pure ⟨?_, ?_⟩
    · have hyes := h₁.consumes.after (Fragments.of items.reverse ++ [.word (.operator .question)])
      have hno := h₂.consumes.after
        (Fragments.of items.reverse ++ [.word (.operator .question)] ++ [.part yes])
      rw [List.append_nil] at hyes hno
      simpa [Item.fragments] using hyes.choice h hcolon hno
    · have hyes := h₁.lt
      have hno := h₂.lt
      simp only [ParseState.moved_position] at hyes hno
      omega
  · exact (Follows.current _).bind fun _ _ _ => .refuse

omit hsub in
theorem collectLiteral {form : Form Expr} {t : Ty} {items : List Item} {p : ParseState}
    (h : (s.kindAt p).isPlain = true)
    (hw : form.fragments = ((s.kindAt p).words s.scope).map .word) :
    Follows s us p (fun items' q => Takes s p q (.of items.reverse) (.of items'.reverse))
      (collectLiteral s form t items) (collectLiteral (s.withTokens us) form t items) := by
  refine (Follows.advance fun he => by rw [he] at h; cases h).bind ?_
  rintro token _ ⟨rfl, rfl⟩
  refine (Follows.building rfl fun _ _ h => push_builds h).bind fun e q hq => .pure ?_
  rw [hw] at hq
  have hpush := (hq.consumes false).after (.of items.reverse)
  simpa [Item.fragments] using Takes.of_token (.token h _) hpush

theorem collectNext {items : List Item} {p : ParseState}
    (h : (s.kindAt p).isTerminator = false) :
    Follows s us p (fun items' q => Takes s p q (.of items.reverse) (.of items'.reverse))
      (collectNext s sub items) (collectNext (s.withTokens us) sub' items) := by
  have hne : s.kindAt p ≠ .eof := fun he => by rw [he] at h; cases h
  refine (Follows.current p).bind ?_
  rintro token p ⟨rfl, rfl⟩
  split
  · exact hsub.collectGroup ‹_›
  · exact hsub.collectIndex ‹_›
  · exact hsub.collectMember ‹_›
  · exact hsub.collectTernary ‹_›
  · refine (hsub.construct ‹_›).bind fun item q hitem => .pure ?_
    simpa using hitem.after (.of items.reverse)
  iterate 4
    rename_i hk
    have hk : s.kindAt p = _ := hk
    exact collectLiteral (by rw [hk]; rfl) (by rw [hk]; rfl)
  · rename_i name typeArgs hk
    have hk : s.kindAt p = .ident name typeArgs := hk
    refine (Follows.advance hne).bind ?_
    rintro _ _ ⟨-, rfl⟩
    refine (hsub.collectName name typeArgs _ _).bind fun item q hitem => .pure ?_
    have hname : Consumes s false p p.moved _ _ := .token (by rw [hk]; rfl) (.of items.reverse)
    rw [hk] at hname
    simpa using Takes.of_token hname (hitem.after (.of items.reverse))
  · rename_i ref hk
    have hk : s.kindAt p = .type ref := hk
    refine (Follows.advance hne).bind ?_
    rintro _ _ ⟨-, rfl⟩
    refine (Follows.resolveType ref _ _).bind fun t q hq => .pure ?_
    have htype : Consumes s false p p.moved (.of items.reverse) (.of items.reverse) :=
      .silent (by rw [hk]; rfl) (by rw [hk]; rfl) _
    simpa [Item.fragments] using Takes.of_token htype ((hq.builds s _).consumes false)
  · rename_i op hq hk
    have hk : s.kindAt p = .operator op := hk
    refine (Follows.advance hne).bind ?_
    rintro _ _ ⟨-, rfl⟩
    refine .pure ?_
    have hplain : (s.kindAt p).isPlain = true := by
      rw [hk]
      exact decide_eq_true hq
    have hop : Consumes s false p p.moved _ _ := .token hplain (.of items.reverse)
    rw [hk] at hop
    simpa [Item.fragments, TokenKind.words] using Takes.of_token hop (.refl s _ _ _)
  · exact .unexpected

theorem collectFrom {n m : Nat} {items : List Item} {p : ParseState}
    (h : s.tokens.Lasting us n m p.position) :
    Follows s us p
      (fun items' q => Consumes s false p q (.of items.reverse) (.of items') ∧
        (s.kindAt q).isTerminator = true ∧ (q.position = p.position → items' = items.reverse))
      (collectFrom s sub n items) (collectFrom (s.withTokens us) sub' m items) := by
  induction n generalizing m items p with
  | zero => exact absurd h.first.pos (Nat.lt_irrefl 0)
  | succ n ih =>
    refine Follows.congr (y := Parser.collectFrom (s.withTokens us) sub' (m - 1 + 1) items) ?_
      fun same => by rw [← h.pred_add_one same]
    refine (Follows.current p).bind ?_
    rintro token p ⟨rfl, rfl⟩
    refine .ite (fun hend => .pure ⟨.refl s _ _ _, hend, fun _ => rfl⟩) fun hend => ?_
    have hk : (s.kindAt p).isTerminator = false := Bool.eq_false_iff.2 hend
    have hne : s.kindAt p ≠ .eof := fun he => by rw [he] at hk; cases hk
    refine (hsub.collectNext hk).bind fun items' q hq => ?_
    refine (ih (h.next (Nat.le_refl _) hne hq.lt)).mono ?_
    rintro items'' r ⟨hr, hend, -⟩
    refine ⟨hq.consumes.trans hr, hend, fun hpos => ?_⟩
    have hlt := hq.lt
    have hle := hr.le
    omega

theorem collect (p : ParseState) :
    Follows s us p
      (fun items q => Consumes s false p q [] (.of items) ∧ (s.kindAt q).isTerminator = true ∧
        (q.position = p.position → items = []))
      (collect s sub) (collect (s.withTokens us) sub') :=
  hsub.collectFrom (.size _ _ _)

end Local

end TypedExpr.Parser
