import TypedExpr.Proofs.Extent.Collection
import TypedExpr.Proofs.Lines.Items
/-!
# Collecting items in order

Whatever begins at a token becomes an item with the start and the line of that token, and an error
is located among the tokens. The items of an initializer are reported on the line of `new`, since
they are converted when all of them have been read.

* `Parser.Aims`: what is known of the step that parses the expressions inside.
* `Parser.Aims.collect`: the items up to a token that ends the expression.
-/

namespace TypedExpr.Parser

variable {s : Setting} {sub : Parser (Option Expr)} {p : ParseState} {t u start token : Token}
  {items : List Item}

/-- An expression that is parsed begins at the token at hand, or inside of the brackets that this
token opens, and its errors are located. -/
structure Aims (s : Setting) (sub : Parser (Option Expr)) : Prop where
  follows : Local s s.tokens sub sub
  leads (p : ParseState) :
    Leads s p (fun root _ => ∀ e ∈ root, e.BeginsAt s.tokens (s.tokenAt p)) sub

/-- An item that begins at a token has come in front of the others. -/
def Adds (s : Setting) (t : Token) (items items' : List Item) : Prop :=
  ∃ item, item.Stands s.tokens t ∧ items' = item :: items

/-! ### Building while collecting -/

namespace Leads

theorem convertArguments {args : List Expr} {params : List Ty}
    (h : List.Forall₂ (fun t p => s.registry.isAssignable t p = true) (args.map (·.type)) params)
    (context : String) (line : Nat) (p : ParseState) :
    Leads s p (fun _ _ => True) (Parser.convertAll s context line args params) :=
  convertAll s context line (List.forall₂_map_left_iff.1 h) p

theorem checkLength (ht : start ∈ s.tokens.toArray) {span : Span}
    (hs : span.start = start.span.start) (count : Option Expr) (items : Nat) (p : ParseState) :
    Leads s p (fun _ _ => True) (checkLength count items span start.line) := by
  unfold Parser.checkLength
  split
  · exact .ite (fun _ => .refuse rfl (.of_mem ht hs rfl)) fun _ => .pure trivial
  · exact .pure trivial

/-- The items of an initializer are reported on the line of `new`. -/
theorem convertEach {context : String} (ht : start ∈ s.tokens.toArray)
    (hk : start.kind = .new) (hs : Strays .typeMismatch context .new) {es : List Expr}
    (h : ∀ e ∈ es, s.tokens.StartsAt e.span.start) (target : Ty) (p : ParseState) :
    Leads s p (fun _ _ => True)
      (es.mapM fun e => Parser.convert s e target context start.line) := by
  refine .mapM fun e he p => ?_
  exact (convert (.inr ((h e he).points ht rfl hk hs)) p).mono fun _ _ _ _ => trivial

theorem attach {brackets : List Item}
    (hb : ∀ b ∈ brackets, ∃ u, b.At s.tokens u ∧ t.span.start ≤ u.span.start) {container : Item}
    (hc : container.Stands s.tokens t) (p : ParseState) :
    Leads s p (fun item _ => item.Stands s.tokens t)
      (brackets.foldlM (fun container bracket =>
        match bracket.kind with
        | .index i => Parser.buildIndex s container i bracket
        | _ => return container) container) := by
  induction brackets generalizing container p with
  | nil => exact .pure hc
  | cons bracket brackets ih =>
    obtain ⟨⟨u, hu, hle⟩, hrest⟩ := List.forall_mem_cons.1 hb
    have hstep : Leads s p (fun item _ => item.Stands s.tokens t)
        (match bracket.kind with
        | .index i => Parser.buildIndex s container i bracket
        | _ => return container) := by
      split
      · exact buildIndex hc.placed hu ‹_› hle p
      · exact .pure hc
    rw [List.foldlM_cons]
    exact hstep.bind fun element q _ he => ih hrest he q

theorem attachIndexes (h : Behind s.tokens t u items) (p : ParseState) :
    Leads s p (fun items' _ => Behind s.tokens t u items') (attachIndexes s items) := by
  obtain ⟨v, hvu, hdrop, htake⟩ := h.dropIndexes
  have hbrackets : ∀ b ∈ (items.takeWhile (·.isIndex)).reverse,
      ∃ w, b.At s.tokens w ∧ v.span.start ≤ w.span.start := fun b hb =>
    htake b (List.mem_reverse.1 hb)
  have hall := List.takeWhile_append_dropWhile (l := items) (p := Item.isIndex)
  unfold Parser.attachIndexes
  dsimp only
  split
  · rename_i rest hnone
    rw [List.reverse_eq_nil_iff.1 hnone, List.nil_append] at hall
    rw [hall]
    exact .pure h
  · rename_i bracket _ hfirst _
    obtain ⟨w, hw, -⟩ := hbrackets bracket (by rw [hfirst]; exact .head _)
    exact .refuse rfl (hw.points _ _)
  · rename_i container rest hrest _
    rw [hrest] at hdrop
    cases hdrop with
    | @cons x _ _ _ hc hxv hd =>
      have hbefore : ∀ b ∈ (items.takeWhile (·.isIndex)).reverse,
          ∃ w, b.At s.tokens w ∧ x.span.start ≤ w.span.start := fun b hb => by
        obtain ⟨w, hw, hvw⟩ := hbrackets b hb
        exact ⟨w, hw, Nat.le_trans hxv hvw⟩
      refine (attach hbefore hc p).bind fun item q _ hi => .pure ?_
      exact .cons hi (Nat.le_trans hxv hvu) hd

theorem property {owner : Owner} (ho : owner.item.At s.tokens t) (ht : token ∈ s.tokens.toArray)
    (hle : t.span.start ≤ token.span.start) (name : String) (p : ParseState) :
    Leads s p (fun item _ => item.Stands s.tokens t) (property s owner name token) := by
  refine (noteTypes s _ p).bind fun _ p₁ _ _ => ?_
  dsimp only
  split
  · exact (push s _ _ _ p₁).bind fun e p₂ _ he => .pure (ho.merged he hle)
  · rename_i e _
    obtain ⟨remark, hd⟩ := resolveFailure_labels s.registry e token.span owner.type name
    have hpoints (code : ErrorCode) : s.tokens.Points token.span.start token.line code remark :=
      .of_mem ht rfl rfl
    exact .ite (fun _ => .throw ⟨_, hd, hpoints _⟩) fun _ => .throw ⟨_, hd, hpoints _⟩

/-- A member is taken of the last item. -/
theorem ownerOf {dot : Token} (ht : dot ∈ s.tokens.toArray) (h : Behind s.tokens t u items)
    (p : ParseState) :
    Leads s p (fun r _ => ∃ v, r.1.item.At s.tokens v ∧ v.span.start ≤ u.span.start ∧
      Behind s.tokens t v r.2) (ownerOf dot items) := by
  cases h with
  | nil => exact .refuse_at ht rfl
  | cons hi hle hd =>
    unfold Parser.ownerOf
    dsimp only
    split
    · rename_i e hk
      refine (requireValue hi.placed.mem (hi.placed.value hk) hi.placed.line p).bind ?_
      exact fun _ q _ _ => .pure ⟨_, hi.placed, hle, hd⟩
    · exact .pure ⟨_, hi.placed, hle, hd⟩
    · exact .refuse_at ht rfl

end Leads

/-! ### Expressions inside expressions -/

namespace Aims

variable (hsub : Aims s sub) (ho : s.tokens.Ordered)

include hsub

theorem requiredExpression (p : ParseState) :
    Leads s p (fun e _ => e.BeginsAt s.tokens (s.tokenAt p)) (requiredExpression s sub) := by
  refine (Leads.current s p).bind ?_
  rintro token p _ ⟨rfl, rfl⟩
  refine (hsub.leads p).bind fun root q _ hroot => ?_
  cases root with
  | none => exact .refuse_at (s.tokenAt_mem p) rfl
  | some e => exact .pure (hroot e rfl)

theorem valueExpression (p : ParseState) :
    Leads s p (fun e _ => e.BeginsAt s.tokens (s.tokenAt p) ∧ e.type ≠ .void)
      (valueExpression s sub) := by
  refine (Leads.current s p).bind ?_
  rintro token p _ ⟨rfl, rfl⟩
  refine (hsub.requiredExpression p).bind fun e q _ he => ?_
  refine (Leads.requireValue (s.tokenAt_mem p) he rfl q).bind fun _ r _ hv => ?_
  exact .pure ⟨he, hv⟩

include ho

theorem restOfArguments (opened : Token) (n : Nat) (p : ParseState)
    (hle : opened.span.start ≤ (s.tokenAt p).span.start) :
    Leads s p (fun r _ => opened.span.start ≤ r.2.span.start)
      (restOfArguments s sub opened n) := by
  induction n generalizing p with
  | zero => exact .pure (Nat.le_refl _)
  | succ n ih =>
    refine (hsub.valueExpression p).bind fun arg q hpq _ => ?_
    refine (Leads.eat ho .comma q).bind fun b r hqr _ => ?_
    have hle' := Nat.le_trans hle (hpq.trans hqr)
    refine .ite (fun _ => ?_) fun _ => ?_
    · exact (ih r hle').bind fun args _ _ hargs => .pure hargs
    · refine (Leads.expectClosing ho opened .paren r).bind ?_
      rintro closed _ _ rfl
      exact .pure hle'

theorem arguments (p : ParseState) :
    Leads s p (fun r _ => (s.tokenAt p).span.start ≤ r.2.span.start) (arguments s sub) := by
  refine (Leads.expectOpening ho .paren p).bind ?_
  rintro _ q hpq rfl
  refine (Leads.isAt s _ q).bind ?_
  rintro b q _ ⟨-, rfl⟩
  refine .ite (fun _ => ?_) fun _ => hsub.restOfArguments ho _ _ q hpq
  refine (Leads.advance ho q).bind ?_
  rintro closed r _ rfl
  exact .pure hpq

theorem restOfInitializer (opened : Token) (n : Nat) (p : ParseState)
    (hle : opened.span.start ≤ (s.tokenAt p).span.start) :
    Leads s p (fun r _ => opened.span.start ≤ r.2.span.start ∧
        ∀ e ∈ r.1, s.tokens.StartsAt e.span.start)
      (restOfInitializer s sub opened n) := by
  induction n generalizing p with
  | zero => exact .pure ⟨Nat.le_refl _, nofun⟩
  | succ n ih =>
    refine (Leads.isAt s _ p).bind ?_
    rintro b p _ ⟨-, rfl⟩
    refine .ite (fun _ => ?_) fun _ => ?_
    · refine (Leads.advance ho p).bind ?_
      rintro closed q _ rfl
      exact .pure ⟨hle, nofun⟩
    · refine (hsub.valueExpression p).bind fun item q hpq hitem => ?_
      refine (Leads.eat ho .comma q).bind fun b r hqr _ => ?_
      have hle' := Nat.le_trans hle (hpq.trans hqr)
      refine .ite (fun _ => ?_) fun _ => ?_
      · refine (ih r hle').bind fun items _ _ hitems => .pure ⟨hitems.1, ?_⟩
        exact List.forall_mem_cons.2 ⟨hitem.1.starts, hitems.2⟩
      · refine (Leads.expectClosing ho opened .brace r).bind ?_
        rintro closed _ _ rfl
        exact .pure ⟨hle', List.forall_mem_singleton.2 hitem.1.starts⟩

theorem initializer (p : ParseState) :
    Leads s p (fun r _ => (s.tokenAt p).span.start ≤ r.2.span.start ∧
        ∀ e ∈ r.1, s.tokens.StartsAt e.span.start) (initializer s sub) := by
  refine (Leads.expectOpening ho .brace p).bind ?_
  rintro _ q hpq rfl
  exact hsub.restOfInitializer ho _ _ q hpq

/-! ### Calls and members -/

theorem globalCall (ht : token ∈ s.tokens.toArray) (name : String) (typeArgs : List TypeRef)
    (p : ParseState) (hle : token.span.start ≤ (s.tokenAt p).span.start) :
    Leads s p (fun item _ => item.Stands s.tokens token)
      (globalCall s sub name typeArgs token) := by
  refine (Leads.isAt s _ p).bind ?_
  rintro b p _ ⟨-, rfl⟩
  refine .ite (fun _ => .refuse_at ht rfl) fun _ => ?_
  refine (Leads.resolveTypes ht typeArgs p).bind fun typeArgs p₁ h₁ _ => ?_
  refine (hsub.arguments ho p₁).bind ?_
  rintro ⟨args, closed⟩ p₂ _ hclosed
  refine (Leads.noteTypes s _ p₂).bind fun _ p₃ _ _ => ?_
  refine (Leads.found ht _ none name p₃).bind fun call p₄ _ hcall => ?_
  have hargs := Registry.resolveFunction_assignable hcall
  refine (Leads.convertArguments hargs _ _ p₄).bind fun args p₅ _ _ => ?_
  refine (Leads.push s _ _ _ p₅).bind fun e p₆ _ he => .pure (Item.stands_value ht he ?_ rfl)
  exact Nat.min_eq_left (Nat.le_trans hle (Nat.le_trans h₁ hclosed))

theorem methodCall {owner : Owner} (hi : owner.item.At s.tokens t)
    (ht : token ∈ s.tokens.toArray) (name : String) (typeArgs : List TypeRef) (p : ParseState)
    (hle : t.span.start ≤ (s.tokenAt p).span.start) :
    Leads s p (fun item _ => item.Stands s.tokens t)
      (methodCall s sub owner name typeArgs token) := by
  refine (Leads.resolveTypes ht typeArgs p).bind fun typeArgs p₁ h₁ _ => ?_
  refine (hsub.arguments ho p₁).bind ?_
  rintro ⟨args, closed⟩ p₂ _ hclosed
  refine (Leads.noteTypes s _ p₂).bind fun _ p₃ _ _ => ?_
  refine (Leads.found ht _ owner.type name p₃).bind fun call p₄ _ hcall => ?_
  have hargs := Registry.resolveMethod_assignable hcall
  refine (Leads.convertArguments hargs _ _ p₄).bind fun args p₅ _ _ => ?_
  refine (Leads.push s _ _ _ p₅).bind fun e p₆ _ he => .pure (hi.merged he ?_)
  exact Nat.le_trans hle (Nat.le_trans h₁ hclosed)

theorem member {owner : Owner} (hi : owner.item.At s.tokens t) (p : ParseState)
    (hle : t.span.start ≤ (s.tokenAt p).span.start) :
    Leads s p (fun item _ => item.Stands s.tokens t) (member s sub owner) := by
  refine (Leads.current s p).bind ?_
  rintro token p _ ⟨rfl, rfl⟩
  have ht := s.tokenAt_mem p
  dsimp only
  split
  · refine (Leads.advance ho p).bind fun _ q hpq _ => ?_
    refine (Leads.isAt s _ q).bind ?_
    rintro b q _ ⟨-, rfl⟩
    refine .ite (fun _ => ?_) fun _ => Leads.property hi ht hle _ q
    exact hsub.methodCall ho hi ht _ _ q (Nat.le_trans hle hpq)
  · exact .refuse_at ht rfl

theorem collectMember (h : Behind s.tokens t (s.tokenAt p) items) :
    Leads s p (fun items' q => Behind s.tokens t (s.tokenAt q) items')
      (collectMember s sub items) := by
  refine (Leads.advance ho p).bind ?_
  rintro _ p₁ h₁ rfl
  refine (Leads.attachIndexes h p₁).bind fun items p₂ h₂ hitems => ?_
  refine (Leads.ownerOf (s.tokenAt_mem p) hitems p₂).bind ?_
  rintro ⟨owner, below⟩ p₃ h₃ ⟨v, hv, hle, hbelow⟩
  have hle' := Nat.le_trans hle ((h₁.trans h₂).trans h₃)
  refine (hsub.member ho hv p₃ hle').bind fun item p₄ h₄ hitem => .pure ?_
  exact .cons hitem (Nat.le_trans hle' h₄) hbelow

/-! ### Construction -/

theorem arrayItems (count : Option Expr) {stop : Span} (hstop : start.span.start ≤ stop.start)
    (p : ParseState) (hle : start.span.start ≤ (s.tokenAt p).span.start) :
    Leads s p (fun r _ => start.span.start ≤ r.2.start ∧
        ∀ e ∈ r.1, s.tokens.StartsAt e.span.start) (arrayItems s sub count stop) := by
  refine (Leads.isAt s _ p).bind ?_
  rintro b p _ ⟨-, rfl⟩
  refine .ite (fun _ => ?_) fun _ => .ite (fun _ => .unexpected) fun _ => .pure ⟨hstop, nofun⟩
  refine (hsub.initializer ho p).bind ?_
  rintro ⟨items, closed⟩ q _ ⟨hclosed, hitems⟩
  exact .pure ⟨Nat.le_trans hle hclosed, hitems⟩

theorem newArray (ht : start ∈ s.tokens.toArray) (hk : start.kind = .new) (elem : Ty)
    (count : Option Expr) {stop : Span} (hstop : start.span.start ≤ stop.start) (p : ParseState)
    (hle : start.span.start ≤ (s.tokenAt p).span.start) :
    Leads s p (fun item _ => item.Stands s.tokens start)
      (newArray s sub start elem count stop) := by
  refine (hsub.arrayItems ho count hstop p hle).bind ?_
  rintro ⟨items, stop⟩ p₁ _ ⟨hstop, hitems⟩
  refine (Leads.convertEach ht hk .arrayElement hitems elem p₁).bind fun items p₂ _ _ => ?_
  have hspan : (start.span.merge stop).start = start.span.start := Nat.min_eq_left hstop
  refine (Leads.checkLength ht hspan count items.length p₂).bind fun _ p₃ _ _ => ?_
  refine (Leads.noteTypes s _ p₃).bind fun _ p₄ _ _ => ?_
  refine (Leads.push s _ _ _ p₄).bind fun e p₅ _ he => .pure ?_
  exact Item.stands_value ht he hspan rfl

theorem constructorArguments {typeToken : Token} (p : ParseState)
    (hle : typeToken.span.start ≤ (s.tokenAt p).span.start) :
    Leads s p (fun r _ => typeToken.span.start ≤ r.2.start)
      (constructorArguments s sub typeToken) := by
  refine (Leads.isAt s _ p).bind ?_
  rintro b p _ ⟨-, rfl⟩
  refine .ite (fun _ => ?_) fun _ => ?_
  · refine (hsub.arguments ho p).bind ?_
    rintro ⟨args, closed⟩ q _ hclosed
    exact .pure (Nat.le_trans hle hclosed)
  · refine (Leads.isAt s _ p).bind ?_
    rintro b p _ ⟨-, rfl⟩
    exact .ite (fun _ => .pure (Nat.le_refl _)) fun _ => .unexpected

omit hsub ho in
theorem constructorFor {typeToken : Token} (ht : typeToken ∈ s.tokens.toArray) (type : Ty)
    (types : List Ty) (p : ParseState) :
    Leads s p (fun call _ => s.registry.resolveConstructor type types = .ok call)
      (constructorFor s typeToken type types) := by
  refine (Leads.noteTypes s _ p).bind fun _ q _ _ => ?_
  dsimp only
  split
  · exact .refuse_at ht rfl
  · exact Leads.found ht _ _ _ q

theorem insertedItems (ht : start ∈ s.tokens.toArray) (hk : start.kind = .new) (type : Ty)
    {stop : Span} (hstop : start.span.start ≤ stop.start) (p : ParseState)
    (hle : start.span.start ≤ (s.tokenAt p).span.start) :
    Leads s p (fun r _ => start.span.start ≤ r.2.2.start)
      (insertedItems s sub start type stop) := by
  refine (Leads.isAt s _ p).bind ?_
  rintro b p _ ⟨-, rfl⟩
  refine .ite (fun _ => ?_) fun _ => .pure hstop
  refine (Leads.noteTypes s _ p).bind fun _ p₁ h₁ _ => ?_
  dsimp only
  split
  · refine (Leads.current s p₁).bind ?_
    rintro brace p₁ _ ⟨rfl, rfl⟩
    exact .refuse_at (s.tokenAt_mem p₁) rfl
  · rename_i insertion _
    refine (hsub.initializer ho p₁).bind ?_
    rintro ⟨items, closed⟩ p₂ _ ⟨hclosed, hitems⟩
    refine (Leads.convertEach ht hk .collectionElement hitems insertion.elem p₂).bind ?_
    intro items p₃ _ _
    exact .pure (Nat.le_trans hle (Nat.le_trans h₁ hclosed))

theorem newObject {typeToken : Token} (ht : start ∈ s.tokens.toArray) (hk : start.kind = .new)
    (htype : typeToken ∈ s.tokens.toArray) (hstart : start.span.start ≤ typeToken.span.start)
    (type : Ty) (p : ParseState) (hle : typeToken.span.start ≤ (s.tokenAt p).span.start) :
    Leads s p (fun item _ => item.Stands s.tokens start)
      (newObject s sub start typeToken type) := by
  refine (hsub.constructorArguments ho p hle).bind ?_
  rintro ⟨args, stop⟩ p₁ h₁ hstop
  refine (constructorFor htype type _ p₁).bind fun call p₂ h₂ hcall => ?_
  have hargs := Registry.resolveConstructor_assignable hcall
  refine (Leads.convertArguments hargs _ _ p₂).bind fun args p₃ h₃ _ => ?_
  have hle' := Nat.le_trans (Nat.le_trans hstart hle) ((h₁.trans h₂).trans h₃)
  refine (hsub.insertedItems ho ht hk type (Nat.le_trans hstart hstop) p₃ hle').bind ?_
  rintro ⟨items, insert, stop⟩ p₄ _ hstop
  refine (Leads.push s _ _ _ p₄).bind fun e p₅ _ he => .pure ?_
  exact Item.stands_value ht he (Nat.min_eq_left hstop) rfl

omit ho in
/-- The length is reported on the line of its first token. -/
theorem arrayCount (p : ParseState) : Leads s p (fun _ _ => True) (arrayCount s sub) := by
  refine (Leads.isAt s _ p).bind ?_
  rintro b p _ ⟨-, rfl⟩
  refine .ite (fun _ => .pure trivial) fun _ => ?_
  refine (Leads.current s p).bind ?_
  rintro first p _ ⟨rfl, rfl⟩
  refine (hsub.valueExpression p).bind fun count q _ hcount => ?_
  have hpoints := hcount.1.points (s.tokenAt_mem p) rfl .arrayLength
  exact (Leads.convert (.inr hpoints) q).bind fun _ _ _ _ => .pure trivial

theorem construct (hk : (s.tokenAt p).kind = .new) :
    Leads s p (fun item _ => item.Stands s.tokens (s.tokenAt p)) (construct s sub) := by
  have ht := s.tokenAt_mem p
  refine (Leads.advance ho p).bind ?_
  rintro _ p₁ h₁ rfl
  refine (Leads.current s p₁).bind ?_
  rintro typeToken p₁ _ ⟨rfl, rfl⟩
  have htype := s.tokenAt_mem p₁
  dsimp only
  split
  · refine (Leads.advance ho p₁).bind fun _ p₂ h₂ _ => ?_
    refine (Leads.resolveType htype _ p₂).bind fun elem p₃ h₃ _ => ?_
    exact hsub.newArray ho ht hk elem none h₁ p₃ (h₁.trans (h₂.trans h₃))
  · refine (Leads.advance ho p₁).bind fun _ p₂ h₂ _ => ?_
    refine (Leads.resolveType htype _ p₂).bind fun type p₃ h₃ _ => ?_
    refine (Leads.isAt s _ p₃).bind ?_
    rintro b p₃ _ ⟨-, rfl⟩
    refine .ite (fun _ => ?_) fun _ => ?_
    · refine (Leads.advance ho p₃).bind fun opened p₄ h₄ _ => ?_
      refine (hsub.arrayCount p₄).bind fun count p₅ h₅ _ => ?_
      refine (Leads.expectClosing ho opened .square p₅).bind ?_
      rintro _ p₆ h₆ rfl
      have hle : s.Onward p p₅ := h₁.trans (h₂.trans (h₃.trans (h₄.trans h₅)))
      exact hsub.newArray ho ht hk type count hle p₆ (hle.trans h₆)
    · exact hsub.newObject ho ht hk htype h₁ type p₃ (h₂.trans h₃)
  · exact .refuse_at htype rfl

/-! ### Items -/

theorem collectName (ht : token ∈ s.tokens.toArray) (name : String) (typeArgs : List TypeRef)
    (p : ParseState) (hle : token.span.start ≤ (s.tokenAt p).span.start) :
    Leads s p (fun item _ => item.Stands s.tokens token)
      (collectName s sub name typeArgs token) := by
  unfold Parser.collectName
  split
  · rename_i c _
    have literal (p : ParseState) : Leads s p (fun item _ => Item.Stands s.tokens item token)
        (do return ⟨.value (← Parser.push c.form token.span c.type), token.span, token.line⟩) :=
      (Leads.push s _ _ _ p).bind fun e q _ he => .pure (Item.stands_value ht he rfl rfl)
    cases c with
    | str text => exact (Leads.noteName s text p).bind fun _ q _ _ => literal q
    | _ => exact literal p
  · exact (Leads.push s _ _ _ p).bind fun e q _ he => .pure (Item.stands_value ht he rfl rfl)
  · exact hsub.globalCall ho ht name typeArgs p hle
  · refine .ite (fun _ => hsub.globalCall ho ht name typeArgs p hle) fun _ => ?_
    refine .ite (fun _ => ?_) fun _ => .refuse_at ht rfl
    refine (Leads.resolveType ht _ p).bind fun type q _ _ => .pure ?_
    exact ⟨⟨ht, rfl, rfl, trivial⟩, nofun⟩

theorem collectGroup (items : List Item) (hk : (s.tokenAt p).kind = .opening .paren) :
    Leads s p (fun items' _ => Adds s (s.tokenAt p) items items') (collectGroup s sub items) := by
  have ht := s.tokenAt_mem p
  refine (Leads.advance ho p).bind ?_
  rintro _ p₁ h₁ rfl
  refine (Leads.kindAfter s 0 p₁).bind ?_
  rintro kind p₁ _ ⟨-, rfl⟩
  refine (Leads.kindAfter s 1 p₁).bind ?_
  rintro kind' p₁ _ ⟨-, rfl⟩
  split
  · refine (Leads.advance ho p₁).bind ?_
    rintro typeToken p₂ h₂ rfl
    refine (Leads.resolveType (s.tokenAt_mem p₁) _ p₂).bind fun type p₃ h₃ _ => ?_
    refine (Leads.advance ho p₃).bind ?_
    rintro closed p₄ _ rfl
    refine .pure ⟨_, ?_, rfl⟩
    exact ⟨⟨ht, Nat.min_eq_left (h₁.trans (h₂.trans h₃)), rfl, trivial⟩, nofun⟩
  · refine (hsub.requiredExpression p₁).bind fun e p₂ h₂ he => ?_
    refine (Leads.expectClosing ho _ .paren p₂).bind ?_
    rintro closed p₃ _ rfl
    have hbegins : e.BeginsAt s.tokens (s.tokenAt p) :=
      ⟨he.starts, Nat.le_trans h₁ he.le, .inr hk⟩
    refine .pure ⟨_, ?_, rfl⟩
    exact ⟨⟨ht, Nat.min_eq_left (h₁.trans h₂), rfl, hbegins⟩, nofun⟩

theorem collectIndex (items : List Item) (hk : (s.tokenAt p).kind = .opening .square) :
    Leads s p (fun items' _ => Adds s (s.tokenAt p) items items') (collectIndex s sub items) := by
  refine (Leads.current s p).bind ?_
  rintro opened p _ ⟨rfl, rfl⟩
  have ht := s.tokenAt_mem p
  refine .ite (fun _ => .refuse_at ht rfl) fun _ => ?_
  refine (Leads.advance ho p).bind fun _ p₁ h₁ _ => ?_
  refine (hsub.valueExpression p₁).bind fun i p₂ h₂ hi => ?_
  refine (Leads.expectClosing ho _ .square p₂).bind ?_
  rintro closed p₃ _ rfl
  refine .pure ⟨_, ?_, rfl⟩
  exact ⟨⟨ht, Nat.min_eq_left (h₁.trans h₂), rfl, hi.1.starts, hk⟩, nofun⟩

omit ho in
/-- A value ends where an expression does. -/
theorem valueExpression_ends (p : ParseState) :
    Leads s p (fun e q => e.Branches s.tokens (s.tokenAt p) ∧ (s.kindAt q).isTerminator = true)
      (Parser.valueExpression s sub) := by
  exact ((hsub.valueExpression p).and fun e q h => hsub.follows.valueExpression_ends h).mono
    fun e q _ h => ⟨⟨h.1.1.starts, h.1.1.le, h.1.2⟩, h.2⟩

/-- The branches have the line of the `?`; no other item comes behind them. -/
theorem collectTernary (h : Behind s.tokens t (s.tokenAt p) items)
    (hk : (s.tokenAt p).kind = .operator .question) :
    Leads s p (fun items' q => Aligned s.tokens true t items'.reverse ∧
      (s.kindAt q).isTerminator = true) (collectTernary s sub items) := by
  have ht := s.tokenAt_mem p
  refine (Leads.advance ho p).bind ?_
  rintro _ p₁ h₁ rfl
  refine (hsub.valueExpression_ends p₁).bind fun yes p₂ h₂ hyes => ?_
  refine (Leads.eat ho .colon p₂).bind fun b p₃ h₃ _ => ?_
  refine .ite (fun _ => ?_) fun _ => ?_
  · refine (Leads.current s p₃).bind ?_
    rintro token p₃ _ ⟨rfl, rfl⟩
    exact .refuse_at (s.tokenAt_mem p₃) rfl
  · refine (hsub.valueExpression_ends p₃).bind fun no p₄ _ hno => .pure ⟨?_, hno.2⟩
    have hy : yes.Branches s.tokens (s.tokenAt p) :=
      ⟨hyes.1.starts, Nat.le_trans h₁ hyes.1.le, hyes.1.ne_void⟩
    have hn : no.Branches s.tokens (s.tokenAt p) :=
      ⟨hno.1.starts, Nat.le_trans (h₁.trans (h₂.trans h₃)) hno.1.le, hno.1.ne_void⟩
    have hquestion : Item.At s.tokens
        ⟨.operator .question, (s.tokenAt p).span, (s.tokenAt p).line⟩ (s.tokenAt p) :=
      ⟨ht, rfl, rfl, hk⟩
    simpa using h.append (.choice hquestion hy hn)

omit hsub in
theorem collectLiteral (form : Form Expr) (type : Ty) (items : List Item) (p : ParseState) :
    Leads s p (fun items' _ => Adds s (s.tokenAt p) items items')
      (collectLiteral s form type items) := by
  refine (Leads.advance ho p).bind ?_
  rintro _ q _ rfl
  refine (Leads.push s _ _ _ q).bind fun e r _ he => .pure ⟨_, ?_, rfl⟩
  exact Item.stands_value (s.tokenAt_mem p) he rfl rfl

/-- One more item, or a conditional with its branches, after which the expression ends. -/
theorem collectNext (h : Behind s.tokens t (s.tokenAt p) items) :
    Leads s p (fun items' q => Behind s.tokens t (s.tokenAt q) items' ∨
      Aligned s.tokens true t items'.reverse ∧ (s.kindAt q).isTerminator = true)
      (collectNext s sub items) := by
  have adds {items' : List Item} {q : ParseState} (hpq : s.Onward p q)
      (ha : Adds s (s.tokenAt p) items items') : Behind s.tokens t (s.tokenAt q) items' := by
    obtain ⟨item, hitem, rfl⟩ := ha
    exact .cons hitem hpq h
  refine (Leads.current s p).bind ?_
  rintro token p _ ⟨rfl, rfl⟩
  have ht := s.tokenAt_mem p
  split
  · exact (hsub.collectGroup ho items ‹_›).mono fun _ _ hpq ha => .inl (adds hpq ha)
  · exact (hsub.collectIndex ho items ‹_›).mono fun _ _ hpq ha => .inl (adds hpq ha)
  · exact (hsub.collectMember ho h).mono fun _ _ _ hb => .inl hb
  · exact (hsub.collectTernary ho h ‹_›).mono fun _ _ _ ha => .inr ha
  · refine (hsub.construct ho ‹_›).bind fun item q hpq hi => .pure ?_
    exact .inl (adds hpq ⟨item, hi, rfl⟩)
  iterate 4
    exact (collectLiteral ho _ _ items p).mono fun _ _ hpq ha => .inl (adds hpq ha)
  · refine (Leads.advance ho p).bind fun _ q hpq _ => ?_
    refine (hsub.collectName ho ht _ _ q hpq).bind fun item r hqr hi => .pure ?_
    exact .inl (adds (hpq.trans hqr) ⟨item, hi, rfl⟩)
  · refine (Leads.advance ho p).bind fun _ q hpq _ => ?_
    refine (Leads.resolveType ht _ q).bind fun type r hqr _ => .pure (.inl ?_)
    refine adds (hpq.trans hqr) ⟨_, ?_, rfl⟩
    exact ⟨⟨ht, rfl, rfl, trivial⟩, nofun⟩
  · rename_i op hq hk
    refine (Leads.advance ho p).bind fun _ q hpq _ => .pure (.inl ?_)
    refine adds hpq ⟨_, ?_, rfl⟩
    exact ⟨⟨ht, rfl, rfl, hk⟩, fun he => hq (ItemKind.operator.inj he)⟩
  · exact .unexpected

omit hsub ho in
/-- At a token that ends the expression nothing more is collected. -/
theorem collectFrom_ends (h : (s.kindAt p).isTerminator = true) (n : Nat) (items : List Item) :
    Leads s p (fun items' _ => items' = items.reverse) (collectFrom s sub n items) := by
  cases n with
  | zero => exact .pure rfl
  | succ n =>
    refine (Leads.current s p).bind ?_
    rintro token p _ ⟨rfl, rfl⟩
    exact .ite (fun _ => .pure rfl) fun hopen => absurd h hopen

theorem collectFrom (n : Nat) (h : Behind s.tokens t (s.tokenAt p) items) :
    Leads s p (fun items' _ => Aligned s.tokens true t items') (collectFrom s sub n items) := by
  induction n generalizing items p with
  | zero => exact .pure h.reverse
  | succ n ih =>
    refine (Leads.current s p).bind ?_
    rintro token p _ ⟨rfl, rfl⟩
    refine .ite (fun _ => .pure h.reverse) fun _ => ?_
    refine (hsub.collectNext ho h).bind fun items' q _ hq => ?_
    rcases hq with hbehind | ⟨haligned, hends⟩
    · exact ih hbehind
    · refine (collectFrom_ends hends n items').mono ?_
      rintro _ r _ rfl
      exact haligned

/-- The items of an expression begin at tokens in their order, the first at the token at hand. -/
theorem collect (p : ParseState) :
    Leads s p (fun items _ => Aligned s.tokens true (s.tokenAt p) items) (collect s sub) :=
  hsub.collectFrom ho _ .nil

end Aims

end TypedExpr.Parser
