import TypedExpr.Parse.Operand
import TypedExpr.Proofs.Parse.Building
/-!
# Collecting items side by side

Turning tokens into items respects a simulation, if parsing the expressions inside them does.

* `Parser.TooLong`: when an array is refused for its length.
* `Simulation.collect`: the items of both sides are related one to one.
-/

namespace TypedExpr.Parser

/-! ### Lengths -/

/-- The length is a literal, and there are more items. -/
def TooLong (count : Option Expr) (items : Nat) : Prop :=
  ∃ e n, count = some e ∧ e.form = .int n ∧ 0 < items ∧ n.toInt < items

theorem checkLength_of_tooLong {count : Option Expr} {items : Nat} (h : TooLong count items)
    (span : Span) (line : Nat) :
    ∃ diagnostic : Diagnostic, diagnostic.code = .tooManyElements ∧
      checkLength count items span line = refuse diagnostic line := by
  obtain ⟨⟨_, _, _, _⟩, n, rfl, rfl, hitems⟩ := h
  refine ⟨_, ?_, if_pos hitems⟩
  rfl

theorem checkLength_of_not_tooLong {count : Option Expr} {items : Nat} {span : Span} {line : Nat}
    (h : ¬TooLong count items) : checkLength count items span line = pure () := by
  unfold checkLength
  split
  · exact if_neg fun hitems => h ⟨_, _, rfl, rfl, hitems⟩
  · rfl

namespace Simulation

variable {s : Setting} {fold : Bool} (m : Simulation s fold)

/-- Expressions that yield values, related one to one, and what comes after them. -/
def Values {α : Type} (a b : List Expr × α) : Prop :=
  List.Forall₂ m.expr a.1 b.1 ∧ (∀ e ∈ a.1, e.type ≠ .void) ∧ a.2 = b.2

theorem map_type {es es' : List Expr} (h : List.Forall₂ m.expr es es') :
    es'.map (·.type) = es.map (·.type) := by
  induction h with
  | nil => rfl
  | cons he _ ih => rw [List.map_cons, List.map_cons, m.type he, ih]

/-- What a member is taken of, on both sides. A receiver has the type that is searched. -/
inductive OwnerRel : Owner → Owner → Prop
  | value {i j : Item} {e e' : Expr} (hi : Item.Rel m.expr i j) (he : m.expr e e')
    (hv : e.type ≠ .void) : OwnerRel ⟨i, some e, e.type⟩ ⟨j, some e', e.type⟩
  | typeName {i j : Item} (hi : Item.Rel m.expr i j) (t : Ty) : OwnerRel ⟨i, none, t⟩ ⟨j, none, t⟩

theorem property {owner owner' : Owner} (ho : m.OwnerRel owner owner') (name : String)
    (token : Token) :
    Simulates m.state (Item.Rel m.expr) (property s owner name token)
      (property (s.withFold fold) owner' name token) := by
  cases ho with
  | @value i j e e' hi he hv =>
    refine (m.noteTypes _).bind fun _ _ _ => ?_
    dsimp only [Option.isNone_some]
    cases hp : s.registry.resolveProperty e.type name false with
    | error _ => exact .ite (fun _ => .throw) fun _ => .throw
    | ok p =>
      rw [hi.span]
      refine (m.push _ (.property hp hv) (.property _ _ (.some he))).bind fun a a' ha => ?_
      exact .pure (hi.withValue ha _)
  | typeName hi t =>
    refine (m.noteTypes _).bind fun _ _ _ => ?_
    dsimp only [Option.isNone_none]
    cases hp : s.registry.resolveProperty t name true with
    | error _ => exact .ite (fun _ => .throw) fun _ => .throw
    | ok p =>
      rw [hi.span]
      refine (m.push _ (.staticProperty hp) (.property _ _ .none)).bind fun a a' ha => ?_
      exact .pure (hi.withValue ha _)

/-- The owner and the items below it, on both sides. -/
def Owned (a b : Owner × List Item) : Prop :=
  m.OwnerRel a.1 b.1 ∧ List.Forall₂ (Item.Rel m.expr) a.2 b.2

theorem ownerOf (dot : Token) {items items' : List Item}
    (h : List.Forall₂ (Item.Rel m.expr) items items') :
    Simulates m.state m.Owned (ownerOf dot items) (ownerOf dot items') := by
  cases h with
  | nil => exact .refuse
  | @cons i j is js hi his =>
    cases hi with
    | @value e e' he span line =>
      refine (m.requireValue he line).bind fun _ _ hv => ?_
      rw [m.type he]
      exact .pure ⟨.value (.value he _ _) he hv, his⟩
    | typeName t => exact .pure ⟨.typeName (.typeName t _ _) t, his⟩
    | _ => exact .refuse

theorem takeWhile_isIndex {items items' : List Item}
    (h : List.Forall₂ (Item.Rel m.expr) items items') :
    List.Forall₂ (Item.Rel m.expr) (items.takeWhile (·.isIndex)) (items'.takeWhile (·.isIndex)) ∧
      List.Forall₂ (Item.Rel m.expr) (items.dropWhile (·.isIndex))
        (items'.dropWhile (·.isIndex)) := by
  induction h with
  | nil => exact ⟨.nil, .nil⟩
  | @cons i j is js hi his ih =>
    rw [List.takeWhile_cons, List.takeWhile_cons, List.dropWhile_cons, List.dropWhile_cons,
      hi.isIndex]
    split
    · exact ⟨.cons hi ih.1, ih.2⟩
    · exact ⟨.nil, .cons hi his⟩

theorem attachIndexes {items items' : List Item}
    (h : List.Forall₂ (Item.Rel m.expr) items items') :
    Simulates m.state (List.Forall₂ (Item.Rel m.expr)) (attachIndexes s items)
      (attachIndexes (s.withFold fold) items') := by
  obtain ⟨ht, hd⟩ := m.takeWhile_isIndex h
  have hr := List.rel_reverse ht
  unfold Parser.attachIndexes
  generalize (items.takeWhile (·.isIndex)).reverse = brackets at hr ⊢
  generalize (items'.takeWhile (·.isIndex)).reverse = brackets' at hr ⊢
  generalize items.dropWhile (·.isIndex) = rest at hd ⊢
  generalize items'.dropWhile (·.isIndex) = rest' at hd ⊢
  cases hr with
  | nil => exact .pure hd
  | @cons i j is js hi his =>
    cases hd with
    | nil => exact .refuse
    | @cons c c' rest rest' hc hrest =>
      refine Simulates.bind (Simulates.foldlM (.cons hi his) ?_ hc) ?_
      · intro c d a b hcd hab
        cases hab with
        | index he hv => exact m.buildIndex hcd he hv (.index he hv _ _)
        | _ => exact .pure hcd
      · exact fun a b hab => .pure (.cons hab hrest)

variable {sub sub' : Parser (Option Expr)}
  (hsub : Simulates m.state (Option.Rel m.expr) sub sub')

include hsub

/-! ### Expressions inside expressions -/

theorem requiredExpression :
    Simulates m.state m.expr (requiredExpression s sub)
      (requiredExpression (s.withFold fold) sub') := by
  refine m.current.bind fun token _ _ => hsub.bind fun e e' he => ?_
  cases he with
  | none => exact .refuse
  | some h => exact .pure h

theorem valueExpression :
    Simulates m.state (fun e e' => m.expr e e' ∧ e.type ≠ .void) (valueExpression s sub)
      (valueExpression (s.withFold fold) sub') := by
  refine m.current.bind ?_
  rintro token _ rfl
  refine (m.requiredExpression hsub).bind fun e e' he => ?_
  exact (m.requireValue he token.line).bind fun _ _ hv => .pure ⟨he, hv⟩

theorem restOfArguments (opened : Token) (n : Nat) :
    Simulates m.state m.Values (restOfArguments s sub opened n)
      (restOfArguments (s.withFold fold) sub' opened n) := by
  induction n with
  | zero => exact .pure ⟨.nil, by simp, rfl⟩
  | succ n ih =>
    refine (m.valueExpression hsub).bind fun e e' he => ?_
    refine (m.eat .comma).bind ?_
    rintro b _ rfl
    refine .ite (fun _ => ?_) fun _ => ?_
    · refine ih.bind ?_
      rintro ⟨es, closed⟩ ⟨es', _⟩ ⟨hes, hv, rfl⟩
      exact .pure ⟨.cons he.1 hes, by simpa using ⟨he.2, hv⟩, rfl⟩
    · refine (m.expectClosing opened .paren).bind ?_
      rintro closed _ rfl
      exact .pure ⟨.cons he.1 .nil, by simpa using he.2, rfl⟩

theorem arguments :
    Simulates m.state m.Values (arguments s sub) (arguments (s.withFold fold) sub') := by
  refine (m.expectOpening .paren).bind ?_
  rintro opened _ rfl
  refine (m.isAt _).bind ?_
  rintro b _ rfl
  refine .ite (fun _ => ?_) fun _ => m.restOfArguments hsub opened s.tokens.size
  refine m.advance.bind ?_
  rintro closed _ rfl
  exact .pure ⟨.nil, by simp, rfl⟩

theorem restOfInitializer (opened : Token) (n : Nat) :
    Simulates m.state m.Values (restOfInitializer s sub opened n)
      (restOfInitializer (s.withFold fold) sub' opened n) := by
  induction n with
  | zero => exact .pure ⟨.nil, by simp, rfl⟩
  | succ n ih =>
    refine (m.isAt _).bind ?_
    rintro b _ rfl
    refine .ite (fun _ => ?_) fun _ => ?_
    · refine m.advance.bind ?_
      rintro closed _ rfl
      exact .pure ⟨.nil, by simp, rfl⟩
    refine (m.valueExpression hsub).bind fun e e' he => ?_
    refine (m.eat .comma).bind ?_
    rintro b _ rfl
    refine .ite (fun _ => ?_) fun _ => ?_
    · refine ih.bind ?_
      rintro ⟨es, closed⟩ ⟨es', _⟩ ⟨hes, hv, rfl⟩
      exact .pure ⟨.cons he.1 hes, by simpa using ⟨he.2, hv⟩, rfl⟩
    · refine (m.expectClosing opened .brace).bind ?_
      rintro closed _ rfl
      exact .pure ⟨.cons he.1 .nil, by simpa using he.2, rfl⟩

theorem initializer :
    Simulates m.state m.Values (initializer s sub) (initializer (s.withFold fold) sub') := by
  refine (m.expectOpening .brace).bind ?_
  rintro opened _ rfl
  exact m.restOfInitializer hsub opened s.tokens.size

/-! ### Calls and members -/

theorem globalCall (name : String) (typeArgs : List TypeRef) (token : Token) :
    Simulates m.state (Item.Rel m.expr) (globalCall s sub name typeArgs token)
      (globalCall (s.withFold fold) sub' name typeArgs token) := by
  refine (m.isAt _).bind ?_
  rintro b _ rfl
  refine .ite (fun _ => .refuse) fun _ => ?_
  refine (m.resolveTypes typeArgs token).bind ?_
  rintro typeArgs _ rfl
  refine (m.arguments hsub).bind ?_
  rintro ⟨args, closed⟩ ⟨args', _⟩ ⟨hargs, hv, rfl⟩
  dsimp only at hargs hv ⊢
  rw [m.map_type hargs]
  refine (m.noteTypes _).bind fun _ _ _ => ?_
  refine (m.found _ token none name).bind ?_
  rintro call _ ⟨rfl, hc⟩
  refine (m.convertAll _ _ hargs hv call.params).bind fun as as' has => ?_
  refine (m.push _ (.function hc has.2) (.call _ has.1)).bind fun e e' he => ?_
  exact .pure (.value he _ _)

theorem methodCall {owner owner' : Owner} (ho : m.OwnerRel owner owner') (name : String)
    (typeArgs : List TypeRef) (token : Token) :
    Simulates m.state (Item.Rel m.expr) (methodCall s sub owner name typeArgs token)
      (methodCall (s.withFold fold) sub' owner' name typeArgs token) := by
  refine (m.resolveTypes typeArgs token).bind ?_
  rintro typeArgs _ rfl
  refine (m.arguments hsub).bind ?_
  rintro ⟨args, closed⟩ ⟨args', _⟩ ⟨hargs, hv, rfl⟩
  dsimp only at hargs hv ⊢
  rw [m.map_type hargs]
  cases ho with
  | @value i j e e' hi he hev =>
    refine (m.noteTypes _).bind fun _ _ _ => ?_
    refine (m.found _ token _ name).bind ?_
    rintro call _ ⟨rfl, hc⟩
    refine (m.convertAll _ _ hargs hv call.params).bind fun as as' has => ?_
    rw [hi.span]
    refine (m.push _ (.method hev hc has.2) (.method _ he has.1)).bind fun e e' he => ?_
    exact .pure (hi.withValue he _)
  | typeName hi t =>
    refine (m.noteTypes _).bind fun _ _ _ => ?_
    refine (m.found _ token _ name).bind ?_
    rintro call _ ⟨rfl, hc⟩
    refine (m.convertAll _ _ hargs hv call.params).bind fun as as' has => ?_
    rw [hi.span]
    refine (m.push _ (.staticMethod hc has.2) (.call _ has.1)).bind fun e e' he => ?_
    exact .pure (hi.withValue he _)

theorem member {owner owner' : Owner} (ho : m.OwnerRel owner owner') :
    Simulates m.state (Item.Rel m.expr) (member s sub owner)
      (member (s.withFold fold) sub' owner') := by
  refine m.current.bind ?_
  rintro token _ rfl
  dsimp only
  split
  · refine m.advance.bind fun _ _ _ => (m.isAt _).bind ?_
    rintro b _ rfl
    exact .ite (fun _ => m.methodCall hsub ho _ _ token) fun _ => m.property ho _ token
  · exact .refuse

theorem collectMember {items items' : List Item}
    (h : List.Forall₂ (Item.Rel m.expr) items items') :
    Simulates m.state (List.Forall₂ (Item.Rel m.expr)) (collectMember s sub items)
      (collectMember (s.withFold fold) sub' items') := by
  refine m.advance.bind ?_
  rintro dot _ rfl
  refine (m.attachIndexes h).bind fun is is' his => ?_
  refine (m.ownerOf dot his).bind ?_
  rintro ⟨owner, below⟩ ⟨owner', below'⟩ ⟨ho, hb⟩
  exact (m.member hsub ho).bind fun i j hij => .pure (.cons hij hb)

/-! ### Construction -/

theorem arrayItems {count count' : Option Expr} (hc : Option.Rel m.expr count count')
    (stop : Span) :
    Simulates m.state m.Values (arrayItems s sub count stop)
      (arrayItems (s.withFold fold) sub' count' stop) := by
  have hn : count'.isNone = count.isNone := by cases hc <;> rfl
  refine (m.isAt _).bind ?_
  rintro b _ rfl
  rw [hn]
  refine .ite (fun _ => ?_) fun _ => .ite (fun _ => m.unexpected) fun _ => ?_
  · refine (m.initializer hsub).bind ?_
    rintro ⟨items, closed⟩ ⟨items', _⟩ ⟨hi, hv, rfl⟩
    exact .pure ⟨hi, hv, rfl⟩
  · exact .pure ⟨.nil, by simp, rfl⟩

omit hsub in
/-- The end of a new array, where its items are counted. If only the second side has a literal for
the length, the first builds an array with too many items. -/
theorem builtArray (elem : Ty) {count count' : Option Expr} (hc : Option.Rel m.expr count count')
    (hi : ∀ c ∈ count, ∃ source, s.registry.Passes source .int c.type)
    {items items' : List Expr} (hitems : List.Forall₂ m.expr items items') {sources : List Ty}
    (hp : List.Forall₂ (fun source e => s.registry.Passes source elem e.type) sources items)
    (span : Span) (line : Nat) :
    Simulates m.state (Item.Rel m.expr)
      (do
        Parser.checkLength count items.length span line
        Parser.noteTypes [.array elem]
        let e ← Parser.push (.newArray elem count items) span (.array elem)
        return ⟨.value e, span, line⟩)
      (do
        Parser.checkLength count' items.length span line
        Parser.noteTypes [.array elem]
        let e ← Parser.push (.newArray elem count' items') span (.array elem)
        return ⟨.value e, span, line⟩) := by
  have hbuilt := (m.noteTypes [.array elem]).bind fun _ _ _ =>
    (m.push span (.newArray hi hp) (.newArray elem hc hitems)).bind fun e e' he =>
      Simulates.pure (Item.Rel.value he span line)
  by_cases hlong : TooLong count items.length
  · obtain ⟨_, -, hrefused⟩ := checkLength_of_tooLong hlong span line
    rw [hrefused]
    exact .refuse_bind
  · rw [checkLength_of_not_tooLong hlong, pure_bind]
    by_cases hlong' : TooLong count' items.length
    · obtain ⟨diagnostic, hcode, hrefused⟩ := checkLength_of_tooLong hlong' span line
      obtain ⟨e', n, rfl, hn, hpos, hless⟩ := hlong'
      cases hc with
      | @some e _ he =>
        rcases m.count he hn with hn | hexcused
        · exact absurd ⟨e, n, rfl, hn, hpos, hless⟩ hlong
        · refine ⟨hbuilt.exists_related, hbuilt.keeps, fun {p p' q _} hS hp => ?_⟩
          cases hp
          rw [hrefused]
          exact .inr ⟨_, q, rfl, hexcused _ p q _ _ _ _ _ hS hcode hless⟩
    · rw [checkLength_of_not_tooLong hlong', pure_bind]
      exact hbuilt

theorem newArray (start : Token) (elem : Ty) {count count' : Option Expr}
    (hc : Option.Rel m.expr count count')
    (hi : ∀ c ∈ count, ∃ source, s.registry.Passes source .int c.type) (stop : Span) :
    Simulates m.state (Item.Rel m.expr) (newArray s sub start elem count stop)
      (newArray (s.withFold fold) sub' start elem count' stop) := by
  refine (m.arrayItems hsub hc stop).bind ?_
  rintro ⟨items, stop⟩ ⟨items', _⟩ ⟨hitems, hv, rfl⟩
  refine (m.convertEach hitems hv elem _ _).bind ?_
  rintro items items' ⟨hitems, hp⟩
  rw [← hitems.length_eq]
  exact m.builtArray elem hc hi hitems hp _ _

theorem constructorArguments (typeToken : Token) :
    Simulates m.state m.Values
      (constructorArguments s sub typeToken)
      (constructorArguments (s.withFold fold) sub' typeToken) := by
  refine (m.isAt _).bind ?_
  rintro b _ rfl
  refine .ite (fun _ => ?_) fun _ => ?_
  · refine (m.arguments hsub).bind ?_
    rintro ⟨args, closed⟩ ⟨args', _⟩ ⟨ha, hv, rfl⟩
    exact .pure ⟨ha, hv, rfl⟩
  · refine (m.isAt _).bind ?_
    rintro b _ rfl
    exact .ite (fun _ => .pure ⟨.nil, by simp, rfl⟩) fun _ => m.unexpected

omit hsub in
theorem constructorFor (typeToken : Token) (type : Ty) (types : List Ty) :
    Simulates m.state (fun a b => a = b ∧ s.registry.resolveConstructor type types = .ok a)
      (constructorFor s typeToken type types)
      (constructorFor (s.withFold fold) typeToken type types) := by
  refine (m.noteTypes _).bind fun _ _ _ => ?_
  dsimp only
  split
  · exact .refuse
  · exact m.found _ typeToken _ _

/-- How the items of a new object of a type are inserted, if there are any. -/
def Inserted (t : Ty) (items : List Expr) (insert : Option CallableId) : Prop :=
  items = [] ∧ insert = none ∨ ∃ insertion sources, s.registry.resolveInsertion t = .ok insertion ∧
    insert = some insertion.callable ∧
    List.Forall₂ (fun source e => s.registry.Passes source insertion.elem e.type) sources items

theorem insertedItems (start : Token) (t : Ty) (stop : Span) :
    Simulates m.state
      (fun a b => List.Forall₂ m.expr a.1 b.1 ∧ a.2 = b.2 ∧ Inserted (s := s) t a.1 a.2.1)
      (insertedItems s sub start t stop) (insertedItems (s.withFold fold) sub' start t stop) := by
  refine (m.isAt _).bind ?_
  rintro b _ rfl
  refine .ite (fun _ => ?_) fun _ => .pure ⟨.nil, rfl, .inl ⟨rfl, rfl⟩⟩
  refine (m.noteTypes _).bind fun _ _ _ => ?_
  dsimp only
  cases hi : s.registry.resolveInsertion t with
  | error _ => exact m.current.bind fun _ _ _ => .refuse
  | ok insertion =>
    refine (m.initializer hsub).bind ?_
    rintro ⟨items, closed⟩ ⟨items', _⟩ ⟨hitems, hv, rfl⟩
    refine (m.convertEach hitems hv insertion.elem _ _).bind ?_
    rintro as as' ⟨has, hp⟩
    refine .pure ⟨has, ?_, ?_⟩
    · cases has <;> rfl
    · cases has with
      | nil => exact .inl ⟨rfl, rfl⟩
      | cons _ _ => exact .inr ⟨insertion, _, hi, rfl, hp⟩

theorem newObject (start typeToken : Token) (t : Ty) :
    Simulates m.state (Item.Rel m.expr) (newObject s sub start typeToken t)
      (newObject (s.withFold fold) sub' start typeToken t) := by
  refine (m.constructorArguments hsub typeToken).bind ?_
  rintro ⟨args, stop⟩ ⟨args', _⟩ ⟨hargs, hv, rfl⟩
  dsimp only at hargs hv ⊢
  rw [m.map_type hargs]
  refine (m.constructorFor typeToken t _).bind ?_
  rintro call _ ⟨rfl, hc⟩
  refine (m.convertAll _ _ hargs hv call.params).bind fun as as' has => ?_
  refine (m.insertedItems hsub start t stop).bind ?_
  rintro ⟨items, insert, stop⟩ ⟨items', _, _⟩ ⟨hitems, ⟨⟩, hins⟩
  obtain ⟨uses, hr⟩ : ∃ uses, Expr.Rule s.registry s.scope t (.new call.callable as items insert)
      uses := by
    rcases hins with ⟨rfl, rfl⟩ | ⟨insertion, sources, hi, rfl, hp⟩
    · exact ⟨_, .new hc has.2⟩
    · exact ⟨_, .newItems hc has.2 hi hp⟩
  exact (m.push _ hr (.new _ _ has.1 hitems)).bind fun e e' he => .pure (.value he _ _)

theorem arrayCount :
    Simulates m.state
      (fun a b => Option.Rel m.expr a b ∧ ∀ c ∈ a, ∃ source, s.registry.Passes source .int c.type)
      (arrayCount s sub) (arrayCount (s.withFold fold) sub') := by
  refine (m.isAt _).bind ?_
  rintro b _ rfl
  refine .ite (fun _ => .pure ⟨.none, by simp⟩) fun _ => ?_
  refine m.current.bind ?_
  rintro first _ rfl
  refine (m.valueExpression hsub).bind fun e e' he => ?_
  refine (m.convert he.1 he.2 .int _ _).bind fun a a' ha => ?_
  exact .pure ⟨.some ha.1, fun c hc => by cases hc; exact ⟨_, ha.2⟩⟩

theorem construct :
    Simulates m.state (Item.Rel m.expr) (construct s sub)
      (construct (s.withFold fold) sub') := by
  refine m.advance.bind ?_
  rintro start _ rfl
  refine m.current.bind ?_
  rintro typeToken _ rfl
  dsimp only
  split
  · refine m.advance.bind fun _ _ _ => (m.resolveType _ typeToken).bind ?_
    rintro elem _ rfl
    exact m.newArray hsub start elem .none (by simp) _
  · refine m.advance.bind fun _ _ _ => (m.resolveType _ typeToken).bind ?_
    rintro t _ rfl
    refine (m.isAt _).bind ?_
    rintro b _ rfl
    refine .ite (fun _ => ?_) fun _ => m.newObject hsub start typeToken t
    refine m.advance.bind ?_
    rintro opened _ rfl
    refine (m.arrayCount hsub).bind fun count count' hc => ?_
    refine (m.expectClosing opened .square).bind ?_
    rintro closed _ rfl
    exact m.newArray hsub start t hc.1 hc.2 _
  · exact .refuse

/-! ### Items -/

theorem collectName (name : String) (typeArgs : List TypeRef) (token : Token) :
    Simulates m.state (Item.Rel m.expr) (collectName s sub name typeArgs token)
      (collectName (s.withFold fold) sub' name typeArgs token) := by
  unfold Parser.collectName
  dsimp only
  split
  · rename_i c hc
    have hr : Expr.Rule s.registry s.scope c.type c.form [] := by cases c <;> constructor
    have hl : Form.Rel m.expr c.form c.form := by
      cases c with
      | int n => exact .leaf (.int n) rfl
      | double x => exact .leaf (.double x) rfl
      | bool b => exact .leaf (.bool b) rfl
      | str text => exact .leaf (.str text) rfl
    have literal : Simulates m.state (Item.Rel m.expr)
        (do return ⟨.value (← Parser.push c.form token.span c.type), token.span, token.line⟩)
        (do return ⟨.value (← Parser.push c.form token.span c.type), token.span, token.line⟩) :=
      (m.push token.span hr hl).bind fun e e' he => .pure (.value he _ _)
    cases c with
    | str text => exact (m.noteName text).bind fun _ _ _ => literal
    | _ => exact literal
  · rename_i t ht
    refine (m.push _ (.var ht) (.leaf (.var name) rfl)).bind fun e e' he => ?_
    exact .pure (.value he _ _)
  · exact m.globalCall hsub name typeArgs token
  · refine .ite (fun _ => m.globalCall hsub name typeArgs token) fun _ => ?_
    refine .ite (fun _ => ?_) fun _ => .refuse
    refine (m.resolveType _ token).bind ?_
    rintro t _ rfl
    exact .pure (.typeName t _ _)

theorem collectGroup {items items' : List Item}
    (h : List.Forall₂ (Item.Rel m.expr) items items') :
    Simulates m.state (List.Forall₂ (Item.Rel m.expr)) (collectGroup s sub items)
      (collectGroup (s.withFold fold) sub' items') := by
  refine m.advance.bind ?_
  rintro opened _ rfl
  refine (m.kindAfter 0).bind ?_
  rintro first _ rfl
  refine (m.kindAfter 1).bind ?_
  rintro second _ rfl
  split
  · refine m.advance.bind ?_
    rintro typeToken _ rfl
    refine (m.resolveType _ typeToken).bind ?_
    rintro t _ rfl
    refine m.advance.bind ?_
    rintro closed _ rfl
    exact .pure (.cons (.cast t _ _) h)
  · refine (m.requiredExpression hsub).bind fun e e' he => ?_
    refine (m.expectClosing opened .paren).bind ?_
    rintro closed _ rfl
    exact .pure (.cons (.value he _ _) h)

omit hsub in
theorem canBeIndexed {items items' : List Item}
    (h : List.Forall₂ (Item.Rel m.expr) items items') :
    canBeIndexed items' = canBeIndexed items := by
  cases h with
  | nil => rfl
  | cons hi _ => cases hi <;> rfl

theorem collectIndex {items items' : List Item}
    (h : List.Forall₂ (Item.Rel m.expr) items items') :
    Simulates m.state (List.Forall₂ (Item.Rel m.expr)) (collectIndex s sub items)
      (collectIndex (s.withFold fold) sub' items') := by
  refine m.current.bind ?_
  rintro opened _ rfl
  rw [m.canBeIndexed h]
  refine .ite (fun _ => .refuse) fun _ => ?_
  refine m.advance.bind fun _ _ _ => (m.valueExpression hsub).bind fun e e' he => ?_
  refine (m.expectClosing opened .square).bind ?_
  rintro closed _ rfl
  exact .pure (.cons (.index he.1 he.2 _ _) h)

theorem collectTernary {items items' : List Item}
    (h : List.Forall₂ (Item.Rel m.expr) items items') :
    Simulates m.state (List.Forall₂ (Item.Rel m.expr)) (collectTernary s sub items)
      (collectTernary (s.withFold fold) sub' items') := by
  refine m.advance.bind ?_
  rintro question _ rfl
  refine (m.valueExpression hsub).bind fun yes yes' hy => ?_
  refine (m.eat .colon).bind ?_
  rintro b _ rfl
  refine .ite (fun _ => m.current.bind fun _ _ _ => .refuse) fun _ => ?_
  refine (m.valueExpression hsub).bind fun no no' hn => ?_
  dsimp only
  rw [m.span hy.1, m.span hn.1]
  exact .pure (.cons (.value hn.1 _ _) (.cons (.value hy.1 _ _) (.cons (.operator _ _ _) h)))

omit hsub in
theorem collectLiteral {form form' : Form Expr} (t : Ty)
    (hr : Expr.Rule s.registry s.scope t form []) (hf : Form.Rel m.expr form form')
    {items items' : List Item} (h : List.Forall₂ (Item.Rel m.expr) items items') :
    Simulates m.state (List.Forall₂ (Item.Rel m.expr)) (collectLiteral s form t items)
      (collectLiteral (s.withFold fold) form' t items') := by
  refine m.advance.bind ?_
  rintro token _ rfl
  exact (m.push _ hr hf).bind fun e e' he => .pure (.cons (.value he _ _) h)

theorem collectNext {items items' : List Item}
    (h : List.Forall₂ (Item.Rel m.expr) items items') :
    Simulates m.state (List.Forall₂ (Item.Rel m.expr)) (collectNext s sub items)
      (collectNext (s.withFold fold) sub' items') := by
  refine m.current.bind ?_
  rintro token _ rfl
  split
  · exact m.collectGroup hsub h
  · exact m.collectIndex hsub h
  · exact m.collectMember hsub h
  · exact m.collectTernary hsub h
  · exact (m.construct hsub).bind fun i j hij => .pure (.cons hij h)
  · exact m.collectLiteral .int (.int _) (.leaf (.int _) rfl) h
  · exact m.collectLiteral .double (.double _) (.leaf (.double _) rfl) h
  · exact m.collectLiteral .string (.str _) (.leaf (.str _) rfl) h
  · exact m.collectLiteral .bool (.bool _) (.leaf (.bool _) rfl) h
  · refine m.advance.bind fun _ _ _ => (m.collectName hsub _ _ token).bind fun i j hij => ?_
    exact .pure (.cons hij h)
  · refine m.advance.bind fun _ _ _ => (m.resolveType _ token).bind ?_
    rintro t _ rfl
    exact .pure (.cons (.typeName t _ _) h)
  · exact m.advance.bind fun _ _ _ => .pure (.cons (.operator _ _ _) h)
  · exact m.unexpected

theorem collectFrom (n : Nat) {items items' : List Item}
    (h : List.Forall₂ (Item.Rel m.expr) items items') :
    Simulates m.state (List.Forall₂ (Item.Rel m.expr)) (collectFrom s sub n items)
      (collectFrom (s.withFold fold) sub' n items') := by
  induction n generalizing items items' with
  | zero => exact .pure (List.rel_reverse h)
  | succ n ih =>
    refine m.current.bind ?_
    rintro token _ rfl
    refine .ite (fun _ => .pure (List.rel_reverse h)) fun _ => ?_
    exact (m.collectNext hsub h).bind fun is js his => ih his

theorem collect :
    Simulates m.state (List.Forall₂ (Item.Rel m.expr)) (collect s sub)
      (collect (s.withFold fold) sub') :=
  m.collectFrom hsub s.tokens.size .nil

end Simulation

end TypedExpr.Parser
