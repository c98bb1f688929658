import TypedExpr.Proofs.Typing.Accepted
import TypedExpr.Proofs.Typing.Bases
import TypedExpr.Proofs.Typing.Plain
import TypedExpr.Proofs.Typing.Uses
/-!
# The parts of a node have the types that it asks for

A rule tells what a node is built from as it is written; here it is told of the node as it is. Every
conversion from `int` to `double` has been made, so the type of a part is the one its node asks for,
or one whose values need not be changed to stand there. Evaluation relies on that, and does not look
at the types again.

* `Registry.Reaches`: a type that may stand for another as it is.
* `Form.Settled`, `Expr.Settled`: what each form of node asks of the types of its parts.
* `Expr.Rule.settled`: a node that obeys its rule is settled.
* `Parser.next_settled`: **every node that is built is settled.**
* `Parser.next_appended`: an assignment with `+` may join a number to a text.
-/

namespace TypedExpr

/-! ### What plans ask for -/

/-- The type of the result of an operator that is carried out on operands of one primitive type. -/
def BinaryOp.result (op : BinaryOp) (operand : Ty) : Ty :=
  match op.kind with
  | .relational | .equality => .bool
  | _ => operand

namespace Registry

/-- What is of the first type may stand as it is where the second is asked for: it converts to it,
and no integer is left to become a double. -/
structure Reaches (reg : Registry) (source target : Ty) : Prop where
  assignable : reg.isAssignable source target = true
  not_promoted : ¬(source = .int ∧ target = .double)

/-- Expressions may stand as they are for the parameters, one for each. -/
def ReachAll (reg : Registry) (args : List Expr) (params : List Ty) : Prop :=
  List.Forall₂ (fun e t => reg.Reaches e.type t) args params

/-- An operand of a type, and the type of the result, suit the plan of a unary operator. -/
def SuitUnary (reg : Registry) (op : UnaryOp) (operand result : Ty) : UnaryPlan → Prop
  | .int => operand = .int ∧ result = .int
  | .double => operand = .double ∧ result = .double
  | .bool => operand = .bool ∧ result = .bool
  | .overload id => ∃ source call, reg.resolveUnaryOperator op source = .ok (some call) ∧
    call.callable = id ∧ call.ret = result ∧ List.Forall₂ reg.Reaches [operand] call.params

/-- Operands of these types, and the type of the result, suit the plan of a binary operator. -/
def SuitBinary (reg : Registry) (op : BinaryOp) (left right result : Ty) : BinaryPlan → Prop
  | .int => left = .int ∧ right = .int ∧ result = op.result .int
  | .double => left = .double ∧ right = .double ∧ result = op.result .double
  | .bool => left = .bool ∧ right = .bool ∧ result = op.result .bool
  | .string => left = .string ∧ right = .string ∧ result = op.result .string
  | .concat => op = .add ∧ (left = .string ∨ right = .string) ∧ result = .string
  | .reference => op.kind = .equality ∧
    (reg.isAssignable left right = true ∨ reg.isAssignable right left = true) ∧ result = .bool
  | .overload id => ∃ l r call, reg.resolveBinaryOperator op l r = .ok (some call) ∧
    call.callable = id ∧ call.ret = result ∧ List.Forall₂ reg.Reaches [left, right] call.params

/-- A target and a value of these types, and the type of what the operator gives, suit the plan of
an assignment with that operator. The target is not converted, so an overload may still promote
it. -/
def SuitCompound (reg : Registry) (op : BinaryOp) (target value result : Ty) : BinaryPlan → Prop
  | .overload id => ∃ source a b, reg.resolveBinaryOperator op target source =
    .ok (some ⟨id, [a, b], result⟩) ∧ reg.isAssignable target a = true ∧ reg.Reaches value b
  | plan => reg.SuitBinary op target value result plan

end Registry

/-! ### What nodes ask for -/

/-- What a node of a type asks of its parts, by its form. -/
def Form.Settled (reg : Registry) (scope : Scope) (t : Ty) : Form Expr → Prop
  | .int _ => t = .int
  | .double _ => t = .double
  | .bool _ => t = .bool
  | .str _ => t = .string
  | .var name => scope.get? name = some (.var t)
  | .unary op plan e => reg.SuitUnary op e.type t plan
  | .binary op plan l r => reg.SuitBinary op l.type r.type t plan
  | .ternary c y n => c.type = .bool ∧ reg.Reaches y.type t ∧ reg.Reaches n.type t
  | .assign target value =>
    target.isSettable = true ∧ t = target.type ∧ reg.Reaches value.type target.type
  | .compound op plan target value => target.isSettable = true ∧ t = target.type ∧
    ∃ result, reg.isAssignable result target.type = true ∧
      reg.SuitCompound op target.type value.type result plan
  | .step _ _ target =>
    target.isSettable = true ∧ t = target.type ∧ target.type.isNumeric = true
  | .cast plan e => reg.explicitCast? e.type t = some plan
  | .index container i get set => ∃ indexer, reg.resolveIndexer container.type = .ok indexer ∧
    indexer.get = get ∧ indexer.set = set ∧ indexer.elem = t ∧ reg.Reaches i.type indexer.index
  | .property receiver get set => ∃ owner name, (∀ e ∈ receiver, e.type = owner) ∧
    reg.resolveProperty owner name receiver.isNone = .ok ⟨get, set, t⟩
  | .method receiver callable args => ∃ name typeArgs sources params,
    reg.resolveMethod receiver.type name typeArgs sources false = .ok ⟨callable, params, t⟩ ∧
      reg.ReachAll args params
  | .call callable args => ∃ name typeArgs sources params,
    (reg.resolveFunction name typeArgs sources = .ok ⟨callable, params, t⟩ ∨
      ∃ owner, reg.resolveMethod owner name typeArgs sources true = .ok ⟨callable, params, t⟩) ∧
        reg.ReachAll args params
  | .new constructor args items insert =>
    (∃ sources params, reg.resolveConstructor t sources = .ok ⟨constructor, params, t⟩ ∧
      reg.ReachAll args params) ∧
    match insert with
    | none => items = []
    | some id => ∃ kind elem, reg.resolveInsertion t = .ok ⟨kind, id, elem⟩ ∧
      ∀ item ∈ items, reg.Reaches item.type elem
  | .newArray elem count items => t = .array elem ∧ (∀ c ∈ count, c.type = .int) ∧
    ∀ item ∈ items, reg.Reaches item.type elem

/-- Every part of the node yields a value, of a type that the node asks for. -/
structure Expr.Settled (reg : Registry) (scope : Scope) (e : Expr) : Prop where
  ne_void : ∀ part ∈ e.form.parts, part.type ≠ .void
  form : e.form.Settled reg scope e.type

/-! ### What is passed is what is asked for -/

namespace Registry

variable {reg : Registry} {source target actual : Ty}

theorem Passes.reaches (h : reg.Passes source target actual) : reg.Reaches actual target := by
  obtain ⟨ha, rfl⟩ := h
  split
  · rename_i hp
    obtain ⟨-, rfl⟩ := hp
    exact ⟨isAssignable_self (by decide), by decide⟩
  · rename_i hp
    exact ⟨ha, hp⟩

theorem Passes.ne_void (h : reg.Passes source target actual) : actual ≠ .void :=
  (ne_void_of_isAssignable h.reaches.assignable).1

/-- What is asked for as it is written is passed as it is. -/
theorem Passes.eq_self (h : reg.Passes source source actual) : actual = source := by
  refine h.actual_eq.trans (if_neg ?_)
  rintro ⟨rfl, h⟩
  cases h

/-- A number that is asked for as a double has become one. -/
theorem Passes.eq_double (h : reg.Passes source .double actual) (hs : source.isNumeric = true) :
    actual = .double := by
  cases source <;> simp [Ty.isNumeric] at hs <;> exact h.actual_eq

theorem PassesAll.reachAll {sources params : List Ty} {args : List Expr}
    (ha : List.Forall₂ (fun s p => reg.isAssignable s p = true) sources params)
    (h : reg.PassesAll sources params args) : reg.ReachAll args params := by
  unfold PassesAll at h
  induction ha generalizing args with
  | nil =>
    cases h
    exact .nil
  | cons _ _ ih =>
    cases h with
    | cons hp hps => exact .cons hp.reaches (ih hps)

theorem PassesAll.ne_void {sources params : List Ty} {args : List Expr}
    (h : reg.PassesAll sources params args) : ∀ e ∈ args, e.type ≠ .void := by
  unfold PassesAll at h
  generalize sources.zip params = ts at h
  induction h with
  | nil => simp
  | cons hp _ ih => simpa using ⟨hp.ne_void, ih⟩

theorem forall_passes {elem : Ty} {sources : List Ty} {items : List Expr}
    (h : List.Forall₂ (fun source e => reg.Passes source elem e.type) sources items) :
    ∀ e ∈ items, ∃ source, reg.Passes source elem e.type := by
  induction h with
  | nil => simp
  | cons hp _ ih => simpa using ⟨⟨_, hp⟩, ih⟩

/-- Nothing but itself converts to a type that is built in, other than `double` and `object`. -/
theorem UserBases.eq_of_isAssignable (hb : reg.UserBases)
    (h : reg.isAssignable source target = true) (hu : ¬target.IsUser) (hd : target ≠ .double)
    (ho : target ≠ .object) : source = target := by
  unfold isAssignable implicitCost? at h
  split at h
  · cases h
  · split at h
    · assumption
    · rw [if_neg fun hp => hd hp.2] at h
      split at h
      · rename_i hs
        exact hb.eq_of_isSubtype hs hu
      · cases h

/-! ### Operators -/

theorem typeUnary_suits {op : UnaryOp} {typing : UnaryTyping}
    (h : reg.typeUnary op source = .ok typing) (he : reg.Passes source typing.operand actual) :
    reg.SuitUnary op actual typing.result typing.plan := by
  rcases typeUnary_ok h with ⟨plan, hplan, rfl⟩ | ⟨id, hplan, -, hcall⟩
  · obtain rfl := he.eq_self
    unfold builtinUnary? at hplan
    split at hplan <;> cases hplan <;> exact ⟨rfl, rfl⟩
  · rw [hplan]
    exact ⟨source, _, hcall, rfl, rfl, .cons he.reaches .nil⟩

section Binary

variable {op : BinaryOp} {l r a b : Ty} {typing : BinaryTyping}

theorem suits_numericPlan (h : (l.isNumeric && r.isNumeric) = true)
    (ha : reg.Passes l (numericPlan l r).2 a) (hb : reg.Passes r (numericPlan l r).2 b) :
    reg.SuitBinary op a b (op.result (numericPlan l r).2) (numericPlan l r).1 := by
  unfold numericPlan at ha hb ⊢
  split at ha
  · rename_i hi
    obtain ⟨rfl, rfl⟩ := hi
    exact ⟨ha.eq_self, hb.eq_self, rfl⟩
  · rename_i hi
    rw [if_neg hi] at hb ⊢
    obtain ⟨hl, hr⟩ := Bool.and_eq_true_iff.1 h
    exact ⟨ha.eq_double hl, hb.eq_double hr, rfl⟩

/-- The result has the type of the operands, or is the answer of a comparison. -/
theorem BuiltinBinary.result_eq (h : BuiltinBinary op l r typing) (hp : typing.plan ≠ .concat) :
    typing.result = op.result typing.left := by
  unfold BinaryOp.result
  cases h with
  | concat => exact absurd rfl hp
  | arithmetic hop | order hop | equalNumbers hop | equalStrings hop => rw [hop] <;> rfl
  | int hop => rcases hop with hop | hop <;> rw [hop] <;> rfl
  | bool hop => rcases hop with hop | hop | hop <;> rw [hop] <;> rfl

theorem BuiltinBinary.suits (h : BuiltinBinary op l r typing) (ha : reg.Passes l typing.left a)
    (hb : reg.Passes r typing.right b) : reg.SuitBinary op a b typing.result typing.plan := by
  have hresult := h.result_eq
  cases h with
  | concat hop h =>
    rw [ha.eq_self, hb.eq_self]
    exact ⟨hop, h, rfl⟩
  | arithmetic _ h | equalNumbers _ h =>
    rw [hresult (by unfold numericPlan; split <;> exact BinaryPlan.noConfusion)]
    exact suits_numericPlan h ha hb
  | int _ hl hr | bool _ hl hr | equalStrings _ hl hr =>
    subst hl hr
    exact ⟨ha.eq_self, hb.eq_self, hresult BinaryPlan.noConfusion⟩
  | order _ h =>
    obtain ⟨hl, hr⟩ := Bool.and_eq_true_iff.1 h
    exact ⟨ha.eq_double hl, hb.eq_double hr, hresult BinaryPlan.noConfusion⟩

theorem typeBinary_suits (h : reg.typeBinary op l r = .ok typing)
    (ha : reg.Passes l typing.left a) (hb : reg.Passes r typing.right b) :
    reg.SuitBinary op a b typing.result typing.plan := by
  by_cases ho : ∃ id, typing.plan = .overload id
  · obtain ⟨id, hid⟩ := ho
    rw [hid]
    exact ⟨l, r, _, typeBinary_overload h hid, rfl, rfl, .cons ha.reaches (.cons hb.reaches .nil)⟩
  · obtain ⟨-, -, hop⟩ := typeBinary_ok h
    cases hop with
    | builtin hbuiltin => exact hbuiltin.suits ha hb
    | overload => exact absurd ⟨_, rfl⟩ ho
    | concat hop hs =>
      rw [ha.eq_self, hb.eq_self]
      exact ⟨hop, hs, rfl⟩
    | reference hop hr =>
      rw [ha.eq_self, hb.eq_self]
      exact ⟨hop, hr, rfl⟩

/-- A target is not converted, and need not be if the result can be stored to it. -/
theorem passes_target (h : reg.typeCompound op l r = .ok typing)
    (hp : ∀ id, typing.plan ≠ .overload id) : reg.Passes l typing.left l := by
  obtain ⟨hb, hr⟩ := typeCompound_typing h
  refine ⟨(typeBinary_assignable hb).1, (if_neg ?_).symm⟩
  rintro ⟨rfl, hd⟩
  exact ne_double_of_assignable hb hr hp hd

theorem typeCompound_suits (h : reg.typeCompound op l r = .ok typing)
    (hb : reg.Passes r typing.right b) :
    reg.SuitCompound op l b typing.result typing.plan := by
  obtain ⟨htype, -⟩ := typeCompound_typing h
  have hbuiltin (hp : ∀ id, typing.plan ≠ .overload id) :=
    typeBinary_suits htype (passes_target h hp) hb
  cases hplan : typing.plan with
  | overload id =>
    exact ⟨r, _, _, typeBinary_overload htype hplan, (typeBinary_assignable htype).1, hb.reaches⟩
  | _ =>
    rw [hplan] at hbuiltin
    exact hbuiltin fun _ => BinaryPlan.noConfusion

end Binary

end Registry

/-! ### What obeys its rule is settled -/

namespace Expr

variable {reg : Registry} {scope : Scope} {t : Ty} {form : Form Expr} {uses : List Use}

theorem isNumeric_of_stepPlan? {plan : UnaryPlan} (h : stepPlan? t = some plan) :
    t.isNumeric = true := by
  unfold stepPlan? at h
  split at h
  · rfl
  · rfl
  · cases h

/-- The parts of a node yield values. -/
theorem Rule.ne_void (h : Rule reg scope t form uses) : ∀ part ∈ form.parts, part.type ≠ .void := by
  cases h with
  | int | double | bool | str | var | staticProperty => simp [Form.parts]
  | unary _ he => simpa [Form.parts] using he.ne_void
  | binary _ hl hr => simpa [Form.parts] using ⟨hl.ne_void, hr.ne_void⟩
  | ternary _ hc hy hn => simpa [Form.parts] using ⟨hc.ne_void, hy.ne_void, hn.ne_void⟩
  | assign ht hv | compound ht _ hv =>
    simpa [Form.parts] using ⟨(isModifiable_iff.1 ht).1, hv.ne_void⟩
  | step ht => simpa [Form.parts] using (isModifiable_iff.1 ht).1
  | cast _ he => simpa [Form.parts] using he
  | index _ hc hi => simpa [Form.parts] using ⟨hc, hi.ne_void⟩
  | property _ hr => simpa [Form.parts] using hr
  | method hr _ ha => simpa [Form.parts] using ⟨hr, ha.ne_void⟩
  | staticMethod _ ha | function _ ha => exact ha.ne_void
  | new _ ha => simpa [Form.parts] using ha.ne_void
  | newItems _ ha _ hs =>
    intro part hpart
    rcases List.mem_append.1 hpart with hpart | hpart
    · exact ha.ne_void part hpart
    · obtain ⟨_, hp⟩ := Registry.forall_passes hs part hpart
      exact hp.ne_void
  | newArray hc hs =>
    intro part hpart
    rcases List.mem_append.1 hpart with hpart | hpart
    · obtain ⟨_, hp⟩ := hc part (Option.mem_toList.1 hpart)
      exact hp.ne_void
    · obtain ⟨_, hp⟩ := Registry.forall_passes hs part hpart
      exact hp.ne_void

/-- The parts of a node have the types that its form asks for. -/
theorem Rule.settled (hb : reg.UserBases) (h : Rule reg scope t form uses) :
    form.Settled reg scope t := by
  -- what converts to a primitive value type other than `double` has that type
  have hexact {source target actual : Ty} (h : reg.Passes source target actual)
      (ht : target = .bool ∨ target = .int) : actual = target := by
    refine hb.eq_of_isAssignable h.reaches.assignable ?_ ?_ ?_ <;>
      rcases ht with rfl | rfl <;> simp [Ty.IsUser]
  have hitems {elem : Ty} {sources : List Ty} {items : List Expr}
      (h : List.Forall₂ (fun source e => reg.Passes source elem e.type) sources items) :
      ∀ item ∈ items, reg.Reaches item.type elem := by
    intro item hitem
    obtain ⟨_, hp⟩ := Registry.forall_passes h item hitem
    exact hp.reaches
  cases h with
  | int | double | bool | str => rfl
  | var h => exact h
  | unary h he => exact Registry.typeUnary_suits h he
  | binary h hl hr => exact Registry.typeBinary_suits h hl hr
  | ternary _ hc hy hn => exact ⟨hexact hc (.inl rfl), hy.reaches, hn.reaches⟩
  | assign ht hv => exact ⟨(isModifiable_iff.1 ht).2, rfl, hv.reaches⟩
  | compound ht h hv =>
    exact ⟨(isModifiable_iff.1 ht).2, rfl, _, (Registry.typeCompound_typing h).2,
      Registry.typeCompound_suits h hv⟩
  | step ht h => exact ⟨(isModifiable_iff.1 ht).2, rfl, isNumeric_of_stepPlan? h⟩
  | cast h => exact h
  | index h _ hi => exact ⟨_, h, rfl, rfl, rfl, hi.reaches⟩
  | property h => exact ⟨_, _, by simp, h⟩
  | staticProperty h => exact ⟨_, _, by simp, h⟩
  | method _ h ha =>
    exact ⟨_, _, _, _, h, ha.reachAll (Registry.resolveMethod_assignable h)⟩
  | staticMethod h ha =>
    exact ⟨_, _, _, _, .inr ⟨_, h⟩, ha.reachAll (Registry.resolveMethod_assignable h)⟩
  | function h ha =>
    exact ⟨_, _, _, _, .inl h, ha.reachAll (Registry.resolveFunction_assignable h)⟩
  | new h ha =>
    have hargs := ha.reachAll (Registry.resolveConstructor_assignable h)
    obtain ⟨_, -, rfl⟩ := Registry.resolveConstructor_ok h
    exact ⟨⟨_, _, h, hargs⟩, rfl⟩
  | newItems h ha hi hs =>
    have hargs := ha.reachAll (Registry.resolveConstructor_assignable h)
    obtain ⟨_, -, rfl⟩ := Registry.resolveConstructor_ok h
    exact ⟨⟨_, _, h, hargs⟩, _, _, hi, hitems hs⟩
  | newArray hc hs =>
    refine ⟨rfl, fun c hmem => ?_, hitems hs⟩
    obtain ⟨_, hp⟩ := hc c hmem
    exact hexact hp (.inr rfl)

end Expr

namespace Parser

theorem settled_invariant {s : Setting} (hb : s.registry.UserBases) :
    Invariant s fun p => ∀ e ∈ p.nodes, e.Settled s.registry s.scope where
  frame h hnodes _ := by rwa [hnodes]
  build h span hrule e he := by
    rcases Array.mem_push.1 he with he | rfl
    · exact h e he
    · exact ⟨hrule.ne_void, hrule.settled hb⟩

/-- **Every node that is built is settled.** -/
theorem next_settled {s : Setting} (hb : s.registry.UserBases) {p q : ParseState}
    {root : Option Expr} (hp : ∀ e ∈ p.nodes, e.Settled s.registry s.scope)
    (h : (next s).run p = (.ok root, q)) : ∀ e ∈ q.nodes, e.Settled s.registry s.scope :=
  (settled_invariant hb).next hp h

end Parser

/-- `s += 1`, for a text `s`. -/
def Setting.appended : Setting where
  registry := .primitive
  scope := NameMap.empty.insert "s" (.var .string)
  options := .standard
  tokens := .ofTokens #[.unplaced (.ident "s" []), .unplaced (.operator (.assign (.compound .add))),
    .unplaced (.int 1)]

theorem Registry.base_primitive (d : DefId) : (primitive.definition d).base = none := by
  rcases d with _ | _ | d <;> rfl

theorem Registry.userBases_primitive : primitive.UserBases := by
  intro d t h
  rw [base_primitive] at h
  cases h

theorem Parser.next_settled_appended :
    ∃ root q, (next .appended).run (.start .initial) = (.ok root, q) ∧ q.nodes.size = 3 ∧
      ∀ e ∈ q.nodes, e.Settled .primitive Setting.appended.scope := by
  obtain ⟨root, q, h, hsize⟩ : ∃ root q,
      (next .appended).run (.start .initial) = (.ok root, q) ∧ q.nodes.size = 3 := ⟨_, _, rfl, rfl⟩
  refine ⟨root, q, h, hsize, ?_⟩
  exact next_settled (s := .appended) Registry.userBases_primitive (p := .start .initial)
    (by simp [ParseState.start]) h

/-- The target is a text and the value a number, which is joined to it as it is. -/
theorem Parser.next_appended :
    Registry.UserBases .primitive ∧ ∃ root q,
      (next .appended).run (.start .initial) = (.ok (some root), q) ∧ root ∈ q.nodes ∧
      ∃ target value, root.form = .compound .add .concat target value ∧
        target.type = .string ∧ value.type = .int := by
  refine ⟨Registry.userBases_primitive, _, _, rfl, ?_, _, _, rfl, rfl, rfl⟩
  simp

end TypedExpr
