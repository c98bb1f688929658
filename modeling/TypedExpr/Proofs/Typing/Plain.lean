import TypedExpr.Coercion
import TypedExpr.Operator.Apply
import TypedExpr.Proofs.Typing.Fits
/-!
# Operations that need no host

By a built-in plan an operator gives a plain value of the type of its result, if it does not fail.
It fails for a reason that values alone can show, or because an operand cannot be read as one of the
type that the plan asks for.

* `Yields`: what a computation gives, and how it may fail.
* `Value.Reads`: a value is read as one of a type.
* `Registry.BuiltinBinary.yields`, `yields_plainUnary`, `yields_stepValue`: **what the operators
  give.**
* `Registry.explicitCast?_ok`, `Registry.typeUnary_ok`: the plans of casts and of unary operators.
-/

namespace TypedExpr

/-- The fault is no sign of a wrong type. -/
def Fault.Expected : Fault → Prop
  | .typeMismatch _ _ | .undefinedVariable _ => False
  | _ => True

/-- What is given has a property, or the fault is allowed. -/
inductive Yields {α : Type} (A : Fault → Prop) (P : α → Prop) : Except Fault α → Prop where
  | ok {a : α} (h : P a) : Yields A P (.ok a)
  | error {e : Fault} (h : A e) : Yields A P (.error e)

namespace Yields

variable {α β : Type} {A B : Fault → Prop} {P : α → Prop} {P' : α → Prop} {R : β → Prop}
  {x : Except Fault α}

theorem bind {f : α → Except Fault β} (hx : Yields A P x) (hf : ∀ a, P a → Yields A R (f a)) :
    Yields A R (x >>= f) := by
  cases hx with
  | ok h => exact hf _ h
  | error h => exact .error h

theorem map {f : α → β} (hx : Yields A P x) (hf : ∀ a, P a → R (f a)) : Yields A R (x.map f) := by
  cases hx with
  | ok h => exact .ok (hf _ h)
  | error h => exact .error h

theorem mono (hx : Yields A P x) (h : ∀ a, P a → P' a) : Yields A P' x := by
  cases hx with
  | ok ha => exact .ok (h _ ha)
  | error he => exact .error he

theorem allow (hx : Yields A P x) (h : ∀ e, A e → B e) : Yields B P x := by
  cases hx with
  | ok ha => exact .ok ha
  | error he => exact .error (h _ he)

/-- Where every fault is allowed every computation gives something. -/
theorem any (x : Except Fault α) : Yields (fun _ => True) (fun _ => True) x := by
  cases x with
  | ok a => exact .ok trivial
  | error e => exact .error trivial

end Yields

/-- The value is read as one of the type, or the fault is allowed. -/
structure Value.Reads (A : Fault → Prop) (t : Ty) (v : Value) : Prop where
  int (h : t = .int) : Yields A (fun _ => True) v.toInt
  double (h : t = .int ∨ t = .double) : Yields A (fun _ => True) v.toDouble
  bool (h : t = .bool) : Yields A (fun _ => True) v.toBool

theorem Value.Reads.any (t : Ty) (v : Value) : v.Reads (fun _ => True) t :=
  ⟨fun _ => .any _, fun _ => .any _, fun _ => .any _⟩

theorem yields_fit (operation : String) (n : Int) :
    Yields Fault.Expected (fun _ => True) (Integer.fit operation n) := by
  unfold Integer.fit
  split
  · exact .ok trivial
  · exact .error trivial

/-! ### Operators -/

theorem yields_intBinary {op : BinaryOp} (a b : Int64)
    (h : op.kind = .arithmetic ∨ op.kind = .shift ∨ op.kind = .bitwise) :
    Yields Fault.Expected (Value.Plain .int) (intBinary op a b) := by
  have hmap {operation : String} {n : Int} :
      Yields Fault.Expected (Value.Plain .int) ((Integer.fit operation n).map Value.int) :=
    (yields_fit operation n).map fun n _ => .int n
  cases op with
  | add | sub | mul => exact hmap
  | div =>
    show Yields _ _ ((Integer.div a b).map Value.int)
    unfold Integer.div
    split
    · exact .error trivial
    · exact hmap
  | mod =>
    show Yields _ _ ((Integer.mod a b).map Value.int)
    unfold Integer.mod
    split
    · exact .error trivial
    · exact ((yields_fit _ _).bind fun _ _ => yields_fit _ _).map fun n _ => .int n
  | pow =>
    unfold intBinary
    dsimp only
    split
    · exact .ok (.int _)
    · exact .error trivial
  | shl | shr | bitAnd | bitOr | bitXor => exact .ok (.int _)
  | _ => simp [BinaryOp.kind] at h

theorem yields_intBinary_equality {op : BinaryOp} (a b : Int64) (h : op.kind = .equality) :
    Yields Fault.Expected (Value.Plain .bool) (intBinary op a b) := by
  cases op with
  | eq | ne => exact .ok (.bool _)
  | _ => cases h

theorem yields_doubleBinary {op : BinaryOp} (a b : Float) (h : op.kind = .arithmetic) :
    Yields Fault.Expected (Value.Plain .double) (doubleBinary op a b) := by
  cases op with
  | add | sub | mul | div | mod | pow => exact .ok (.double _)
  | _ => cases h

theorem yields_doubleBinary_test {op : BinaryOp} (a b : Float)
    (h : op.kind = .relational ∨ op.kind = .equality) :
    Yields Fault.Expected (Value.Plain .bool) (doubleBinary op a b) := by
  cases op with
  | lt | gt | le | ge | eq | ne => exact .ok (.bool _)
  | _ => simp [BinaryOp.kind] at h

theorem yields_boolBinary {op : BinaryOp} (a b : Bool)
    (h : op.kind = .bitwise ∨ op.kind = .shortCircuit ∨ op.kind = .equality) :
    Yields Fault.Expected (Value.Plain .bool) (boolBinary op a b) := by
  cases op with
  | bitAnd | bitOr | bitXor | and | or | eq | ne => exact .ok (.bool _)
  | _ => simp [BinaryOp.kind] at h

theorem yields_equalityBinary {op : BinaryOp} (operands : String) (equal : Bool)
    (h : op.kind = .equality) :
    Yields Fault.Expected (Value.Plain .bool) (equalityBinary op operands equal) := by
  cases op with
  | eq | ne => exact .ok (.bool _)
  | _ => cases h

section

variable {A : Fault → Prop} (hA : ∀ e, e.Expected → A e) {t : Ty} {v w : Value}

include hA

/-- **What an operator gives by a built-in plan**, except for concatenation. -/
theorem Registry.BuiltinBinary.yields {op : BinaryOp} {left right : Ty} {typing : BinaryTyping}
    (h : Registry.BuiltinBinary op left right typing) (hp : typing.plan ≠ .concat)
    (hv : v.Reads A typing.left) (hw : w.Reads A typing.right) :
    Yields A (Value.Plain typing.result) (plainBinary op typing.plan v w) := by
  cases h with
  | concat => exact absurd rfl hp
  | arithmetic hop hn =>
    unfold numericPlan at hv hw ⊢
    split at hv
    · rename_i hi
      rw [if_pos hi] at hw ⊢
      exact (hv.int rfl).bind fun a _ => (hw.int rfl).bind fun b _ =>
        (yields_intBinary a b (.inl hop)).allow hA
    · rename_i hi
      rw [if_neg hi] at hw ⊢
      exact (hv.double (.inr rfl)).bind fun a _ => (hw.double (.inr rfl)).bind fun b _ =>
        (yields_doubleBinary a b hop).allow hA
  | int hop =>
    exact (hv.int rfl).bind fun a _ => (hw.int rfl).bind fun b _ =>
      (yields_intBinary a b (.inr hop)).allow hA
  | bool hop =>
    exact (hv.bool rfl).bind fun a _ => (hw.bool rfl).bind fun b _ =>
      (yields_boolBinary a b hop).allow hA
  | order hop =>
    exact (hv.double (.inr rfl)).bind fun a _ => (hw.double (.inr rfl)).bind fun b _ =>
      (yields_doubleBinary_test a b (.inl hop)).allow hA
  | equalNumbers hop hn =>
    unfold numericPlan at hv hw ⊢
    split at hv
    · rename_i hi
      rw [if_pos hi] at hw ⊢
      exact (hv.int rfl).bind fun a _ => (hw.int rfl).bind fun b _ =>
        (yields_intBinary_equality a b hop).allow hA
    · rename_i hi
      rw [if_neg hi] at hw ⊢
      exact (hv.double (.inr rfl)).bind fun a _ => (hw.double (.inr rfl)).bind fun b _ =>
        (yields_doubleBinary_test a b (.inr hop)).allow hA
  | equalStrings hop => exact (yields_equalityBinary _ _ hop).allow hA

theorem yields_plainUnary {op : UnaryOp} {plan : UnaryPlan}
    (h : Registry.builtinUnary? op t = some plan) (hv : v.Reads A t) :
    Yields A (Value.Plain t) (plainUnary op plan v) := by
  unfold Registry.builtinUnary? at h
  split at h
  · cases h
    exact (hv.int rfl).bind fun n _ =>
      ((yields_fit "negation" (-n.toInt)).allow hA).bind fun n _ => .ok (.int n)
  · cases h
    exact (hv.int rfl).bind fun n _ => .ok (.int _)
  · cases h
    exact (hv.double (.inr rfl)).bind fun x _ => .ok (.double _)
  · cases h
    exact (hv.bool rfl).bind fun b _ => .ok (.bool _)
  · cases h

end

/-- A number is stepped to a number of the same type. -/
theorem yields_stepValue {op : StepOp} {t : Ty} {plan : UnaryPlan} {v : Value}
    (h : stepPlan? t = some plan) (hv : v.Plain t) :
    Yields Fault.Expected (Value.Plain t) (stepValue op v) := by
  cases hv with
  | int n =>
    cases op with
    | increment => exact (yields_fit _ _).map fun n _ => .int n
    | decrement => exact (yields_fit _ _).map fun n _ => .int n
  | double x =>
    cases op with
    | increment => exact .ok (.double _)
    | decrement => exact .ok (.double _)
  | _ => cases h

/-! ### Plans -/

theorem yields_toInteger (x : Float) :
    Yields Fault.Expected (fun _ => True) (Double.toInteger x) := by
  unfold Double.toInteger
  split
  · exact yields_fit _ _
  · exact .error trivial

namespace Registry

variable {reg : Registry} {s t : Ty}

/-- The plans of a cast. -/
inductive CastTyping (reg : Registry) (s t : Ty) : CastPlan → Prop where
  | intToDouble (hs : s = .int) (ht : t = .double) : CastTyping reg s t .intToDouble
  | identity (ha : reg.isAssignable s t = true) (hd : ¬ (s = .int ∧ t = .double)) :
    CastTyping reg s t .identity
  | doubleToInt (hs : s = .double) (ht : t = .int) : CastTyping reg s t .doubleToInt
  | host {id : CallableId} (h : reg.cast? s t = some id) : CastTyping reg s t (.host id)
  | checked (ht : t ≠ .void) : CastTyping reg s t (.checked t)

theorem explicitCast?_ok {plan : CastPlan} (h : reg.explicitCast? s t = some plan) :
    CastTyping reg s t plan := by
  unfold explicitCast? at h
  split at h
  · rename_i hcost
    cases h
    obtain ⟨hs, ht⟩ := eq_of_implicitCost?_one hcost
    exact .intToDouble hs ht
  · rename_i cost hone hcost
    cases h
    refine .identity (by rw [isAssignable, hcost]; rfl) ?_
    rintro ⟨rfl, rfl⟩
    cases hcost
    exact hone rfl
  · split at h
    · rename_i hd
      cases h
      exact .doubleToInt hd.1 hd.2
    · split at h
      · rename_i hid
        cases h
        exact .host hid
      · split at h
        · rename_i ht
          cases h
          exact .checked ht.1
        · cases h

/-- Plans that need no host are no overloads. -/
theorem BuiltinBinary.ne_overload {op : BinaryOp} {left right : Ty} {typing : BinaryTyping}
    (h : BuiltinBinary op left right typing) (id : CallableId) : typing.plan ≠ .overload id := by
  cases h with
  | arithmetic | equalNumbers =>
    dsimp only [BinaryTyping.uniform, numericPlan]
    split <;> simp
  | _ => exact BinaryPlan.noConfusion

/-- Only texts are concatenated. -/
theorem BuiltinBinary.result_concat {op : BinaryOp} {left right : Ty} {typing : BinaryTyping}
    (h : BuiltinBinary op left right typing) (hp : typing.plan = .concat) :
    typing.result = .string := by
  cases h with
  | concat => rfl
  | arithmetic | equalNumbers =>
    dsimp only [BinaryTyping.uniform, numericPlan] at hp
    split at hp <;> cases hp
  | _ => cases hp

/-- The typings of a unary operator. -/
theorem typeUnary_ok {op : UnaryOp} {typing : UnaryTyping} (h : reg.typeUnary op t = .ok typing) :
    (∃ plan, builtinUnary? op t = some plan ∧ typing = ⟨plan, t, t⟩) ∨
      ∃ id, typing.plan = .overload id ∧ reg.isAssignable t typing.operand = true ∧
        reg.resolveUnaryOperator op t = .ok (some ⟨id, [typing.operand], typing.result⟩) := by
  unfold typeUnary at h
  split at h
  · rename_i plan hplan
    cases h
    exact .inl ⟨plan, hplan, rfl⟩
  · split at h
    · cases h
    · split at h
      · cases h
      · rename_i call hcall
        cases h
        obtain ⟨c, -, -, -, hargs⟩ := select_ok (selectOperator_ok hcall)
        obtain ⟨id, params, ret⟩ := call
        cases hargs with
        | cons hp hps =>
          cases hps
          exact .inr ⟨id, rfl, hp, hcall⟩
      · cases h

/-- The typing of a binary operator by an overload. -/
theorem typeBinary_overload {op : BinaryOp} {l r : Ty} {typing : BinaryTyping} {id : CallableId}
    (h : reg.typeBinary op l r = .ok typing) (hp : typing.plan = .overload id) :
    reg.resolveBinaryOperator op l r =
      .ok (some ⟨id, [typing.left, typing.right], typing.result⟩) := by
  obtain ⟨-, -, hop⟩ := typeBinary_ok h
  cases hop with
  | builtin hb => cases hb.ne_overload id hp
  | @overload call hcall =>
    obtain rfl := BinaryPlan.overload.inj hp
    obtain ⟨owner, -, hselect⟩ := resolveBinaryOperator_ok hcall
    obtain ⟨c, -, -, -, hargs⟩ := select_ok hselect
    obtain ⟨id, params, ret⟩ := call
    cases hargs with
    | cons hp hps =>
      cases hps with
      | cons hq hqs =>
        cases hqs
        exact hcall
  | _ => cases hp

theorem typeCompound_typing {op : BinaryOp} {target value : Ty} {typing : BinaryTyping}
    (h : reg.typeCompound op target value = .ok typing) :
    reg.typeBinary op target value = .ok typing ∧
      reg.isAssignable typing.result target = true := by
  have hop : op.kind ≠ .shortCircuit := by
    intro hop
    rw [typeCompound, if_pos hop] at h
    cases h
  exact (typeCompound_ok hop).1 h

/-- An operator that is built in takes an integer as it is if its result can be stored there. -/
theorem ne_double_of_assignable {op : BinaryOp} {right : Ty} {typing : BinaryTyping}
    (h : reg.typeBinary op .int right = .ok typing)
    (ha : reg.isAssignable typing.result .int = true)
    (hp : ∀ id, typing.plan ≠ .overload id) : typing.left ≠ .double := by
  have hne {t : Ty} (ht : reg.definition? t = none) (h : reg.isAssignable t .int = true) :
      t = .int := by
    rcases eq_of_isAssignable ht h with h | ⟨-, h⟩ | h
    · exact h.symm
    · cases h
    · cases h
  obtain ⟨-, -, hop⟩ := typeBinary_ok h
  cases hop with
  | builtin hb =>
    cases hb with
    | arithmetic =>
      have hint : (numericPlan .int right).2 = .int := by
        unfold numericPlan at ha ⊢
        split
        · rfl
        · rename_i hi
          rw [if_neg hi] at ha
          cases hne rfl ha
      rw [BinaryTyping.uniform, hint]
      simp
    | order | equalNumbers => cases hne rfl ha
    | _ => simp [BinaryTyping.uniform]
  | overload => exact absurd rfl (hp _)
  | _ => simp

theorem applyBinary_plain {plan : BinaryPlan} (hc : plan ≠ .concat)
    (ho : ∀ id, plan ≠ .overload id) (op : BinaryOp) (v w : Value) (t : Ty) :
    reg.applyBinary op plan v w t = Run.lift (plainBinary op plan v w) := by
  cases plan with
  | concat => exact absurd rfl hc
  | overload id => exact absurd rfl (ho id)
  | _ => rfl

theorem applyUnary_plain {op : UnaryOp} {plan : UnaryPlan} (h : builtinUnary? op t = some plan)
    (v : Value) (u : Ty) : reg.applyUnary op plan v u = Run.lift (plainUnary op plan v) := by
  unfold builtinUnary? at h
  split at h <;> cases h <;> rfl

end Registry

end TypedExpr
