import TypedExpr.Proofs.Parse.Pair
import TypedExpr.Proofs.Evaluation.Outcome
import TypedExpr.Proofs.Typing.Plain
import TypedExpr.Proofs.Typing.Uses
/-!
# Equality and its opposite

`==` and `!=` are typed and applied each on its own. Where neither is an overload they have the same
plan, and by every plan they give opposite truth values, or fail alike. An overload of `==` alone
leaves `!=` to the comparison of references, which knows nothing of it.

* `Comparison`: two values with an operator between them.
* `Registry.typeBinary_ne`: both operators have the same plan.
* `plainBinary_ne`: by that plan they give opposite truth values.
* `Comparison.outcome_ne`: **`!=` comes to the opposite of `==`.**
* `Comparison.outcome_equated`: an overload of `==` may hold where `!=` holds.
-/

namespace TypedExpr

/-! ### Typing -/

namespace Registry

/-- No overload of the operator is registered. -/
def Lacks (reg : Registry) (op : BinaryOp) : Prop :=
  ∀ d o, (OperatorKey.binary op, o) ∉ (reg.definition d).operators

/-- The operator on operands of these types is an overload. -/
def Overloads (reg : Registry) (op : BinaryOp) (l r : Ty) : Prop :=
  ∃ typing id, reg.typeBinary op l r = .ok typing ∧ typing.plan = .overload id

variable {reg : Registry} {op : BinaryOp} {l r : Ty} {typing : BinaryTyping}

theorem Lacks.resolve (h : reg.Lacks op) (l r : Ty) :
    reg.resolveBinaryOperator op l r = .ok none := by
  have hnone (t : Ty) : reg.operatorCandidates t (.binary op) = [] := by
    refine List.eq_nil_iff_forall_not_mem.2 fun c hc => ?_
    obtain ⟨u, d, -, ho⟩ := mem_operatorCandidates hc
    exact h d _ ho
  have hselect (args : List Ty) : reg.selectOperator [] args = .ok none := rfl
  unfold resolveBinaryOperator
  rw [hnone, hnone, hselect]
  dsimp only
  split <;> rfl

/-- If `!=` is no overload it is typed as `==`, unless that is one. -/
theorem typeBinary_ne (hne : reg.Lacks .ne) (h : reg.typeBinary .eq l r = .ok typing)
    (hp : ∀ id, typing.plan ≠ .overload id) : reg.typeBinary .ne l r = .ok typing := by
  unfold typeBinary at h ⊢
  split at h
  · cases h
  · rename_i hv
    rw [if_neg hv]
    split at h
    · rename_i ho
      rw [if_pos ho]
      exact h
    · rename_i ho
      rw [if_neg ho]
      unfold userBinary at h ⊢
      rw [hne.resolve]
      split at h
      · cases h
      · cases h
        exact absurd rfl (hp _)
      · exact h

/-- Equality is never a concatenation. -/
theorem ne_concat_of_equality (hop : op.kind = .equality)
    (h : reg.typeBinary op l r = .ok typing) : typing.plan ≠ .concat := by
  have hadd : op ≠ .add := by
    rintro rfl
    cases hop
  obtain ⟨-, -, ht⟩ := typeBinary_ok h
  cases ht with
  | builtin hb =>
    cases hb with
    | concat hadd' => exact absurd hadd' hadd
    | arithmetic | equalNumbers =>
      dsimp only [BinaryTyping.uniform, numericPlan]
      split <;> simp
    | _ => exact BinaryPlan.noConfusion
  | concat hadd' => exact absurd hadd' hadd
  | _ => exact BinaryPlan.noConfusion

end Registry

/-! ### Values -/

/-- By a plan of its own an operator that is an equality gives opposite truth values for `==` and
`!=`, or both fail alike. -/
theorem plainBinary_ne {plan : BinaryPlan} (hc : plan ≠ .concat) (hp : ∀ id, plan ≠ .overload id)
    (v u : Value) : ∃ result : Except Fault Bool,
      plainBinary .eq plan v u = result.map .bool ∧
        plainBinary .ne plan v u = result.map fun b => .bool !b := by
  have hread {α : Type} (x y : Except Fault α) (f : α → α → Bool) : ∃ result : Except Fault Bool,
      (do let a ← x; let b ← y; Except.ok (Value.bool (f a b))) = result.map .bool ∧
        (do let a ← x; let b ← y; Except.ok (Value.bool !(f a b))) =
          result.map fun b => .bool !b := by
    cases x with
    | error e => exact ⟨.error e, rfl, rfl⟩
    | ok a =>
      cases y with
      | error e => exact ⟨.error e, rfl, rfl⟩
      | ok b => exact ⟨.ok (f a b), rfl, rfl⟩
  cases plan with
  | int => exact hread v.toInt u.toInt (· == ·)
  | double => exact hread v.toDouble u.toDouble (· == ·)
  | bool => exact hread v.toBool u.toBool (· == ·)
  | string => exact ⟨.ok (v.same u), rfl, rfl⟩
  | reference => exact ⟨.ok (v.looseSame u), rfl, rfl⟩
  | concat => exact absurd rfl hc
  | overload id => exact absurd rfl (hp id)

/-! ### Comparisons -/

/-- Two values with an operator between them, and where they are written. -/
structure Comparison where
  left : Expr
  leftSpan : Span
  leftLine : Nat
  operatorSpan : Span
  operatorLine : Nat
  right : Expr
  rightSpan : Span
  rightLine : Nat

namespace Comparison

variable (c : Comparison)

/-- The items, with one operator or the other. -/
def items (op : BinaryOp) : List Item :=
  [⟨.value c.left, c.leftSpan, c.leftLine⟩,
    ⟨.operator (.binary op), c.operatorSpan, c.operatorLine⟩,
    ⟨.value c.right, c.rightSpan, c.rightLine⟩]

/-- What the operation denotes. -/
def operation (reg : Registry) (op : BinaryOp) (typing : BinaryTyping) (span : Span) : Denoted :=
  .ofForm reg span typing.result (.binary op typing.plan
    ((c.left.denote reg).converted reg typing.left)
    ((c.right.denote reg).converted reg typing.right))

variable {c} {s : Setting} {p q : ParseState} {op : BinaryOp} {e : Expr}

/-- What is accepted has a typing, and denotes the operation on the operands as it asks for. -/
theorem items_ok (h : (Parser.applyOperators s (c.items op)).run p = (.ok (some e), q)) :
    ∃ typing span, s.registry.typeBinary op c.left.type c.right.type = .ok typing ∧
      e.denote s.registry = c.operation s.registry op typing span := by
  obtain ⟨item, hpasses, hitem⟩ := Parser.applyOperators_ok.1 h
  have hleft : c.left.type ≠ .void := by
    unfold items at hpasses
    rw [Parser.applyPasses_pair] at hpasses
    obtain ⟨_, _, hbinary, -⟩ := run_bind_ok.1 hpasses
    obtain ⟨_, _, hoperand, -⟩ := run_bind_ok.1 hbinary
    obtain ⟨-, _, _, hi, hk, hv, -⟩ := Parser.operand_ok.1 hoperand
    cases hi
    cases hk
    exact hv
  obtain ⟨_, span, line⟩ := item
  obtain rfl := hitem
  obtain ⟨hright, -, -, hbuild⟩ := (Parser.applyPasses_pair_ok hleft).1 hpasses
  obtain ⟨typing, htype, hdenote⟩ := Parser.buildBinary_ok hbuild hleft hright
  exact ⟨typing, _, htype, hdenote⟩

/-- An equality by a plan of its own is applied to the values of its operands. -/
theorem same_operation (reg : Registry) (hop : op.kind = .equality) {typing : BinaryTyping}
    (hc : typing.plan ≠ .concat) (hp : ∀ id, typing.plan ≠ .overload id) (span : Span) :
    Eval.Same (c.operation reg op typing span).value (do
      let v ← ((c.left.denote reg).converted reg typing.left).value
      let u ← ((c.right.denote reg).converted reg typing.right).value
      Eval.lift (plainBinary op typing.plan v u)) := by
  have hshort : ¬(op.kind = .shortCircuit ∧ typing.plan = .bool) := by
    rintro ⟨h, -⟩
    cases hop.symm.trans h
  refine .trans (.inside span _) (.bind (.refl _) fun v => ?_)
  rw [if_neg hshort]
  refine .bind (.refl _) fun u st => ?_
  rw [Eval.outcome_inWorld, Registry.applyBinary_plain hc hp, Eval.outcome_lift]
  rfl

/-- **`!=` comes to the opposite of `==`** from every state, or both fail alike, if no overload of
`!=` is registered and `==` is none either. -/
theorem outcome_ne {tokens : TokenList} {p' q' : ParseState} {a b : Expr}
    (hne : s.registry.Lacks .ne)
    (heq : ¬s.registry.Overloads .eq c.left.type c.right.type)
    (ha : (Parser.applyOperators s (c.items .eq)).run p = (.ok (some a), q))
    (hb : (Parser.applyOperators { s with tokens := tokens } (c.items .ne)).run p' =
      (.ok (some b), q')) (st : EvalState) :
    ∃ (result : Except Fault Bool) (st' : EvalState),
      (a.denote s.registry).value.outcome st = (result.map .bool, st') ∧
        (b.denote s.registry).value.outcome st = (result.map fun r => .bool !r, st') := by
  obtain ⟨typing, span, htype, hdenote⟩ := items_ok ha
  obtain ⟨typing', span', htype', hdenote'⟩ := items_ok hb
  have hp : ∀ id, typing.plan ≠ .overload id := fun id hid => heq ⟨typing, id, htype, hid⟩
  have hc := Registry.ne_concat_of_equality rfl htype
  cases (Registry.typeBinary_ne hne htype hp).symm.trans htype'
  change b.denote s.registry = c.operation s.registry .ne typing span' at hdenote'
  -- both evaluate the same operands, one after the other; only the operation at the end differs
  rw [hdenote, hdenote', same_operation _ rfl hc hp, same_operation _ rfl hc hp,
    Eval.outcome_bind, Eval.outcome_bind]
  rcases ((c.left.denote s.registry).converted s.registry typing.left).value.outcome st with
    ⟨fault | v, st₁⟩
  · exact ⟨.error fault, st₁, rfl, rfl⟩
  · dsimp only
    rw [Eval.outcome_bind, Eval.outcome_bind]
    rcases ((c.right.denote s.registry).converted s.registry typing.right).value.outcome st₁ with
      ⟨fault | u, st₂⟩
    · exact ⟨.error fault, st₂, rfl, rfl⟩
    · obtain ⟨result, heq, hne⟩ := plainBinary_ne hc hp v u
      refine ⟨result, st₂, ?_, ?_⟩
      · rw [← heq]
        exact Eval.outcome_lift _ _
      · rw [← hne]
        exact Eval.outcome_lift _ _

end Comparison

/-! ### An application -/

/-- A registry in which all objects of a type `T` are equal. -/
def Registry.equated : Registry :=
  { primitive with
    definitions := #[.bare "string" 0, .bare "[]" 1,
      { Definition.bare "T" 0 with
        operators := [(.binary .eq,
          ⟨0, [.fixed (.named 2 []), .fixed (.named 2 [])], .fixed .bool, 0⟩)] }]
    callables := #[⟨"T.op_Equality", .quiet fun _ => pure (.bool true)⟩] }

theorem Registry.lacks_equated : equated.Lacks .ne := by
  intro d o h
  match d with
  | 0 | 1 => cases h
  | 2 => cases (Prod.mk.inj (List.mem_singleton.1 h)).1
  | _ + 3 => cases h

/-- The setting of two variables of the type `T`. -/
def Setting.equated : Setting where
  registry := .equated
  scope := (NameMap.empty.insert "u" (.var (.named 2 []))).insert "v" (.var (.named 2 []))
  options := .standard
  tokens := .ofTokens #[]

/-- The variables have two objects. -/
def EvalState.equated : EvalState where
  context := .of ((NameMap.empty.insert "u" ⟨.named 2 [], .object (.named 2 []) 0⟩).insert "v"
    ⟨.named 2 [], .object (.named 2 []) 1⟩)
  world := default

namespace Comparison

/-- Two values, written with an operator and blanks between them. -/
def between (left right : Expr) : Comparison :=
  ⟨left, ⟨0, 1⟩, 1, ⟨2, 4⟩, 1, right, ⟨5, 6⟩, 1⟩

/-- `1` and `2`. -/
def numbers : Comparison := .between (.node 0 ⟨0, 1⟩ .int (.int 1)) (.node 1 ⟨5, 6⟩ .int (.int 2))

/-- The variables. -/
def things : Comparison :=
  .between (.node 0 ⟨0, 1⟩ (.named 2 []) (.var "u")) (.node 1 ⟨5, 6⟩ (.named 2 []) (.var "v"))

/-- What the operation comes to, if it is accepted and gives a value. -/
def value? (c : Comparison) (op : BinaryOp) : Option Value :=
  match ((Parser.applyOperators .equated (c.items op)).run (.start .initial)).1 with
  | .ok (some e) => ((e.denote .equated).value.run .equated).1.toOption
  | _ => none

theorem exists_of_value? {c : Comparison} {op : BinaryOp} {v : Value} (h : c.value? op = some v) :
    ∃ e q st', (Parser.applyOperators .equated (c.items op)).run (.start .initial) =
        (.ok (some e), q) ∧
      (e.denote .equated).value.run .equated = (.ok v, st') := by
  unfold value? at h
  rcases hrun : (Parser.applyOperators .equated (c.items op)).run (.start .initial) with
    ⟨_ | _ | e, q⟩
  · rw [hrun] at h
    cases h
  · rw [hrun] at h
    cases h
  · rw [hrun] at h
    dsimp only at h
    rcases heval : (e.denote .equated).value.run .equated with ⟨_ | w, st'⟩
    · rw [heval] at h
      cases h
    · rw [heval] at h
      cases h
      exact ⟨e, q, st', rfl, heval⟩

theorem outcome_ne_numbers : ∃ a q b q' st',
    (Parser.applyOperators .equated (numbers.items .eq)).run (.start .initial) =
      (.ok (some a), q) ∧
    (Parser.applyOperators .equated (numbers.items .ne)).run (.start .initial) =
      (.ok (some b), q') ∧
    (a.denote .equated).value.outcome .equated = (.ok (.bool false), st') ∧
    (b.denote .equated).value.outcome .equated = (.ok (.bool true), st') := by
  have heq : numbers.value? .eq = some (.bool false) := by decide +kernel
  have hne : (numbers.value? .ne).isSome = true := by decide +kernel
  obtain ⟨a, q, st', ha, heval⟩ := exists_of_value? heq
  obtain ⟨v, hne⟩ := Option.isSome_iff_exists.1 hne
  obtain ⟨b, q', -, hb, -⟩ := exists_of_value? hne
  have hbuiltin : ¬Registry.equated.Overloads .eq numbers.left.type numbers.right.type := by
    rintro ⟨typing, id, h, hid⟩
    cases h
    cases hid
  obtain ⟨result, st'', hresult, hopposite⟩ :=
    outcome_ne (s := .equated) Registry.lacks_equated hbuiltin ha hb .equated
  have hfalse := Eval.outcome_ok.2 heval
  cases result with
  | error e => cases hresult.symm.trans hfalse
  | ok r =>
    cases hresult.symm.trans hfalse
    exact ⟨a, q, b, q', _, ha, hb, hfalse, hopposite⟩

/-- An overload of `==` alone: all objects are equal, and two of them are not the same. -/
theorem outcome_equated : Registry.equated.Lacks .ne ∧ ∃ a q b q' st' st'',
    (Parser.applyOperators .equated (things.items .eq)).run (.start .initial) =
      (.ok (some a), q) ∧
    (Parser.applyOperators .equated (things.items .ne)).run (.start .initial) =
      (.ok (some b), q') ∧
    (a.denote .equated).value.run .equated = (.ok (.bool true), st') ∧
    (b.denote .equated).value.run .equated = (.ok (.bool true), st'') := by
  have heq : things.value? .eq = some (.bool true) := by decide +kernel
  have hne : things.value? .ne = some (.bool true) := by decide +kernel
  obtain ⟨a, q, st', ha, heval⟩ := exists_of_value? heq
  obtain ⟨b, q', st'', hb, heval'⟩ := exists_of_value? hne
  exact ⟨Registry.lacks_equated, a, q, b, q', st', st'', ha, hb, heval, heval'⟩

end Comparison

end TypedExpr
