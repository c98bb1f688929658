import TypedExpr.Parse
import TypedExpr.Proofs.Hosts.Registry
/-!
# Parsing with other hosts

The parser looks callables up and never calls one: with other functions behind the callables it does
what it did, whether it succeeds or fails.

* `Setting.withHosts`: other functions behind the callables.
* `Parser.next_withHosts`: **parsing does not depend on the hosts.**
-/

namespace TypedExpr

/-- The setting with other functions behind the callables of its registry. -/
@[reducible] def Setting.withHosts (s : Setting)
    (hosts : CallableId → HostFunction → HostFunction) : Setting :=
  { s with registry := s.registry.withHosts hosts }

namespace Parser

variable {s : Setting} {hosts : CallableId → HostFunction → HostFunction}
  {sub : Parser (Option Expr)}

/-! ### Tokens and nodes -/

@[simp] theorem current_withHosts : current (s.withHosts hosts) = current s := rfl

@[simp] theorem kindAfter_withHosts : kindAfter (s.withHosts hosts) = kindAfter s := rfl

@[simp] theorem isAt_withHosts : isAt (s.withHosts hosts) = isAt s := rfl

@[simp] theorem advance_withHosts : advance (s.withHosts hosts) = advance s := rfl

@[simp] theorem eat_withHosts : eat (s.withHosts hosts) = eat s := rfl

@[simp] theorem unexpected_withHosts {α : Type} :
    unexpected (α := α) (s.withHosts hosts) = unexpected s := rfl

@[simp] theorem expectOpening_withHosts : expectOpening (s.withHosts hosts) = expectOpening s := rfl

@[simp] theorem expectClosing_withHosts : expectClosing (s.withHosts hosts) = expectClosing s := rfl

@[simp] theorem resolveType_withHosts : resolveType (s.withHosts hosts) = resolveType s := by
  funext ref token
  simp [resolveType]

@[simp] theorem resolveTypes_withHosts : resolveTypes (s.withHosts hosts) = resolveTypes s := by
  funext refs token
  simp [resolveTypes]

@[simp] theorem found_withHosts {α : Type} : found (α := α) (s.withHosts hosts) = found s := by
  funext result token owner member
  simp [found, resolveFailure]

@[simp] theorem fold_withHosts : Parser.fold (s.withHosts hosts) = Parser.fold s := by
  funext e
  simp [Parser.fold, Expr.folded?, Expr.fold?]

@[simp] theorem convert_withHosts : convert (s.withHosts hosts) = convert s := by
  funext e target context line
  simp [convert]

@[simp] theorem convertAll_withHosts (context : String) (line : Nat) (es : List Expr)
    (ts : List Ty) :
    convertAll (s.withHosts hosts) context line es ts = convertAll s context line es ts := by
  induction es generalizing ts with
  | nil => rfl
  | cons e es ih =>
    cases ts with
    | nil => rfl
    | cons t ts => simp [convertAll, ih]

@[simp] theorem typed_withHosts {α : Type} : typed (α := α) (s.withHosts hosts) = typed s := by
  funext result operator symbol operands
  simp only [typed, operatorFailure, Registry.map_typeName_withHosts]

@[simp] theorem buildIndex_withHosts : buildIndex (s.withHosts hosts) = buildIndex s := by
  funext container i bracket
  simp [buildIndex]

@[simp] theorem buildStep_withHosts : buildStep (s.withHosts hosts) = buildStep s := by
  funext op before target operator span
  simp [buildStep]

@[simp] theorem buildUnary_withHosts : buildUnary (s.withHosts hosts) = buildUnary s := by
  funext op operand operator span
  simp [buildUnary]

@[simp] theorem buildCast_withHosts : buildCast (s.withHosts hosts) = buildCast s := by
  funext operand target operator span
  simp [buildCast]

@[simp] theorem buildBinary_withHosts : buildBinary (s.withHosts hosts) = buildBinary s := by
  funext op left right operator span
  simp [buildBinary]

@[simp] theorem buildTernary_withHosts : buildTernary (s.withHosts hosts) = buildTernary s := by
  funext condition yes no operator span
  simp [buildTernary]

@[simp] theorem buildUpdate_withHosts : buildUpdate (s.withHosts hosts) = buildUpdate s := by
  funext op target value operator span
  cases op <;> simp [buildUpdate, buildAssign, buildCompound]

/-! ### From tokens to items -/

@[simp] theorem requiredExpression_withHosts :
    requiredExpression (s.withHosts hosts) sub = requiredExpression s sub := rfl

@[simp] theorem valueExpression_withHosts :
    valueExpression (s.withHosts hosts) sub = valueExpression s sub := rfl

@[simp] theorem restOfArguments_withHosts (opened : Token) (n : Nat) :
    restOfArguments (s.withHosts hosts) sub opened n = restOfArguments s sub opened n := by
  induction n with
  | zero => rfl
  | succ n ih => simp [restOfArguments, ih]

@[simp] theorem arguments_withHosts : arguments (s.withHosts hosts) sub = arguments s sub := by
  simp [arguments]

@[simp] theorem restOfInitializer_withHosts (opened : Token) (n : Nat) :
    restOfInitializer (s.withHosts hosts) sub opened n = restOfInitializer s sub opened n := by
  induction n with
  | zero => rfl
  | succ n ih => simp [restOfInitializer, ih]

@[simp] theorem initializer_withHosts :
    initializer (s.withHosts hosts) sub = initializer s sub := by
  simp [initializer]

@[simp] theorem globalCall_withHosts : globalCall (s.withHosts hosts) sub = globalCall s sub := by
  funext name typeArgs token
  simp [globalCall]

@[simp] theorem methodCall_withHosts : methodCall (s.withHosts hosts) sub = methodCall s sub := by
  funext owner name typeArgs token
  simp [methodCall]

@[simp] theorem property_withHosts : property (s.withHosts hosts) = property s := by
  funext owner name token
  simp [property, resolveFailure]

@[simp] theorem attachIndexes_withHosts : attachIndexes (s.withHosts hosts) = attachIndexes s := by
  funext items
  simp [attachIndexes]

@[simp] theorem member_withHosts : member (s.withHosts hosts) sub = member s sub := by
  funext owner
  simp [member]

@[simp] theorem collectMember_withHosts :
    collectMember (s.withHosts hosts) sub = collectMember s sub := by
  funext items
  simp [collectMember]

@[simp] theorem arrayItems_withHosts : arrayItems (s.withHosts hosts) sub = arrayItems s sub := by
  funext count stop
  simp [arrayItems]

@[simp] theorem newArray_withHosts : newArray (s.withHosts hosts) sub = newArray s sub := by
  funext start elem count stop
  simp [newArray]

@[simp] theorem constructorArguments_withHosts :
    constructorArguments (s.withHosts hosts) sub = constructorArguments s sub := by
  funext typeToken
  simp [constructorArguments]

@[simp] theorem constructorFor_withHosts :
    constructorFor (s.withHosts hosts) = constructorFor s := by
  funext typeToken type types
  simp [constructorFor]

@[simp] theorem insertedItems_withHosts :
    insertedItems (s.withHosts hosts) sub = insertedItems s sub := by
  funext start type stop
  simp [insertedItems]

@[simp] theorem newObject_withHosts : newObject (s.withHosts hosts) sub = newObject s sub := by
  funext start typeToken type
  simp [newObject]

@[simp] theorem arrayCount_withHosts : arrayCount (s.withHosts hosts) sub = arrayCount s sub := by
  simp [arrayCount]

@[simp] theorem construct_withHosts : construct (s.withHosts hosts) sub = construct s sub := by
  simp [construct]

@[simp] theorem collectName_withHosts :
    collectName (s.withHosts hosts) sub = collectName s sub := by
  funext name typeArgs token
  simp [collectName]

@[simp] theorem collectGroup_withHosts :
    collectGroup (s.withHosts hosts) sub = collectGroup s sub := by
  funext items
  simp [collectGroup]

@[simp] theorem collectIndex_withHosts :
    collectIndex (s.withHosts hosts) sub = collectIndex s sub := rfl

@[simp] theorem collectTernary_withHosts :
    collectTernary (s.withHosts hosts) sub = collectTernary s sub := rfl

@[simp] theorem collectNext_withHosts :
    collectNext (s.withHosts hosts) sub = collectNext s sub := by
  funext items
  simp [collectNext, collectLiteral]

@[simp] theorem collectFrom_withHosts (n : Nat) (items : List Item) :
    collectFrom (s.withHosts hosts) sub n items = collectFrom s sub n items := by
  induction n generalizing items with
  | zero => rfl
  | succ n ih => simp [collectFrom, ih]

@[simp] theorem collect_withHosts : collect (s.withHosts hosts) sub = collect s sub := by
  simp [collect]

/-! ### Passes -/

@[simp] theorem notAValue_withHosts {α : Type} :
    notAValue (α := α) (s.withHosts hosts) = notAValue s := by
  funext item
  simp [notAValue]

@[simp] theorem operand_withHosts : operand (s.withHosts hosts) = operand s := by
  funext item operator side
  simp [operand]

@[simp] theorem placeOperand_withHosts : placeOperand (s.withHosts hosts) = placeOperand s := by
  funext item operator side
  simp [placeOperand]

@[simp] theorem applyIndexes_withHosts (done items : List Item) :
    applyIndexes (s.withHosts hosts) done items = applyIndexes s done items := by
  induction items generalizing done with
  | nil => rfl
  | cons item rest ih => simp [applyIndexes, ih]

@[simp] theorem applyStepsAfter_withHosts (done items : List Item) :
    applyStepsAfter (s.withHosts hosts) done items = applyStepsAfter s done items := by
  induction items generalizing done with
  | nil => rfl
  | cons item rest ih => simp [applyStepsAfter, ih]

@[simp] theorem applyStepBefore_withHosts :
    applyStepBefore (s.withHosts hosts) = applyStepBefore s := by
  funext op before operator rest
  simp [applyStepBefore]

@[simp] theorem applyStepsBefore_withHosts (before : Option Item) (items : List Item) :
    applyStepsBefore (s.withHosts hosts) before items = applyStepsBefore s before items := by
  induction items generalizing before with
  | nil => rfl
  | cons item rest ih => simp [applyStepsBefore, ih]

@[simp] theorem applyUnary_withHosts : applyUnary (s.withHosts hosts) = applyUnary s := by
  funext op operator rest
  simp [applyUnary]

@[simp] theorem applyPrefixes_withHosts (before : Option Item) (items : List Item) :
    applyPrefixes (s.withHosts hosts) before items = applyPrefixes s before items := by
  induction items generalizing before with
  | nil => rfl
  | cons item rest ih => simp [applyPrefixes, ih]

@[simp] theorem applyCastsFrom_withHosts (before : Option Item) (items : List Item) :
    applyCastsFrom (s.withHosts hosts) before items = applyCastsFrom s before items := by
  induction items generalizing before with
  | nil => rfl
  | cons item rest ih => simp [applyCastsFrom, applyWaiting, ih]

@[simp] theorem applyNot_withHosts (items : List Item) :
    applyNot (s.withHosts hosts) items = applyNot s items := by
  induction items with
  | nil => rfl
  | cons item rest ih => simp [applyNot, ih]

@[simp] theorem applyBinary_withHosts : applyBinary (s.withHosts hosts) = applyBinary s := by
  funext op left operator right
  simp [applyBinary]

@[simp] theorem applyLeftward_withHosts (ops : List BinaryOp) (done items : List Item) :
    applyLeftward (s.withHosts hosts) ops done items = applyLeftward s ops done items := by
  induction done, items using applyLeftward.induct ops with
  | case1 done => rfl
  | case2 done item op right rest hop ih =>
    unfold applyLeftward
    rw [hop]
    simp only [applyBinary_withHosts, ih]
  | case3 done item op hop =>
    unfold applyLeftward
    rw [hop]
    simp only [applyBinary_withHosts]
  | case4 done item rest hop ih =>
    unfold applyLeftward
    rw [hop]
    exact ih

@[simp] theorem applyRightward_withHosts (ops : List BinaryOp) (done items : List Item) :
    applyRightward (s.withHosts hosts) ops done items = applyRightward s ops done items := by
  induction done, items using applyRightward.induct ops with
  | case1 done => rfl
  | case2 done item op left rest hop ih =>
    unfold applyRightward
    rw [hop]
    simp only [applyBinary_withHosts, ih]
  | case3 done item op hop =>
    unfold applyRightward
    rw [hop]
    simp only [applyBinary_withHosts]
  | case4 done item rest hop ih =>
    unfold applyRightward
    rw [hop]
    exact ih

@[simp] theorem applyTernary_withHosts : applyTernary (s.withHosts hosts) = applyTernary s := by
  funext condition operator done
  simp [applyTernary]

@[simp] theorem applyTernaries_withHosts (done items : List Item) :
    applyTernaries (s.withHosts hosts) done items = applyTernaries s done items := by
  induction done, items using applyTernaries.induct with
  | case1 done => rfl
  | case2 done item h condition rest ih =>
    unfold applyTernaries
    rw [if_pos h, if_pos h]
    simp only [applyTernary_withHosts, ih]
  | case3 done item h =>
    unfold applyTernaries
    rw [if_pos h, if_pos h]
    simp only [applyTernary_withHosts]
  | case4 done item rest h ih =>
    unfold applyTernaries
    rw [if_neg h, if_neg h]
    exact ih

@[simp] theorem applyAssign_withHosts : applyAssign (s.withHosts hosts) = applyAssign s := by
  funext op target operator value
  simp [applyAssign]

@[simp] theorem applyAssignments_withHosts (done items : List Item) :
    applyAssignments (s.withHosts hosts) done items = applyAssignments s done items := by
  induction done, items using applyAssignments.induct with
  | case1 done => rfl
  | case2 done item op target rest hop ih =>
    unfold applyAssignments
    rw [hop]
    simp only [applyAssign_withHosts, ih]
  | case3 done item op hop =>
    unfold applyAssignments
    rw [hop]
    simp only [applyAssign_withHosts]
  | case4 done item rest h1 h2 ih =>
    obtain ⟨kind, span, line⟩ := item
    cases kind with
    | operator op =>
      cases op with
      | assign op =>
        cases rest with
        | nil => exact (h2 op rfl rfl).elim
        | cons target rest => exact (h1 op target rest rfl rfl).elim
      | _ => exact ih
    | _ => exact ih

@[simp] theorem remaining_withHosts : remaining (s.withHosts hosts) = remaining s := by
  funext items
  simp [remaining]

@[simp] theorem applyPasses_withHosts : applyPasses (s.withHosts hosts) = applyPasses s := by
  funext items
  simp [applyPasses, applyCasts]

@[simp] theorem applyOperators_withHosts :
    applyOperators (s.withHosts hosts) = applyOperators s := by
  funext items
  simp [applyOperators]

/-! ### Expressions -/

@[simp] theorem expression_withHosts (levels : Nat) :
    expression (s.withHosts hosts) levels = expression s levels := by
  induction levels with
  | zero => rfl
  | succ levels ih => simp [expression, ih]

/-- **Parsing does not depend on the hosts.** -/
theorem next_withHosts : next (s.withHosts hosts) = next s := expression_withHosts _

end Parser

theorem Setting.parse_withHosts (s : Setting) (hosts : CallableId → HostFunction → HostFunction)
    (c : Catalog) : (s.withHosts hosts).parse c = s.parse c := by
  unfold Setting.parse Parser.whole
  rw [Parser.next_withHosts]
  rfl

end TypedExpr
