import TypedExpr.Coercion
import TypedExpr.Operator.Typing
/-!
# A registry with other hosts

The callables of a registry may be given other functions. Only calling them makes a difference:
whatever is looked up is the same, and so is how it is written, for a callable keeps its name.

* `Registry.withHosts`: other functions behind the callables.
* `Registry.select_withHosts`: the same overloads are meant, and the same are listed in errors.
* `Registry.resolveMethod_withHosts`, `Registry.typeBinary_withHosts`, …: one statement for each way
  of looking something up.
-/

namespace TypedExpr.Registry

/-- The registry with other functions behind its callables. -/
def withHosts (reg : Registry) (hosts : CallableId → HostFunction → HostFunction) : Registry :=
  { reg with
    callables := reg.callables.mapIdx fun id c => { c with function := hosts id c.function } }

variable {reg : Registry} {hosts : CallableId → HostFunction → HostFunction}

/-! ### Types -/

theorem callable?_withHosts (id : CallableId) :
    (reg.withHosts hosts).callable? id =
      (reg.callable? id).map fun c => { c with function := hosts id c.function } :=
  Array.getElem?_mapIdx

@[simp] theorem lineUpTo_withHosts (n : Nat) (t : Ty) :
    (reg.withHosts hosts).lineUpTo n t = reg.lineUpTo n t := by
  induction n generalizing t with
  | zero => rfl
  | succ n ih =>
    rw [lineUpTo, lineUpTo, show (reg.withHosts hosts).base? t = reg.base? t from rfl]
    cases reg.base? t with
    | none => rfl
    | some b => exact congrArg (t :: ·) (ih b)

@[simp] theorem isSubtype_withHosts (t u : Ty) :
    (reg.withHosts hosts).isSubtype t u = reg.isSubtype t u := by
  unfold isSubtype line
  rw [lineUpTo_withHosts]
  rfl

@[simp] theorem lineage_withHosts (t : Ty) : (reg.withHosts hosts).lineage t = reg.lineage t := by
  unfold lineage line
  rw [lineUpTo_withHosts]
  rfl

@[simp] theorem implicitCost?_withHosts (s t : Ty) :
    (reg.withHosts hosts).implicitCost? s t = reg.implicitCost? s t := by
  simp only [implicitCost?, isSubtype_withHosts]

@[simp] theorem isAssignable_withHosts (s t : Ty) :
    (reg.withHosts hosts).isAssignable s t = reg.isAssignable s t := by
  simp only [isAssignable, implicitCost?_withHosts]

@[simp] theorem conforms_withHosts (v : Value) (t : Ty) :
    (reg.withHosts hosts).conforms v t = reg.conforms v t := by
  simp only [conforms, isSubtype_withHosts]

@[simp] theorem explicitCast?_withHosts (s t : Ty) :
    (reg.withHosts hosts).explicitCast? s t = reg.explicitCast? s t := by
  unfold explicitCast?
  rw [implicitCost?_withHosts, isSubtype_withHosts]
  rfl

mutual

@[simp] theorem typeName_withHosts : ∀ t, (reg.withHosts hosts).typeName t = reg.typeName t
  | .int | .double | .bool | .string | .object | .void | .named _ [] => rfl
  | .array elem => by rw [typeName, typeName, typeName_withHosts elem]
  | .named d (arg :: args) => by
    rw [typeName, typeName, typeName_withHosts arg, restNames_withHosts args]
    rfl

theorem restNames_withHosts : ∀ ts, (reg.withHosts hosts).restNames ts = reg.restNames ts
  | [] => rfl
  | arg :: args => by
    rw [restNames, restNames, typeName_withHosts arg, restNames_withHosts args]

end

@[simp] theorem map_typeName_withHosts (ts : List Ty) :
    ts.map (reg.withHosts hosts).typeName = ts.map reg.typeName :=
  List.map_congr_left fun t _ => typeName_withHosts t

@[simp] theorem castValue_withHosts (plan : CastPlan) (v : Value) :
    (reg.withHosts hosts).castValue plan v = reg.castValue plan v := by
  simp only [castValue, valueTypeName, conforms_withHosts, typeName_withHosts]

mutual

@[simp] theorem resolveType_withHosts :
    ∀ r, (reg.withHosts hosts).resolveType r = reg.resolveType r
  | .array elem => by rw [resolveType, resolveType, resolveType_withHosts elem]
  | .named name args => by
    rw [resolveType, resolveType, resolveTypes_withHosts args]
    rfl

@[simp] theorem resolveTypes_withHosts :
    ∀ rs, (reg.withHosts hosts).resolveTypes rs = reg.resolveTypes rs
  | [] => rfl
  | r :: rs => by
    rw [resolveTypes, resolveTypes, resolveType_withHosts r, resolveTypes_withHosts rs]

end

mutual

@[simp] theorem mentionedByType_withHosts :
    ∀ r, (reg.withHosts hosts).mentionedByType r = reg.mentionedByType r
  | .array elem => by
    rw [mentionedByType, mentionedByType, resolveType_withHosts, mentionedByType_withHosts elem]
  | .named name args => by
    rw [mentionedByType, mentionedByType, resolveTypes_withHosts, mentionedByTypes_withHosts args]
    rfl

theorem mentionedByTypes_withHosts :
    ∀ rs, (reg.withHosts hosts).mentionedByTypes rs = reg.mentionedByTypes rs
  | [] => rfl
  | r :: rs => by
    rw [mentionedByTypes, mentionedByTypes, resolveType_withHosts, mentionedByType_withHosts r,
      mentionedByTypes_withHosts rs]

end

@[simp] theorem hasFunction_withHosts (name : String) :
    (reg.withHosts hosts).hasFunction name = reg.hasFunction name := rfl

@[simp] theorem isTypeName_withHosts (name : String) :
    (reg.withHosts hosts).isTypeName name = reg.isTypeName name := rfl

/-! ### Overloads -/

@[simp] theorem signatureText_withHosts (id : CallableId) (params : List Ty) :
    (reg.withHosts hosts).signatureText id params = reg.signatureText id params := by
  unfold signatureText
  rw [callable?_withHosts, Option.map_map, map_typeName_withHosts]
  rfl

@[simp] theorem costs?_withHosts (args params : List Ty) :
    (reg.withHosts hosts).costs? args params = reg.costs? args params := by
  induction args generalizing params with
  | nil => cases params <;> rfl
  | cons arg args ih =>
    cases params with
    | nil => rfl
    | cons param params => rw [costs?, costs?, ih, implicitCost?_withHosts]

@[simp] theorem viable?_withHosts (typeArgs args : List Ty) :
    (reg.withHosts hosts).viable? typeArgs args = reg.viable? typeArgs args := by
  funext c
  unfold viable?
  rw [costs?_withHosts]

@[simp] theorem select_withHosts (candidates : List Candidate) (typeArgs args : List Ty) :
    (reg.withHosts hosts).select candidates typeArgs args =
      reg.select candidates typeArgs args := by
  simp only [select, viable?_withHosts, signatureText_withHosts]

@[simp] theorem mentionedBySelect_withHosts (candidates : List Candidate)
    (typeArgs args : List Ty) :
    (reg.withHosts hosts).mentionedBySelect candidates typeArgs args =
      reg.mentionedBySelect candidates typeArgs args := by
  simp only [mentionedBySelect, viable?_withHosts]

/-! ### Members and functions -/

section

variable (t : Ty) (name : String) (typeArgs args : List Ty) (isStatic : Bool)

@[simp] theorem methodCandidates_withHosts :
    (reg.withHosts hosts).methodCandidates t name isStatic =
      reg.methodCandidates t name isStatic := by
  simp only [methodCandidates, lineage_withHosts]

@[simp] theorem hasMethod_withHosts :
    (reg.withHosts hosts).hasMethod t name isStatic = reg.hasMethod t name isStatic := by
  simp only [hasMethod, methodCandidates_withHosts]

@[simp] theorem resolveMethod_withHosts :
    (reg.withHosts hosts).resolveMethod t name typeArgs args isStatic =
      reg.resolveMethod t name typeArgs args isStatic := by
  simp only [resolveMethod, methodCandidates_withHosts, select_withHosts]

@[simp] theorem mentionedByMethod_withHosts :
    (reg.withHosts hosts).mentionedByMethod t name typeArgs args isStatic =
      reg.mentionedByMethod t name typeArgs args isStatic := by
  simp only [mentionedByMethod, methodCandidates_withHosts, mentionedBySelect_withHosts]

@[simp] theorem resolveProperty_withHosts :
    (reg.withHosts hosts).resolveProperty t name isStatic =
      reg.resolveProperty t name isStatic := by
  simp only [resolveProperty, lineage_withHosts]

@[simp] theorem mentionedByProperty_withHosts :
    (reg.withHosts hosts).mentionedByProperty t name isStatic =
      reg.mentionedByProperty t name isStatic := by
  simp only [mentionedByProperty, resolveProperty_withHosts]

@[simp] theorem resolveIndexer_withHosts :
    (reg.withHosts hosts).resolveIndexer t = reg.resolveIndexer t := by
  simp only [resolveIndexer, lineage_withHosts]

@[simp] theorem mentionedByIndexer_withHosts :
    (reg.withHosts hosts).mentionedByIndexer t = reg.mentionedByIndexer t := by
  simp only [mentionedByIndexer, resolveIndexer_withHosts]

@[simp] theorem constructorCandidates_withHosts :
    (reg.withHosts hosts).constructorCandidates t = reg.constructorCandidates t := rfl

@[simp] theorem resolveConstructor_withHosts :
    (reg.withHosts hosts).resolveConstructor t args = reg.resolveConstructor t args := by
  simp only [resolveConstructor, constructorCandidates_withHosts, select_withHosts]

@[simp] theorem mentionedByConstructor_withHosts :
    (reg.withHosts hosts).mentionedByConstructor t args = reg.mentionedByConstructor t args := by
  simp only [mentionedByConstructor, constructorCandidates_withHosts, mentionedBySelect_withHosts]

@[simp] theorem resolveInsertion_withHosts :
    (reg.withHosts hosts).resolveInsertion t = reg.resolveInsertion t := by
  simp only [resolveInsertion, lineage_withHosts]

@[simp] theorem mentionedByInsertion_withHosts :
    (reg.withHosts hosts).mentionedByInsertion t = reg.mentionedByInsertion t := by
  simp only [mentionedByInsertion, resolveInsertion_withHosts]

@[simp] theorem resolveFunction_withHosts :
    (reg.withHosts hosts).resolveFunction name typeArgs args =
      reg.resolveFunction name typeArgs args := by
  unfold resolveFunction
  rw [select_withHosts]
  rfl

@[simp] theorem mentionedByFunction_withHosts :
    (reg.withHosts hosts).mentionedByFunction name typeArgs args =
      reg.mentionedByFunction name typeArgs args := by
  unfold mentionedByFunction
  rw [mentionedBySelect_withHosts]
  rfl

end

/-! ### Operators -/

section

variable (op : BinaryOp) (unary : UnaryOp) (t left right : Ty)

@[simp] theorem operatorCandidates_withHosts (key : OperatorKey) :
    (reg.withHosts hosts).operatorCandidates t key = reg.operatorCandidates t key := by
  simp only [operatorCandidates, lineage_withHosts]

@[simp] theorem selectOperator_withHosts (candidates : List Candidate) (args : List Ty) :
    (reg.withHosts hosts).selectOperator candidates args = reg.selectOperator candidates args := by
  simp only [selectOperator, select_withHosts]

@[simp] theorem resolveBinaryOperator_withHosts :
    (reg.withHosts hosts).resolveBinaryOperator op left right =
      reg.resolveBinaryOperator op left right := by
  simp only [resolveBinaryOperator, operatorCandidates_withHosts, selectOperator_withHosts]

@[simp] theorem resolveUnaryOperator_withHosts :
    (reg.withHosts hosts).resolveUnaryOperator unary t = reg.resolveUnaryOperator unary t := by
  simp only [resolveUnaryOperator, operatorCandidates_withHosts, selectOperator_withHosts]

@[simp] theorem typeBinary_withHosts :
    (reg.withHosts hosts).typeBinary op left right = reg.typeBinary op left right := by
  simp only [typeBinary, userBinary, resolveBinaryOperator_withHosts, isAssignable_withHosts]

@[simp] theorem mentionedByBinary_withHosts :
    (reg.withHosts hosts).mentionedByBinary op left right =
      reg.mentionedByBinary op left right := by
  simp only [mentionedByBinary, mentionedByBinaryOperator, operatorCandidates_withHosts,
    selectOperator_withHosts, mentionedBySelect_withHosts]

@[simp] theorem typeUnary_withHosts :
    (reg.withHosts hosts).typeUnary unary t = reg.typeUnary unary t := by
  simp only [typeUnary, resolveUnaryOperator_withHosts]

@[simp] theorem mentionedByUnary_withHosts :
    (reg.withHosts hosts).mentionedByUnary unary t = reg.mentionedByUnary unary t := by
  simp only [mentionedByUnary, mentionedByUnaryOperator, operatorCandidates_withHosts,
    mentionedBySelect_withHosts]

@[simp] theorem typeCompound_withHosts :
    (reg.withHosts hosts).typeCompound op left right = reg.typeCompound op left right := by
  simp only [typeCompound, typeBinary_withHosts, isAssignable_withHosts]

@[simp] theorem mentionedByCompound_withHosts :
    (reg.withHosts hosts).mentionedByCompound op left right =
      reg.mentionedByCompound op left right := by
  simp only [mentionedByCompound, mentionedByBinary_withHosts]

end

end TypedExpr.Registry
