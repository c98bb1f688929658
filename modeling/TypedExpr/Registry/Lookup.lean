import TypedExpr.Registry.Overload
/-!
# Looking up types and members

What a name means for a type: methods and operators are collected along the whole line of the type
and then selected among; of properties and indexers the nearest counts; constructors are not
inherited. Each look-up has a companion that lists the types that come up on the way, because they
get their numbers by it.

* `Registry.resolveType`: the type a reference means.
* `Registry.resolveMethod`, `Registry.resolveProperty`, `Registry.resolveIndexer`,
  `Registry.resolveConstructor`, `Registry.resolveInsertion`, `Registry.resolveFunction`,
  `Registry.resolveBinaryOperator`, `Registry.resolveUnaryOperator`: what a use means.
-/

namespace TypedExpr

/-- A property at a type. -/
structure ResolvedProperty where
  get : CallableId
  set : Option CallableId
  type : Ty
  deriving DecidableEq, Repr, Inhabited

/-- An indexer at a type. -/
structure ResolvedIndexer where
  get : CallableId
  set : Option CallableId
  index : Ty
  elem : Ty
  deriving DecidableEq, Repr, Inhabited

/-- A way of insertion at a type. -/
structure ResolvedInsertion where
  kind : InsertKind
  callable : CallableId
  elem : Ty
  deriving DecidableEq, Repr, Inhabited

namespace Registry

/-! ### Type references -/

mutual

/-- The type a reference means. -/
def resolveType (reg : Registry) : TypeRef → Except ResolveError Ty
  | .array elem => (resolveType reg elem).map .array
  | .named name args =>
    match Ty.ofPrimitiveName? name with
    | some t => if args.isEmpty then .ok t else .error (.wrongTypeArity 0 args.length)
    | none =>
      match reg.names.get? name with
      | none => .error .unknownType
      | some d =>
        let arity := (reg.definition d).arity
        if arity = args.length then (resolveTypes reg args).map (.named d)
        else .error (.wrongTypeArity arity args.length)

/-- The types several references mean. -/
def resolveTypes (reg : Registry) : List TypeRef → Except ResolveError (List Ty)
  | [] => .ok []
  | r :: rs =>
    match resolveType reg r with
    | .ok t => (resolveTypes reg rs).map (t :: ·)
    | .error e => .error e

end

mutual

/-- The types that come up when a reference is resolved, also if that fails in the end. Those that
are part of another are not listed apart from it. -/
def mentionedByType (reg : Registry) : TypeRef → List Ty
  | .array elem =>
    match resolveType reg elem with
    | .ok t => [.array t]
    | .error _ => mentionedByType reg elem
  | .named name args =>
    match Ty.ofPrimitiveName? name with
    | some _ => []
    | none =>
      match reg.names.get? name with
      | none => []
      | some d =>
        if (reg.definition d).arity = args.length then
          match resolveTypes reg args with
          | .ok ts => [.named d ts]
          | .error _ => mentionedByTypes reg args
        else []

/-- The types that come up when several references are resolved, up to the first that fails. -/
def mentionedByTypes (reg : Registry) : List TypeRef → List Ty
  | [] => []
  | r :: rs =>
    match resolveType reg r with
    | .ok t => t :: mentionedByTypes reg rs
    | .error _ => mentionedByType reg r

end

/-! ### Methods -/

/-- The methods of a name along the line of a type, static or not. -/
def methodCandidates (reg : Registry) (t : Ty) (name : String) (isStatic : Bool) :
    List Candidate :=
  (reg.lineage t).flatMap fun (d, args) =>
    ((d.methods.get? name).getD []).filterMap fun m =>
      if m.isStatic = isStatic then some ⟨m.overload, args⟩ else none

/-- There is a method of the name, static or not. -/
def hasMethod (reg : Registry) (t : Ty) (name : String) (isStatic : Bool) : Bool :=
  !(reg.methodCandidates t name isStatic).isEmpty

/-- The method that is meant by a call. -/
def resolveMethod (reg : Registry) (t : Ty) (name : String) (typeArgs args : List Ty)
    (isStatic : Bool) : Except ResolveError ResolvedCall :=
  let candidates := reg.methodCandidates t name isStatic
  if candidates.isEmpty then .error .notFound else reg.select candidates typeArgs args

/-- The types that come up when a method is looked for. -/
def mentionedByMethod (reg : Registry) (t : Ty) (name : String) (typeArgs args : List Ty)
    (isStatic : Bool) : List Ty :=
  reg.mentionedBySelect (reg.methodCandidates t name isStatic) typeArgs args

/-! ### Properties and indexers -/

/-- The nearest property of the name, static or not. -/
def resolveProperty (reg : Registry) (t : Ty) (name : String) (isStatic : Bool) :
    Except ResolveError ResolvedProperty :=
  let found := (reg.lineage t).findSome? fun (d, args) =>
    (d.properties.get? name).bind fun p =>
      if p.isStatic = isStatic then some ⟨p.get, p.set, p.type.instantiate args⟩ else none
  match found with
  | some p => .ok p
  | none => .error .notFound

/-- The type that comes up when a property is looked for. -/
def mentionedByProperty (reg : Registry) (t : Ty) (name : String) (isStatic : Bool) : List Ty :=
  (reg.resolveProperty t name isStatic).toOption.toList.map (·.type)

/-- The nearest indexer. -/
def resolveIndexer (reg : Registry) (t : Ty) : Except ResolveError ResolvedIndexer :=
  let found := (reg.lineage t).findSome? fun (d, args) =>
    d.indexer.map fun i =>
      (⟨i.get, i.set, i.index.instantiate args, i.elem.instantiate args⟩ : ResolvedIndexer)
  match found with
  | some i => .ok i
  | none => .error .notFound

/-- The types that come up when an indexer is looked for. -/
def mentionedByIndexer (reg : Registry) (t : Ty) : List Ty :=
  (reg.resolveIndexer t).toOption.toList.flatMap fun i => [i.index, i.elem]

/-! ### Constructors and insertions -/

/-- The constructors of the definition of a type. -/
def constructorCandidates (reg : Registry) (t : Ty) : List Candidate :=
  match reg.definition? t with
  | some (d, args) => d.constructors.map fun c => ⟨c, args⟩
  | none => []

/-- The constructor that is meant; its result is the type itself. -/
def resolveConstructor (reg : Registry) (t : Ty) (args : List Ty) :
    Except ResolveError ResolvedCall :=
  let candidates := reg.constructorCandidates t
  if candidates.isEmpty then .error .notFound
  else (reg.select candidates [] args).map fun call => { call with ret := t }

/-- The types that come up when a constructor is looked for. -/
def mentionedByConstructor (reg : Registry) (t : Ty) (args : List Ty) : List Ty :=
  reg.mentionedBySelect (reg.constructorCandidates t) [] args

/-- The first of the preferred items of a list. -/
def leastBy {α : Type} (rank : α → Nat) : List α → Option α
  | [] => none
  | a :: as =>
    match leastBy rank as with
    | some b => some (if rank b < rank a then b else a)
    | none => some a

/-- The preferred way of insertion along the line of a type. -/
def resolveInsertion (reg : Registry) (t : Ty) : Except ResolveError ResolvedInsertion :=
  let found := (reg.lineage t).flatMap fun (d, args) => d.insertions.map fun i => (i, args)
  match leastBy (fun i => i.1.kind.rank) found with
  | some (i, args) => .ok ⟨i.kind, i.callable, i.elem.instantiate args⟩
  | none => .error .notFound

/-- The type that comes up when a way of insertion is looked for. -/
def mentionedByInsertion (reg : Registry) (t : Ty) : List Ty :=
  (reg.resolveInsertion t).toOption.toList.map (·.elem)

/-! ### Operators -/

/-- The overloads of an operator along the line of a type. -/
def operatorCandidates (reg : Registry) (t : Ty) (key : OperatorKey) : List Candidate :=
  (reg.lineage t).flatMap fun (d, args) =>
    d.operators.filterMap fun (k, o) => if k = key then some ⟨o, args⟩ else none

/-- The overload that is meant, if one of the candidates matches. -/
def selectOperator (reg : Registry) (candidates : List Candidate) (args : List Ty) :
    Except ResolveError (Option ResolvedCall) :=
  if candidates.isEmpty then .ok none
  else
    match reg.select candidates [] args with
    | .ok call => .ok (some call)
    | .error (.noMatch _) => .ok none
    | .error e => .error e

/-- The overload of a binary operator: along the line of the left operand, and if none matches
there, along that of the right one. -/
def resolveBinaryOperator (reg : Registry) (op : BinaryOp) (left right : Ty) :
    Except ResolveError (Option ResolvedCall) :=
  match reg.selectOperator (reg.operatorCandidates left (.binary op)) [left, right] with
  | .ok none =>
    if right = left then .ok none
    else reg.selectOperator (reg.operatorCandidates right (.binary op)) [left, right]
  | found => found

/-- The types that come up when a binary operator is looked for. -/
def mentionedByBinaryOperator (reg : Registry) (op : BinaryOp) (left right : Ty) : List Ty :=
  let candidates := reg.operatorCandidates left (.binary op)
  reg.mentionedBySelect candidates [] [left, right] ++
    match reg.selectOperator candidates [left, right] with
    | .ok none =>
      if right = left then []
      else reg.mentionedBySelect (reg.operatorCandidates right (.binary op)) [] [left, right]
    | _ => []

/-- The overload of a unary operator. -/
def resolveUnaryOperator (reg : Registry) (op : UnaryOp) (operand : Ty) :
    Except ResolveError (Option ResolvedCall) :=
  reg.selectOperator (reg.operatorCandidates operand (.unary op)) [operand]

/-- The types that come up when a unary operator is looked for. -/
def mentionedByUnaryOperator (reg : Registry) (op : UnaryOp) (operand : Ty) : List Ty :=
  reg.mentionedBySelect (reg.operatorCandidates operand (.unary op)) [] [operand]

/-! ### Functions -/

/-- The global functions of a name. -/
def functionCandidates (reg : Registry) (name : String) : List Candidate :=
  ((reg.functions.get? name).getD []).map fun o => ⟨o, []⟩

/-- The global function that is meant by a call. -/
def resolveFunction (reg : Registry) (name : String) (typeArgs args : List Ty) :
    Except ResolveError ResolvedCall :=
  if reg.hasFunction name then reg.select (reg.functionCandidates name) typeArgs args
  else .error .notFound

/-- The types that come up when a global function is looked for. -/
def mentionedByFunction (reg : Registry) (name : String) (typeArgs args : List Ty) : List Ty :=
  reg.mentionedBySelect (reg.functionCandidates name) typeArgs args

end Registry

end TypedExpr
