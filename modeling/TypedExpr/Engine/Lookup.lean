import TypedExpr.Engine
/-!
# Look-ups on an engine

What a type reference, a name or an operator means to the registry of an engine. The types that
come up get their numbers.
-/

namespace TypedExpr.Engine

/-- A look-up in the registry, with the types that come up. -/
def lookUp {ε α : Type} (mentioned : Registry → List Ty) (result : Registry → Except ε α) :
    EngineM ε α :=
  ExceptT.mk fun engine =>
    let catalog := engine.world.catalog.noteTypes (mentioned engine.registry)
    (result engine.registry, { engine with world := { engine.world with catalog := catalog } })

/-- The type reference that a text is, if it is one. The names in it are mentioned in any case. -/
def typeRef? (text : String) : EngineM LexError (Option TypeRef) :=
  return (← scan text).typeRef?

/-- The type a reference means. -/
def resolveType (ref : TypeRef) : EngineM ResolveError Ty :=
  lookUp (·.mentionedByType ref) (·.resolveType ref)

/-- The global function that is meant by a call. -/
def resolveFunction (name : String) (typeArgs args : List Ty) :
    EngineM ResolveError ResolvedCall :=
  lookUp (·.mentionedByFunction name typeArgs args) (·.resolveFunction name typeArgs args)

/-- The method that is meant by a call. -/
def resolveMethod (t : Ty) (name : String) (typeArgs args : List Ty) (isStatic : Bool) :
    EngineM ResolveError ResolvedCall :=
  lookUp (·.mentionedByMethod t name typeArgs args isStatic)
    (·.resolveMethod t name typeArgs args isStatic)

/-- The constructor that is meant. -/
def resolveConstructor (t : Ty) (args : List Ty) : EngineM ResolveError ResolvedCall :=
  lookUp (·.mentionedByConstructor t args) (·.resolveConstructor t args)

/-- The nearest property of a name. -/
def resolveProperty (t : Ty) (name : String) (isStatic : Bool) :
    EngineM ResolveError ResolvedProperty :=
  lookUp (·.mentionedByProperty t name isStatic) (·.resolveProperty t name isStatic)

/-- The nearest indexer. -/
def resolveIndexer (t : Ty) : EngineM ResolveError ResolvedIndexer :=
  lookUp (·.mentionedByIndexer t) (·.resolveIndexer t)

/-- The preferred way of insertion. -/
def resolveInsertion (t : Ty) : EngineM ResolveError ResolvedInsertion :=
  lookUp (·.mentionedByInsertion t) (·.resolveInsertion t)

/-- The overload of a binary operator. -/
def resolveBinaryOperator (op : BinaryOp) (left right : Ty) :
    EngineM ResolveError (Option ResolvedCall) :=
  lookUp (·.mentionedByBinaryOperator op left right) (·.resolveBinaryOperator op left right)

/-- The overload of a unary operator. -/
def resolveUnaryOperator (op : UnaryOp) (operand : Ty) :
    EngineM ResolveError (Option ResolvedCall) :=
  lookUp (·.mentionedByUnaryOperator op operand) (·.resolveUnaryOperator op operand)

/-- The typing of a binary operator. -/
def typeBinary (op : BinaryOp) (left right : Ty) : EngineM OperatorError BinaryTyping :=
  lookUp (·.mentionedByBinary op left right) (·.typeBinary op left right)

/-- The typing of an assignment with an operation. -/
def typeCompound (op : BinaryOp) (target value : Ty) : EngineM OperatorError BinaryTyping :=
  lookUp (·.mentionedByCompound op target value) (·.typeCompound op target value)

/-- The typing of a unary operator. -/
def typeUnary (op : UnaryOp) (operand : Ty) : EngineM OperatorError UnaryTyping :=
  lookUp (·.mentionedByUnary op operand) (·.typeUnary op operand)

end TypedExpr.Engine
