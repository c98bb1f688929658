import TypedExpr.Host
import TypedExpr.NameMap
import TypedExpr.Operator
import TypedExpr.TypeRef
/-!
# The registry

All that is known about types: their definitions with members and bases, the global functions, the
casts, and the callables behind them.

* `TypeSig`: a type in a signature, which may speak of the type arguments at hand.
* `Definition`: what one definition declares.
* `Registry.definition?`: the definition behind a type with its type arguments; `string` and arrays
  have one of their own.
* `Registry.typeName`: how a type is written.
-/

namespace TypedExpr

/-- A type in a signature: a type, a type argument by its place, or an array of one. -/
inductive TypeSig where
  | fixed (type : Ty)
  | param (i : Nat)
  | arrayOfParam (i : Nat)
  deriving DecidableEq, Repr, Inhabited

/-- The type meant at some type arguments; an absent argument is `object`. -/
def TypeSig.instantiate (sig : TypeSig) (args : List Ty) : Ty :=
  match sig with
  | .fixed type => type
  | .param i => args.getD i .object
  | .arrayOfParam i => .array (args.getD i .object)

/-- One way to call something. Its own type parameters come after those of the definition. -/
structure Overload where
  callable : CallableId
  params : List TypeSig
  ret : TypeSig
  typeParams : Nat
  deriving DecidableEq, Repr, Inhabited

/-- A method. -/
structure Method where
  overload : Overload
  isStatic : Bool
  deriving DecidableEq, Repr, Inhabited

/-- A property; it can be stored to if it has a setter. -/
structure Property where
  type : TypeSig
  get : CallableId
  set : Option CallableId
  isStatic : Bool
  deriving DecidableEq, Repr, Inhabited

/-- How objects of a type are indexed. -/
structure Indexer where
  index : TypeSig
  elem : TypeSig
  get : CallableId
  set : Option CallableId
  deriving DecidableEq, Repr, Inhabited

/-- How a collection takes the items of an initializer, the preferred ways first. -/
inductive InsertKind where
  | listAppend
  | stackPush
  | queueEnqueue
  | genericAdd
  deriving DecidableEq, Repr, Inhabited

/-- The rank of a way of insertion; the least is preferred. -/
def InsertKind.rank : InsertKind → Nat
  | .listAppend => 0
  | .stackPush => 1
  | .queueEnqueue => 2
  | .genericAdd => 3

/-- How a way of insertion is written in listings. -/
def InsertKind.text : InsertKind → String
  | .listAppend => "ListAppend"
  | .stackPush => "StackPush"
  | .queueEnqueue => "QueueEnqueue"
  | .genericAdd => "GenericAdd"

/-- The way of insertion of a name. -/
def InsertKind.ofText? (text : String) : Option InsertKind :=
  [InsertKind.listAppend, .stackPush, .queueEnqueue, .genericAdd].find? (·.text == text)

/-- A way to insert items. -/
structure Insertion where
  kind : InsertKind
  elem : TypeSig
  callable : CallableId
  deriving DecidableEq, Repr, Inhabited

/-- What an operator overload is found by. -/
inductive OperatorKey where
  | binary (op : BinaryOp)
  | unary (op : UnaryOp)
  deriving DecidableEq, Repr, Inhabited

/-- A definition: a type of the application, a static class, a generic collection, or the members
of `string` or of arrays. -/
structure Definition where
  name : String
  arity : Nat
  base : Option Ty
  constructors : List Overload
  methods : NameMap (List Method)
  properties : NameMap Property
  indexer : Option Indexer
  operators : List (OperatorKey × Overload)
  insertions : List Insertion
  deriving Inhabited

/-- A definition without members. -/
def Definition.bare (name : String) (arity : Nat) : Definition where
  name := name
  arity := arity
  base := none
  constructors := []
  methods := .empty
  properties := .empty
  indexer := none
  operators := []
  insertions := []

/-- All that is known about types. -/
structure Registry where
  definitions : Array Definition
  names : NameMap DefId
  callables : Array Callable
  functions : NameMap (List Overload)
  casts : List ((Ty × Ty) × CallableId)

namespace Registry

/-- The definition behind `string`. -/
def stringDef : DefId := 0

/-- The definition behind arrays; its type argument is the type of the elements. -/
def arrayDef : DefId := 1

/-- The registry that only knows the primitives and arrays. -/
def primitive : Registry where
  definitions := #[.bare "string" 0, .bare "[]" 1]
  names := .empty
  callables := #[]
  functions := .empty
  casts := []

instance : Inhabited Registry := ⟨primitive⟩

/-- The definition at a place. -/
def definition (reg : Registry) (d : DefId) : Definition := reg.definitions[d]?.getD default

/-- The place of the definition behind a type, and the type arguments. -/
def defOf? : Ty → Option (DefId × List Ty)
  | .string => some (stringDef, [])
  | .array elem => some (arrayDef, [elem])
  | .named d args => some (d, args)
  | .int | .double | .bool | .object | .void => none

/-- The definition behind a type, and the type arguments. -/
def definition? (reg : Registry) (t : Ty) : Option (Definition × List Ty) :=
  (defOf? t).map fun (d, args) => (reg.definition d, args)

/-- The name names a type: a primitive or a definition. -/
def isTypeName (reg : Registry) (name : String) : Bool :=
  (Ty.ofPrimitiveName? name).isSome || reg.names.contains name

/-- How many type arguments a generic definition takes; none if the name names no such one. -/
def genericArity? (reg : Registry) (name : String) : Option Nat := do
  let d ← reg.names.get? name
  let arity := (reg.definition d).arity
  if arity = 0 then none else some arity

mutual

/-- How a type is written: `int`, `Vec2`, `List<int>`, `double[]`. -/
def typeName (reg : Registry) : Ty → String
  | .int => "int"
  | .double => "double"
  | .bool => "bool"
  | .string => "string"
  | .object => "object"
  | .void => "void"
  | .array elem => typeName reg elem ++ "[]"
  | .named d [] => (reg.definition d).name
  | .named d (arg :: args) =>
    s!"{(reg.definition d).name}<{typeName reg arg}{restNames reg args}>"

/-- The type arguments after the first, each after a comma. -/
def restNames (reg : Registry) : List Ty → String
  | [] => ""
  | arg :: args => s!", {typeName reg arg}{restNames reg args}"

end

/-- How the type of a value is written. -/
def valueTypeName (reg : Registry) (v : Value) : String :=
  match v.type? with
  | some t => reg.typeName t
  | none => "null"

/-- The callable of a number. -/
def callable? (reg : Registry) (id : CallableId) : Option Callable := reg.callables[id]?

/-- How an overload is written: the name of its callable and the types of its parameters. -/
def signatureText (reg : Registry) (id : CallableId) (params : List Ty) : String :=
  let name := ((reg.callable? id).map (·.name)).getD ""
  let params := ", ".intercalate (params.map reg.typeName)
  s!"{name}({params})"

/-- The function that casts from one type to another, if the host supplies one. -/
def cast? (reg : Registry) (source target : Ty) : Option CallableId :=
  (reg.casts.find? fun c => c.1 = (source, target)).map (·.2)

/-- There is a global function of that name. -/
def hasFunction (reg : Registry) (name : String) : Bool := reg.functions.contains name

end Registry

end TypedExpr
