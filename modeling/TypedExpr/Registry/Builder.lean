import TypedExpr.Registry.Basic
/-!
# Building a registry

A registry is built by declaring types and adding members, functions and casts, one after the
other. Callables are numbered in the order in which they are added; names and types get their
numbers in the catalog as they are mentioned.

* `Build.declareType`, `Build.declareGeneric`: a new definition; a name that is declared again
  means the later one.
* `Build.method`, `Build.property`, …: a member of a definition.
* `Build.function`, `Build.cast`: a global function and a cast.
-/

namespace TypedExpr

/-- A registry under construction, and the numbers handed out so far. -/
structure Builder where
  registry : Registry
  catalog : Catalog

/-- A step of construction. -/
abbrev Build := StateM Builder

/-- The registry that only knows the primitives and arrays. -/
def Builder.primitive : Builder :=
  ⟨Registry.primitive, Catalog.initial.noteNames ["string", "[]"]⟩

namespace Build

/-- Mention a name. -/
def noteName (name : String) : Build Unit :=
  modify fun b => { b with catalog := b.catalog.noteName name }

/-- Mention a type. -/
def noteType (t : Ty) : Build Unit :=
  modify fun b => { b with catalog := b.catalog.noteType t }

/-- Change the registry. -/
def change (f : Registry → Registry) : Build Unit :=
  modify fun b => { b with registry := f b.registry }

/-- Change a definition. -/
def changeDefinition (d : DefId) (f : Definition → Definition) : Build Unit :=
  change fun reg => { reg with definitions := reg.definitions.modify d f }

/-- Declare a definition with some type parameters. -/
def declareGeneric (name : String) (arity : Nat) : Build DefId := do
  noteName name
  let d := (← get).registry.definitions.size
  change fun reg =>
    { reg with
      definitions := reg.definitions.push (.bare name arity)
      names := reg.names.insert name d }
  return d

/-- Declare a type without type parameters. -/
def declareType (name : String) : Build Ty := do
  let d ← declareGeneric name 0
  noteType (.named d [])
  return .named d []

/-- Add a callable. -/
def callable (name : String) (function : HostFunction) : Build CallableId := do
  let id := (← get).registry.callables.size
  change fun reg => { reg with callables := reg.callables.push ⟨name, function⟩ }
  return id

/-- Add the callable of a member. -/
def memberCallable (d : DefId) (member : String) (function : HostFunction) :
    Build CallableId := do
  let definition := (← get).registry.definition d
  callable s!"{definition.name}.{member}" function

/-- Set the base of a definition. -/
def base (d : DefId) (t : Ty) : Build Unit := changeDefinition d fun def' => { def' with base := t }

/-- A constructor. -/
def constructor (d : DefId) (params : List TypeSig) (function : HostFunction) : Build Unit := do
  let id ← memberCallable d "ctor" function
  changeDefinition d fun t =>
    { t with constructors := t.constructors ++ [⟨id, params, .fixed .void, 0⟩] }

/-- A method with type parameters of its own. -/
def genericMethod (d : DefId) (name : String) (typeParams : Nat) (isStatic : Bool)
    (params : List TypeSig) (ret : TypeSig) (function : HostFunction) : Build Unit := do
  let id ← memberCallable d name function
  noteName name
  let method : Method := ⟨⟨id, params, ret, typeParams⟩, isStatic⟩
  changeDefinition d fun t =>
    { t with methods := t.methods.insert name ((t.methods.get? name).getD [] ++ [method]) }

/-- A method. The receiver is the first argument. -/
def method (d : DefId) (name : String) (params : List TypeSig) (ret : TypeSig)
    (function : HostFunction) : Build Unit :=
  genericMethod d name 0 false params ret function

/-- A method of the definition itself. -/
def staticMethod (d : DefId) (name : String) (params : List TypeSig) (ret : TypeSig)
    (function : HostFunction) : Build Unit :=
  genericMethod d name 0 true params ret function

/-- A property, in place of the one of that name. -/
def addProperty (d : DefId) (name : String) (p : Property) : Build Unit := do
  noteName name
  changeDefinition d fun t => { t with properties := t.properties.insert name p }

/-- A property that is only read. -/
def property (d : DefId) (name : String) (type : TypeSig) (get : HostFunction) : Build Unit := do
  let id ← memberCallable d name get
  addProperty d name ⟨type, id, none, false⟩

/-- A property that is read and stored to. The setter gets the receiver and the value. -/
def settableProperty (d : DefId) (name : String) (type : TypeSig) (get set : HostFunction) :
    Build Unit := do
  let getId ← memberCallable d name get
  let setId ← memberCallable d s!"set_{name}" set
  addProperty d name ⟨type, getId, some setId, false⟩

/-- A property of the definition itself. -/
def staticProperty (d : DefId) (name : String) (type : TypeSig) (get : HostFunction) :
    Build Unit := do
  let id ← memberCallable d name get
  addProperty d name ⟨type, id, none, true⟩

/-- An indexer. The getter gets the container and the index, the setter also the value. -/
def indexer (d : DefId) (index elem : TypeSig) (get : HostFunction)
    (set : Option HostFunction) : Build Unit := do
  let getId ← memberCallable d "get_Item" get
  let setId ← set.mapM (memberCallable d "set_Item")
  changeDefinition d fun t => { t with indexer := some ⟨index, elem, getId, setId⟩ }

/-- An overload of a binary operator. -/
def binaryOperator (d : DefId) (op : BinaryOp) (left right ret : TypeSig)
    (function : HostFunction) : Build Unit := do
  let id ← memberCallable d op.overloadName function
  changeDefinition d fun t =>
    { t with operators := t.operators ++ [(.binary op, ⟨id, [left, right], ret, 0⟩)] }

/-- An overload of a unary operator. -/
def unaryOperator (d : DefId) (op : UnaryOp) (operand ret : TypeSig) (function : HostFunction) :
    Build Unit := do
  let id ← memberCallable d op.overloadName function
  changeDefinition d fun t =>
    { t with operators := t.operators ++ [(.unary op, ⟨id, [operand], ret, 0⟩)] }

/-- A way of insertion. The callable gets the collection and the item. -/
def insertion (d : DefId) (kind : InsertKind) (elem : TypeSig) (name : String)
    (function : HostFunction) : Build Unit := do
  let id ← memberCallable d name function
  changeDefinition d fun t => { t with insertions := t.insertions ++ [⟨kind, elem, id⟩] }

/-- A global function, possibly with type parameters. -/
def function (name : String) (typeParams : Nat) (params : List TypeSig) (ret : TypeSig)
    (function : HostFunction) : Build Unit := do
  let id ← callable name function
  noteName name
  let overload : Overload := ⟨id, params, ret, typeParams⟩
  change fun reg =>
    let overloads := (reg.functions.get? name).getD [] ++ [overload]
    { reg with functions := reg.functions.insert name overloads }

/-- A cast, in place of the one between the same types. -/
def cast (source target : Ty) (function : HostFunction) : Build Unit := do
  let catalog := (← get).catalog
  let name := s!"cast<{catalog.typeNumber source}, {catalog.typeNumber target}>"
  let id ← callable name function
  change fun reg =>
    let others := reg.casts.filter fun c => c.1 ≠ (source, target)
    { reg with casts := others ++ [((source, target), id)] }

end Build

end TypedExpr
