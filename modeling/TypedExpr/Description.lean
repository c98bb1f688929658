import TypedExpr.Described
import TypedExpr.Sample.Shapes
import TypedExpr.Sample.Vec2
/-!
# A registry by description

A registry given by data: which types there are, with their members, and which functions and casts.
Types in signatures are texts; `T0` and `T1` are type arguments.

* `RegistryDescription.build`: the construction. All types are declared before any signature is
  read, and the signatures of a type are read before its members are added.
* `Preset.build`: the registries to begin with.
-/

namespace TypedExpr

/-- A member. A type that is not given is `object`, or `void` for a result. -/
inductive MemberDescription where
  | constructor (params : List String) (body : Body)
  | method (name : String) (typeParams : Nat) (isStatic : Bool) (params : List String)
      (ret : Option String) (body : Body)
  | property (name : String) (isStatic : Bool) (type : Option String) (get : Body)
      (set : Option Body)
  | indexer (index elem : Option String) (get : Body) (set : Option Body)
  | binary (op : BinaryOp) (left right ret : Option String) (body : Body)
  | unary (op : UnaryOp) (operand ret : Option String) (body : Body)
  | insertion (kind : InsertKind) (name : String) (elem : Option String) (body : Body)

/-- A type to be declared, or members for a type that is known. -/
structure TypeDescription where
  name : String
  arity : Nat
  base : Option String
  members : List MemberDescription

/-- A global function. -/
structure FunctionDescription where
  name : String
  typeParams : Nat
  params : List String
  ret : Option String
  body : Body

/-- A cast. -/
structure CastDescription where
  source : String
  target : String
  body : Body

/-- What a registry is to contain. -/
structure RegistryDescription where
  types : List TypeDescription
  functions : List FunctionDescription
  casts : List CastDescription

mutual

/-- The type that a reference means in a description. A definition is taken at whatever type
arguments are given, and what is not known is `object`. -/
def Registry.describedType (reg : Registry) : TypeRef → Ty
  | .array elem => .array (describedType reg elem)
  | .named name args =>
    match Ty.ofPrimitiveName? name, reg.names.get? name with
    | some t, _ => t
    | none, some d => .named d (describedTypes reg args)
    | none, none => .object

/-- The types that several references mean in a description. -/
def Registry.describedTypes (reg : Registry) : List TypeRef → List Ty
  | [] => []
  | ref :: refs => describedType reg ref :: describedTypes reg refs

end

/-- A type written in a signature. -/
def Build.typeOfText (text : String) : Build Ty := do
  let t := (← get).registry.describedType (.ofText text)
  noteType t
  return t

/-- A signature type as written. -/
def Build.signatureOfText (text : String) : Build TypeSig :=
  match text with
  | "T0" => return .param 0
  | "T1" => return .param 1
  | "T0[]" => return .arrayOfParam 0
  | "T1[]" => return .arrayOfParam 1
  | text => return .fixed (← typeOfText text)

/-- A signature type that may be left out. -/
def Build.signatureOr (absent : Ty) (text : Option String) : Build TypeSig :=
  match text with
  | some text => signatureOfText text
  | none => return .fixed absent

/-- Read the signature of a member of a definition. The result is the step that adds the member. -/
def MemberDescription.read (d : DefId) (owner : String) :
    MemberDescription → Build (Build Unit)
  | .constructor params body => do
    let params ← params.mapM Build.signatureOfText
    return Build.constructor d params (body.function s!"{owner}.ctor")
  | .method name typeParams isStatic params ret body => do
    let params ← params.mapM Build.signatureOfText
    let ret ← Build.signatureOr .void ret
    return Build.genericMethod d name typeParams isStatic params ret
      (body.function s!"{owner}.{name}")
  | .property name isStatic type get set => do
    let type ← Build.signatureOr .object type
    let get := get.function s!"{owner}.{name}"
    match set with
    | some set =>
      return Build.settableProperty d name type get (set.function s!"{owner}.set_{name}")
    | none =>
      return if isStatic then Build.staticProperty d name type get
        else Build.property d name type get
  | .indexer index elem get set => do
    let index ← Build.signatureOr .object index
    let elem ← Build.signatureOr .object elem
    return Build.indexer d index elem (get.function s!"{owner}.get_Item")
      (set.map fun set => set.function s!"{owner}.set_Item")
  | .binary op left right ret body => do
    let left ← Build.signatureOr .object left
    let right ← Build.signatureOr .object right
    let ret ← Build.signatureOr .void ret
    return Build.binaryOperator d op left right ret (body.function s!"{owner}.{op.overloadName}")
  | .unary op operand ret body => do
    let operand ← Build.signatureOr .object operand
    let ret ← Build.signatureOr .void ret
    return Build.unaryOperator d op operand ret (body.function s!"{owner}.{op.overloadName}")
  | .insertion kind name elem body => do
    let elem ← Build.signatureOr .object elem
    return Build.insertion d kind elem name (body.function s!"{owner}.{name}")

/-- The definition of a name; `string` and arrays have one. -/
def Registry.definitionOf? (reg : Registry) (name : String) : Option DefId :=
  match name with
  | "string" => some stringDef
  | "[]" => some arrayDef
  | name => reg.names.get? name

/-- Declare a type unless it is known. -/
def TypeDescription.declare (t : TypeDescription) : Build Unit := do
  if ((← get).registry.definitionOf? t.name).isNone then
    if t.arity = 0 then
      let _ ← Build.declareType t.name
    else
      let _ ← Build.declareGeneric t.name t.arity

/-- Set the base of a type and add its members. -/
def TypeDescription.fill (t : TypeDescription) : Build Unit := do
  match (← get).registry.definitionOf? t.name with
  | none => return
  | some d =>
    let base ← t.base.mapM Build.typeOfText
    let members ← t.members.mapM (·.read d t.name)
    match base with
    | some b => Build.base d b
    | none => pure ()
    members.forM id

/-- Add a global function. -/
def FunctionDescription.add (f : FunctionDescription) : Build Unit := do
  let params ← f.params.mapM Build.signatureOfText
  let ret ← Build.signatureOr .void f.ret
  Build.function f.name f.typeParams params ret (f.body.function f.name)

/-- Add a cast. -/
def CastDescription.add (c : CastDescription) : Build Unit := do
  let source ← Build.typeOfText c.source
  let target ← Build.typeOfText c.target
  Build.cast source target (c.body.function "cast")

/-- Add what is described to a registry. -/
def RegistryDescription.build (r : RegistryDescription) : Build Unit := do
  r.types.forM (·.declare)
  r.types.forM (·.fill)
  r.functions.forM (·.add)
  r.casts.forM (·.add)

/-- The registries to begin with: with nothing, with what is built in, and with the sample types
too. -/
inductive Preset where
  | empty
  | standard
  | samples
  deriving DecidableEq, Repr

/-- Declare what a preset contains. -/
def Preset.build : Preset → Build Unit
  | .empty => return
  | .standard => Build.standard
  | .samples => do
    Build.standard
    Sample.addVec2
    Sample.addShapes

end TypedExpr
