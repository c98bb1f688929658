import TypedExpr.Builtin.Standard
/-!
# Sample types: shapes

`Shape` is a base with a method that its derived types `Circle` and `Square` inherit.
-/

namespace TypedExpr.Sample

/-- What a circle is recognised by. -/
def circleKind : String := "Circle"

/-- What a square is recognised by. -/
def squareKind : String := "Square"

/-- The one number in contents of a kind. -/
def measure? (kind : String) : Payload → Option Float
  | .record k #[.double x] => if k = kind then some x else none
  | _ => none

/-- The number in the object that a callable expects as its receiver. -/
def readMeasure (function kind : String) (call : HostCall) : HostM Float := do
  let place ← call.object function 0
  match (← HostM.payload? place).bind (measure? kind) with
  | some x => return x
  | none => throw (.host function "unexpected payload")

/-- The area of a shape. -/
def area? (p : Payload) : Option Float :=
  match measure? circleKind p with
  | some r => some (Builtin.pi * r * r)
  | none => (measure? squareKind p).map fun s => s * s

/-- A constructor with one number. -/
def construct (function kind : String) : HostFunction := .quiet fun call => do
  let x ← call.double function 0
  HostM.newObject call.result (.record kind #[.double x])

/-- Declare the shapes. -/
def addShapes : Build Unit := do
  let shape ← Build.declareGeneric "Shape" 0
  Build.noteType (.named shape [])
  let circle ← Build.declareGeneric "Circle" 0
  Build.noteType (.named circle [])
  let square ← Build.declareGeneric "Square" 0
  Build.noteType (.named square [])
  let double : TypeSig := .fixed .double
  Build.method shape "Area" [] double (.quiet fun call => do
    let place ← call.object "Shape.Area" 0
    match (← HostM.payload? place).bind area? with
    | some x => return .double x
    | none => throw (.host "Shape.Area" "unknown shape"))
  Build.base circle (.named shape [])
  Build.constructor circle [double] (construct "Circle.ctor" circleKind)
  Build.settableProperty circle "Radius" double
    (.quiet fun call => return .double (← readMeasure "Circle.Radius" circleKind call))
    (.quiet fun call => do
      let radius ← call.double "Circle.Radius" 1
      let _ ← readMeasure "Circle.Radius" circleKind call
      let place ← call.object "Circle.Radius" 0
      HostM.setPayload place (.record circleKind #[.double radius])
      return .void)
  Build.base square (.named shape [])
  Build.constructor square [double] (construct "Square.ctor" squareKind)
  Build.property square "Side" double
    (.quiet fun call => return .double (← readMeasure "Square.Side" squareKind call))

end TypedExpr.Sample
