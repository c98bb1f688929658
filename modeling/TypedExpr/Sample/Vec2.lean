import TypedExpr.Builtin.Standard
/-!
# A sample type: vectors in the plane

`Vec2` shows what a type of an application can have: a constructor, properties that are read and
stored to, methods, a static property, a text, and operators.
-/

namespace TypedExpr.Sample

/-- What a vector is recognised by. -/
def vec2Kind : String := "Vec2"

/-- The contents of a vector. -/
def vec2Payload (x y : Float) : Payload := .record vec2Kind #[.double x, .double y]

/-- The coordinates of a vector. -/
def vec2? : Payload → Option (Float × Float)
  | .record kind #[.double x, .double y] => if kind = vec2Kind then some (x, y) else none
  | _ => none

/-- The vector that a callable expects as an argument. -/
def readVec2 (function : String) (call : HostCall) (i : Nat) : HostM (Float × Float) := do
  let place ← call.object function i
  match (← HostM.payload? place).bind vec2? with
  | some v => return v
  | none => throw (.host function "unexpected payload")

/-- Change a coordinate of a vector. -/
def setVec2 (change : Float × Float → Float → Float × Float) : HostFunction :=
  .quiet fun call => do
    let value ← call.double "Vec2.set" 1
    let place ← call.object "Vec2.set" 0
    match (← HostM.payload? place).bind vec2? with
    | some v =>
      let (x, y) := change v value
      HostM.setPayload place (vec2Payload x y)
      return .void
    | none => throw (.host "Vec2.set" "unexpected payload")

/-- An operator on two vectors. -/
def vec2Operator (symbol : String) (f : Float → Float → Float) : HostFunction :=
  .quiet fun call => do
    let (ax, ay) ← readVec2 symbol call 0
    let (bx, by') ← readVec2 symbol call 1
    HostM.newObject call.result (vec2Payload (f ax bx) (f ay by'))

/-- Declare `Vec2`. -/
def addVec2 : Build Unit := do
  let d ← Build.declareGeneric "Vec2" 0
  let vec2 : Ty := .named d []
  Build.noteType vec2
  let self : TypeSig := .fixed vec2
  let double : TypeSig := .fixed .double
  Build.constructor d [double, double] (.quiet fun call => do
    let x ← call.double "Vec2.ctor" 0
    let y ← call.double "Vec2.ctor" 1
    HostM.newObject call.result (vec2Payload x y))
  Build.settableProperty d "X" double
    (.quiet fun call => return .double (← readVec2 "Vec2.X" call 0).1)
    (setVec2 fun v x => (x, v.2))
  Build.settableProperty d "Y" double
    (.quiet fun call => return .double (← readVec2 "Vec2.Y" call 0).2)
    (setVec2 fun v y => (v.1, y))
  Build.method d "Length" [] double (.quiet fun call => do
    let (x, y) ← readVec2 "Vec2.Length" call 0
    return .double (Double.hypot x y))
  Build.method d "ToString" [] (.fixed .string) (.quiet fun call => do
    let (x, y) ← readVec2 "Vec2.ToString" call 0
    return .str s!"({Double.display x}, {Double.display y})")
  Build.staticProperty d "Zero" self (.quiet fun call =>
    HostM.newObject call.result (vec2Payload 0 0))
  Build.binaryOperator d .add self self self (vec2Operator "+" (· + ·))
  Build.binaryOperator d .sub self self self (vec2Operator "-" (· - ·))
  Build.binaryOperator d .mul self double self (.quiet fun call => do
    let (x, y) ← readVec2 "*" call 0
    let k ← call.double "*" 1
    HostM.newObject call.result (vec2Payload (x * k) (y * k)))
  Build.binaryOperator d .mul double self self (.quiet fun call => do
    let k ← call.double "*" 0
    let (x, y) ← readVec2 "*" call 1
    HostM.newObject call.result (vec2Payload (x * k) (y * k)))
  Build.binaryOperator d .eq self self (.fixed .bool) (.quiet fun call => do
    let a ← readVec2 "==" call 0
    let b ← readVec2 "==" call 1
    return .bool (a.1 == b.1 && a.2 == b.2))
  Build.unaryOperator d .neg self self (.quiet fun call => do
    let (x, y) ← readVec2 "-" call 0
    HostM.newObject call.result (vec2Payload (-x) (-y)))

end TypedExpr.Sample
