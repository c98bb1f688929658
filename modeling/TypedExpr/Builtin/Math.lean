import TypedExpr.Builtin.Text
import TypedExpr.Integer
/-!
# Functions on numbers

The static class `Math`, the static class `Enumerable`, and the global functions `abs`, `max` and
`min`, each with an overload for integers and one for doubles.
-/

namespace TypedExpr.Builtin

/-- The ratio of circumference and diameter. -/
def pi : Float := Float.ofBits 0x400921fb54442d18

/-- The base of the natural logarithm. -/
def eulerNumber : Float := Float.ofBits 0x4005bf0a8b145769

/-- A function of one double. -/
def doubleFunction (name : String) (f : Float → Float) : HostFunction := .quiet fun call => do
  return .double (f (← call.double name 0))

/-- A function of two doubles. -/
def doubleFunction₂ (name : String) (f : Float → Float → Float) : HostFunction :=
  .quiet fun call => do
    let x ← call.double name 0
    let y ← call.double name 1
    return .double (f x y)

/-- A function of two integers. -/
def intFunction₂ (name : String) (f : Int64 → Int64 → Int64) : HostFunction :=
  .quiet fun call => do
    let a ← call.int name 0
    let b ← call.int name 1
    return .int (f a b)

/-- An integer without its sign. -/
def absInt : HostFunction := .quiet fun call => do
  let a ← call.int "abs" 0
  HostM.lift ((Integer.abs a).map .int)

/-- A double without its sign. -/
def absDouble : HostFunction := doubleFunction "abs" Float.abs

/-- The greater of two integers. -/
def maxInt : HostFunction := intFunction₂ "max" fun a b => if a ≤ b then b else a

/-- The greater of two doubles. -/
def maxDouble : HostFunction := doubleFunction₂ "max" Double.maxNum

/-- The lesser of two integers. -/
def minInt : HostFunction := intFunction₂ "min" fun a b => if a ≤ b then a else b

/-- The lesser of two doubles. -/
def minDouble : HostFunction := doubleFunction₂ "min" Double.minNum

/-- An integer moved into an interval, which must not be empty. -/
def clampInt : HostFunction := .quiet fun call => do
  let a ← call.int "Math.Clamp" 0
  let lo ← call.int "Math.Clamp" 1
  let hi ← call.int "Math.Clamp" 2
  if hi < lo then throw (.host "Math.Clamp" "minimum exceeds maximum")
  return .int (if a < lo then lo else if hi < a then hi else a)

/-- A double moved into an interval, which must not be empty. -/
def clampDouble : HostFunction := .quiet fun call => do
  let x ← call.double "Math.Clamp" 0
  let lo ← call.double "Math.Clamp" 1
  let hi ← call.double "Math.Clamp" 2
  if hi < lo || lo.isNaN || hi.isNaN then throw (.host "Math.Clamp" "minimum exceeds maximum")
  return .double (Double.clamp x lo hi)

/-- An array that holds one value several times. -/
def repeatValue : HostFunction := .quiet fun call => do
  let v ← call.arg "Enumerable.Repeat" 0
  let count ← call.int "Enumerable.Repeat" 1
  if count < 0 then throw (.host "Enumerable.Repeat" "count is negative")
  HostM.newArray call.result (Array.replicate count.toInt.toNat v)

/-- Declare the static classes and the functions on numbers. -/
def addMath : Build Unit := do
  let int : TypeSig := .fixed .int
  let double : TypeSig := .fixed .double
  let math ← Build.declareGeneric "Math" 0
  Build.noteType (.named math [])
  Build.staticProperty math "PI" double (.quiet fun _ => return .double pi)
  Build.staticProperty math "E" double (.quiet fun _ => return .double eulerNumber)
  Build.staticMethod math "Abs" [int] int absInt
  Build.staticMethod math "Abs" [double] double absDouble
  Build.staticMethod math "Max" [int, int] int maxInt
  Build.staticMethod math "Max" [double, double] double maxDouble
  Build.staticMethod math "Min" [int, int] int minInt
  Build.staticMethod math "Min" [double, double] double minDouble
  Build.staticMethod math "Pow" [double, double] double (doubleFunction₂ "Math.Pow" Float.pow)
  Build.staticMethod math "Sqrt" [double] double (doubleFunction "Math.Sqrt" Float.sqrt)
  Build.staticMethod math "Floor" [double] double (doubleFunction "Math.Floor" Double.floor)
  Build.staticMethod math "Ceiling" [double] double (doubleFunction "Math.Ceiling" Double.ceil)
  Build.staticMethod math "Round" [double] double (doubleFunction "Math.Round" Double.roundEven)
  Build.staticMethod math "Clamp" [int, int, int] int clampInt
  Build.staticMethod math "Clamp" [double, double, double] double clampDouble
  let enumerable ← Build.declareGeneric "Enumerable" 0
  Build.noteType (.named enumerable [])
  Build.genericMethod enumerable "Repeat" 1 true [.param 0, int] (.arrayOfParam 0) repeatValue
  Build.function "abs" 0 [int] int absInt
  Build.function "abs" 0 [double] double absDouble
  Build.function "max" 0 [int, int] int maxInt
  Build.function "max" 0 [double, double] double maxDouble
  Build.function "min" 0 [int, int] int minInt
  Build.function "min" 0 [double, double] double minDouble

end TypedExpr.Builtin
