import TypedExpr.Integer
import TypedExpr.World
/-!
# Casts

A cast is planned from the type of the operand and the type asked for, and carried out on a value.

* `Registry.explicitCast?`: the plan of a cast, if there is one. What converts by itself is never
  left to the host.
* `Registry.applyCast`: carries a plan out.
-/

namespace TypedExpr

/-- How a cast is carried out. -/
inductive CastPlan where
  | identity
  | intToDouble
  | doubleToInt
  | checked (target : Ty)
  | host (callable : CallableId)
  deriving DecidableEq, Repr, Inhabited

/-- How a plan is written in listings. -/
def CastPlan.text (c : Catalog) : CastPlan → String
  | .identity => "Identity"
  | .intToDouble => "IntToDouble"
  | .doubleToInt => "DoubleToInt"
  | .checked target => s!"Checked({c.typeLabel target})"
  | .host callable => s!"Host({CallableId.label callable})"

/-- A double as an integer, toward zero. -/
def Double.toInteger (x : Float) : Except Fault Int64 :=
  match Double.truncate? x with
  | some n => Integer.fit "conversion" n
  | none => .error (.integerOverflow "conversion")

namespace Registry

/-- The plan of a cast. -/
def explicitCast? (reg : Registry) (source target : Ty) : Option CastPlan :=
  match reg.implicitCost? source target with
  | some 1 => some .intToDouble
  | some _ => some .identity
  | none =>
    if source = .double ∧ target = .int then some .doubleToInt
    else
      match reg.cast? source target with
      | some callable => some (.host callable)
      | none =>
        if target ≠ .void ∧ (source = .object ∨ reg.isSubtype target source) then
          some (.checked target)
        else none

/-- Carry a plan out, except for one that is the host's. -/
def castValue (reg : Registry) (plan : CastPlan) (v : Value) : Except Fault Value :=
  match plan with
  | .identity | .host _ => .ok v
  | .intToDouble => v.toDouble.map .double
  | .doubleToInt => do return .int (← Double.toInteger (← v.toDouble))
  | .checked target =>
    let v := v.promote target
    if reg.conforms v target then .ok v
    else .error (.invalidCast (reg.valueTypeName v) (reg.typeName target))

/-- Carry a plan out. -/
def applyCast (reg : Registry) (plan : CastPlan) (v : Value) (target : Ty) : Run Value :=
  match plan with
  | .host callable => reg.call callable [v] target
  | plan => Run.lift (reg.castValue plan v)

end Registry

end TypedExpr
