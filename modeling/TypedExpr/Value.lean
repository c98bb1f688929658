import TypedExpr.Double.Arith
import TypedExpr.Double.Text
import TypedExpr.Fault
import TypedExpr.Text.Quoted
import TypedExpr.Ty
/-!
# Values

What an expression evaluates to. Arrays and objects are handles: their type, and the place in the
heap where their contents are kept. Two handles are equal if they have the same place.

* `Value.same`: equality within one kind of value, `0.0` and `-0.0` being equal and what is no
  number being equal to nothing.
* `Value.looseSame`: the equality of the language, which also compares integers with doubles.
* `Value.promote`: the only conversion that happens by itself, from an integer to a double.
-/

namespace TypedExpr

/-- A value. -/
inductive Value where
  | int (n : Int64)
  | double (x : Float)
  | bool (b : Bool)
  | str (s : String)
  | array (type : Ty) (place : Nat)
  | object (type : Ty) (place : Nat)
  | null
  | void
  deriving DecidableEq, Inhabited

namespace Value

/-- What a variable or an element of a type holds before anything is stored: zero, `false` or
null. -/
def default : Ty → Value
  | .int => .int 0
  | .double => .double 0
  | .bool => .bool false
  | _ => .null

/-- The type of a value; null has none. -/
def type? : Value → Option Ty
  | .int _ => some .int
  | .double _ => some .double
  | .bool _ => some .bool
  | .str _ => some .string
  | .array type _ => some type
  | .object type _ => some type
  | .null => none
  | .void => some .void

/-- What kind of value it is, for messages. -/
def kindName : Value → String
  | .int _ => "int"
  | .double _ => "double"
  | .bool _ => "bool"
  | .str _ => "string"
  | .array _ _ => "array"
  | .object _ _ => "object"
  | .null => "null"
  | .void => "void"

/-- An integer as a double where a double is asked for. -/
def promote (type : Ty) : Value → Value
  | .int n => if type = .double then .double (Double.ofInt n.toInt) else .int n
  | v => v

/-- The value as an integer. -/
def toInt : Value → Except Fault Int64
  | .int n => .ok n
  | v => .error (.typeMismatch "int" v.kindName)

/-- The value as a double; an integer is promoted. -/
def toDouble : Value → Except Fault Float
  | .double x => .ok x
  | .int n => .ok (Double.ofInt n.toInt)
  | v => .error (.typeMismatch "double" v.kindName)

/-- The value as a truth value. -/
def toBool : Value → Except Fault Bool
  | .bool b => .ok b
  | v => .error (.typeMismatch "bool" v.kindName)

/-- The value as a text. -/
def toStr : Value → Except Fault String
  | .str s => .ok s
  | .null => .error (.nullReference "string access")
  | v => .error (.typeMismatch "string" v.kindName)

/-- The value as an array: its place. -/
def toArray : Value → Except Fault Nat
  | .array _ place => .ok place
  | .null => .error (.nullReference "array access")
  | v => .error (.typeMismatch "array" v.kindName)

/-- The value as an object: its place. -/
def toObject : Value → Except Fault Nat
  | .object _ place => .ok place
  | .null => .error (.nullReference "member access")
  | v => .error (.typeMismatch "object" v.kindName)

/-- Equality within one kind of value. -/
def same : Value → Value → Bool
  | .int a, .int b => a == b
  | .double a, .double b => a == b
  | .bool a, .bool b => a == b
  | .str a, .str b => a == b
  | .array _ a, .array _ b => a == b
  | .object _ a, .object _ b => a == b
  | .null, .null | .void, .void => true
  | _, _ => false

/-- Equality in the language. -/
def looseSame : Value → Value → Bool
  | .int a, .double b | .double b, .int a => Double.ofInt a.toInt == b
  | v, w => v.same w

/-- The text of a value that needs neither the heap nor a registry. -/
def text : Value → String
  | .int n => toString n
  | .double x => Double.display x
  | .bool true => "True"
  | .bool false => "False"
  | .str s => s
  | .array _ _ => "array"
  | .object _ _ => "object"
  | .null | .void => ""

/-- How a value that has no handle is shown in listings. -/
def listing? : Value → Option String
  | .int n => some s!"Int({n})"
  | .double x => some s!"Double({Double.listing x})"
  | .bool b => some s!"Bool({b})"
  | .str s => some s!"Str({Text.quote s})"
  | .null => some "Null"
  | .void => some "Void"
  | .array _ _ | .object _ _ => none

@[simp] theorem type?_promote_double (n : Int64) :
    (promote .double (.int n)).type? = some .double := rfl

theorem promote_of_ne {type : Ty} (h : type ≠ .double) (v : Value) : v.promote type = v := by
  cases v <;> simp [promote, h]

end Value

end TypedExpr
