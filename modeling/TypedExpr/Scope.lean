import TypedExpr.Expr
import TypedExpr.NameMap
/-!
# Names in scope

What a name means where an expression is compiled: a constant, which is put in place of the name, a
variable of a type, or a global function. A name that means none of these may still name a function
or a type of the registry.
-/

namespace TypedExpr

/-- A constant. -/
inductive Constant where
  | int (value : Int64)
  | double (value : Float)
  | bool (value : Bool)
  | str (value : String)
  deriving DecidableEq, Inhabited

namespace Constant

/-- The type of a constant. -/
def type : Constant → Ty
  | .int _ => .int
  | .double _ => .double
  | .bool _ => .bool
  | .str _ => .string

/-- The literal that is put in place of a constant. -/
def form {α : Type} : Constant → Form α
  | .int n => .int n
  | .double x => .double x
  | .bool b => .bool b
  | .str s => .str s

/-- A value as a constant; only primitive values are. -/
def ofValue? : Value → Option Constant
  | .int n => some (.int n)
  | .double x => some (.double x)
  | .bool b => some (.bool b)
  | .str s => some (.str s)
  | _ => none

end Constant

/-- What a name means. -/
inductive Meaning where
  | constant (value : Constant)
  | var (type : Ty)
  | function
  deriving DecidableEq, Inhabited

/-- What names mean. -/
abbrev Scope := NameMap Meaning

/-- What a name means, in words. -/
def Scope.describe (scope : Scope) (reg : Registry) (name : String) : String :=
  match scope.get? name with
  | some (.constant c) => s!"constant {reg.typeName c.type}"
  | some (.var t) => s!"variable {reg.typeName t}"
  | some .function => "function"
  | none => "unidentified"

/-- How an expression is parsed: whether operations on literals are replaced by their values, and
how deep expressions may nest. -/
structure ParseOptions where
  fold : Bool
  maxDepth : Nat
  deriving DecidableEq, Repr

/-- The usual way to parse. -/
def ParseOptions.standard : ParseOptions := ⟨true, 256⟩

instance : Inhabited ParseOptions := ⟨.standard⟩

/-- How options are shown in listings. -/
def ParseOptions.text (o : ParseOptions) : String :=
  s!"ParseOptions \x7b fold_constants: {o.fold}, max_depth: {o.maxDepth} \x7d"

end TypedExpr
