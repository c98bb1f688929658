import TypedExpr.Numbering
/-!
# Types

A type is a primitive, an array over a type, or an instance of a definition of the registry at
type arguments. Types are compared by structure. For messages and listings each type has a number,
in the order in which types are first mentioned; a table of types (`TypeTable`) numbers the
*shapes* of types, whose parts are given by number, so a type is numbered after its parts.

* `Ty.primitiveName?`, `Ty.ofPrimitiveName?`: the six primitives are the only types named without a
  registry; the two functions are inverse (`Ty.ofPrimitiveName?_primitiveName`).
* `TypeTable.note`, `TypeTable.number`: mention a type, and read its number.
-/

namespace TypedExpr

/-- The place of a definition in the registry. -/
abbrev DefId := Nat

/-- The number of a type in a table of types. -/
abbrev TypeId := Nat

/-- A type. -/
inductive Ty where
  | int
  | double
  | bool
  | string
  | object
  | void
  | array (elem : Ty)
  | named (definition : DefId) (args : List Ty)
  deriving Inhabited, Repr

namespace Ty

mutual

/-- Equality of types, as a test. -/
def same : Ty → Ty → Bool
  | .int, .int | .double, .double | .bool, .bool => true
  | .string, .string | .object, .object | .void, .void => true
  | .array s, .array t => s.same t
  | .named d as, .named e bs => d == e && sameAll as bs
  | _, _ => false

/-- Equality of lists of types, as a test. -/
def sameAll : List Ty → List Ty → Bool
  | [], [] => true
  | s :: as, t :: bs => s.same t && sameAll as bs
  | _, _ => false

end

mutual

theorem same_self : ∀ t : Ty, t.same t = true
  | .int | .double | .bool | .string | .object | .void => rfl
  | .array t => by simpa [same] using same_self t
  | .named d as => by simpa [same] using sameAll_self as

theorem sameAll_self : ∀ ts : List Ty, sameAll ts ts = true
  | [] => rfl
  | t :: ts => by simp [sameAll, same_self t, sameAll_self ts]

end

mutual

theorem eq_of_same : ∀ s t : Ty, s.same t = true → s = t
  | .array s, .array t, h => by rw [eq_of_same s t (by simpa [same] using h)]
  | .named d as, .named e bs, h => by
    have h : d = e ∧ sameAll as bs = true := by simpa [same] using h
    rw [h.1, eq_of_sameAll as bs h.2]
  | .int, .int, _ | .double, .double, _ | .bool, .bool, _ => rfl
  | .string, .string, _ | .object, .object, _ | .void, .void, _ => rfl

theorem eq_of_sameAll : ∀ as bs : List Ty, sameAll as bs = true → as = bs
  | [], [], _ => rfl
  | s :: as, t :: bs, h => by
    have h : s.same t = true ∧ sameAll as bs = true := by simpa [sameAll] using h
    rw [eq_of_same s t h.1, eq_of_sameAll as bs h.2]

end

instance : DecidableEq Ty := fun s t =>
  decidable_of_iff (s.same t = true) ⟨eq_of_same s t, fun h => h ▸ same_self s⟩

/-- The name of a primitive. -/
def primitiveName? : Ty → Option String
  | .int => some "int"
  | .double => some "double"
  | .bool => some "bool"
  | .string => some "string"
  | .object => some "object"
  | .void => some "void"
  | .array _ | .named _ _ => none

/-- The primitive of a name. -/
def ofPrimitiveName? : String → Option Ty
  | "int" => some .int
  | "double" => some .double
  | "bool" => some .bool
  | "string" => some .string
  | "object" => some .object
  | "void" => some .void
  | _ => none

theorem ofPrimitiveName?_primitiveName {t : Ty} {s : String} (h : t.primitiveName? = some s) :
    ofPrimitiveName? s = some t := by
  cases t <;> simp only [primitiveName?, Option.some.injEq, reduceCtorEq] at h <;> subst h <;> rfl

/-- One of the six types that need no definition. -/
def isPrimitive (t : Ty) : Bool := t.primitiveName?.isSome

/-- An operand of arithmetic. -/
def isNumeric : Ty → Bool
  | .int | .double => true
  | _ => false

/-- Values of the type may be null. -/
def isReference : Ty → Bool
  | .int | .double | .bool | .void => false
  | _ => true

/-- What an array of the type holds. -/
def elem? : Ty → Option Ty
  | .array elem => some elem
  | _ => none

end Ty

/-- A type whose parts are given by number. -/
inductive TypeShape where
  | int
  | double
  | bool
  | string
  | object
  | void
  | array (elem : TypeId)
  | named (definition : DefId) (args : List TypeId)
  deriving DecidableEq, Repr, Inhabited

/-- The types numbered so far. -/
abbrev TypeTable := Numbering TypeShape

/-- How a type is written in listings: a primitive by its name, another type by its number. -/
def TypeId.label (n : TypeId) : String :=
  match (["INT", "DOUBLE", "BOOL", "STRING", "OBJECT", "VOID"])[n]? with
  | some name => s!"TypeId::{name}"
  | none => s!"TypeId({n})"

/-- How a shape is written in listings. -/
def TypeShape.text : TypeShape → String
  | .int => "Int"
  | .double => "Double"
  | .bool => "Bool"
  | .string => "Str"
  | .object => "Object"
  | .void => "Void"
  | .array elem => s!"Array({TypeId.label elem})"
  | .named d args =>
    let args := ", ".intercalate (args.map TypeId.label)
    s!"Instance \x7b def: DefId({d}), args: [{args}] \x7d"

namespace TypeTable

/-- The table in which only the primitives have numbers. -/
def primitives : TypeTable :=
  Numbering.empty.noteAll [.int, .double, .bool, .string, .object, .void]

mutual

/-- Mention a type: its parts are numbered first. The result is its number. -/
def note (table : TypeTable) : Ty → TypeId × TypeTable
  | .int => (0, table)
  | .double => (1, table)
  | .bool => (2, table)
  | .string => (3, table)
  | .object => (4, table)
  | .void => (5, table)
  | .array t =>
    let (elem, table) := note table t
    (table.number (.array elem), Numbering.note table (.array elem))
  | .named d ts =>
    let (args, table) := noteAll table ts
    (table.number (.named d args), Numbering.note table (.named d args))

/-- Mention several types in order. -/
def noteAll (table : TypeTable) : List Ty → List TypeId × TypeTable
  | [] => ([], table)
  | t :: ts =>
    let (n, table) := note table t
    let (ns, table) := noteAll table ts
    (n :: ns, table)

end

/-- The number of a type; the one it would get if it has none. -/
def number (table : TypeTable) (t : Ty) : TypeId := (table.note t).1

end TypeTable

end TypedExpr
