import TypedExpr.Registry.Basic
/-!
# Bases

A definition may have a base: its values convert to the base and inherit its members. The line of a
type is the type followed by its base, the base of that, and so on.

* `Registry.isSubtype`: a type is or derives from another.
* `Registry.lineage`: the definitions along the line of a type, the nearest first.
* `Registry.implicitCost?`: whether a type converts by itself, and how far away it is.

The base of a type depends on its definition alone. So a line that ends meets every definition at
most once, and looking at one type more than there are definitions sees the whole of it.
-/

namespace TypedExpr.Registry

/-- The base of a type. -/
def base? (reg : Registry) (t : Ty) : Option Ty := (reg.definition? t).bind fun d => d.1.base

/-- The first types of the line of a type, at most as many as given. -/
def lineUpTo (reg : Registry) : Nat → Ty → List Ty
  | 0, _ => []
  | n + 1, t =>
    match reg.base? t with
    | some b => t :: lineUpTo reg n b
    | none => [t]

/-- The line of a type. -/
def line (reg : Registry) (t : Ty) : List Ty := reg.lineUpTo (reg.definitions.size + 1) t

/-- The type is the ancestor or derives from it. -/
def isSubtype (reg : Registry) (t ancestor : Ty) : Bool := ancestor ∈ reg.line t

/-- The definitions along the line of a type, with their type arguments. -/
def lineage (reg : Registry) (t : Ty) : List (Definition × List Ty) :=
  (reg.line t).filterMap reg.definition?

theorem mem_lineUpTo_self (reg : Registry) (n : Nat) (t : Ty) : t ∈ reg.lineUpTo (n + 1) t := by
  unfold lineUpTo
  split <;> simp

theorem isSubtype_self (reg : Registry) (t : Ty) : reg.isSubtype t t = true := by
  exact decide_eq_true (mem_lineUpTo_self reg _ t)

/-! ### Conversions that happen by themselves -/

/-- How far a type is from another it converts to by itself: not at all, from an integer to a
double, to an ancestor, to `object`. Nothing converts from or to `void`. -/
def implicitCost? (reg : Registry) (source target : Ty) : Option Nat :=
  if source = .void ∨ target = .void then none
  else if source = target then some 0
  else if source = .int ∧ target = .double then some 1
  else if reg.isSubtype source target then some 2
  else if target = .object then some 3
  else none

/-- A type converts to another by itself. -/
def isAssignable (reg : Registry) (source target : Ty) : Bool :=
  (reg.implicitCost? source target).isSome

/-- A value may stand where a type is expected. Null may stand for every reference, and everything
but the absence of a value for `object`. -/
def conforms (reg : Registry) (v : Value) (t : Ty) : Bool :=
  if t = .object then v ≠ .void
  else
    match v.type? with
    | some actual => reg.isSubtype actual t
    | none => t.isReference

end TypedExpr.Registry
