import TypedExpr.Builtin.Array
import TypedExpr.Builtin.Collections
import TypedExpr.Builtin.Math
/-!
# The standard registry

The registry with the members of `string` and of arrays, the functions on numbers, and the
collections.
-/

namespace TypedExpr

/-- Declare everything that is built in. -/
def Build.standard : Build Unit := do
  Builtin.addText
  Builtin.addArray
  Builtin.addMath
  Builtin.addCollections

end TypedExpr
