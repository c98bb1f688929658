import TypedExpr.Builtin.Text
/-!
# Members of arrays

The length, and the elements by index.
-/

namespace TypedExpr.Builtin

/-- Declare the members of arrays. -/
def addArray : Build Unit := do
  let d := Registry.arrayDef
  let int : TypeSig := .fixed .int
  Build.property d "Length" int (.quiet fun call => do
    let place ← call.array "[].Length" 0
    return lengthValue ((← get).elems place).size)
  let getItem : HostFunction := .quiet fun call => do
    let place ← call.array "[].get_Item" 0
    let index ← call.int "[].get_Item" 1
    HostM.lift (itemAt ((← get).elems place) index.toInt)
  let setItem : HostFunction := .quiet fun call => do
    let place ← call.array "[].set_Item" 0
    let index ← call.int "[].set_Item" 1
    let v ← call.arg "[].set_Item" 2
    let elems ← HostM.lift (replaceAt ((← get).elems place) index.toInt v)
    modify fun h => h.setElems place elems
    return .void
  Build.indexer d int (.param 0) getItem (some setItem)

end TypedExpr.Builtin
