import TypedExpr.Expr
/-!
# The table of nodes

Nodes are kept with their parts by number. Arguments and items can be any number of parts, so they
are kept apart: the numbers of all such parts stand one after the other in a pool, and a node has
the ranges of it that are its own. A range begins at a number of 32 bits and has a length of 16
bits, and the numbers of nodes have 32 bits, so there are nodes that cannot be kept.

* `Form.args`, `Form.items`, `Form.withLists`: the lists of a node, and other lists in their place.
* `NodeTable.putList`, `NodeTable.add`: keep a list, and keep a node.
* `NodeTable.list?`, `NodeTable.form?`: the list in a range, and the node of a number.
-/

namespace TypedExpr

namespace Form

variable {α : Type}

/-- The arguments of a call or of a construction. -/
def args : Form α → List α
  | .method _ _ args | .call _ args | .new _ args _ _ => args
  | _ => []

/-- The items of an initializer. -/
def items : Form α → List α
  | .new _ _ items _ | .newArray _ _ items => items
  | _ => []

/-- The form with other arguments and items, where it has such lists. -/
def withLists (args items : List α) : Form α → Form α
  | .method receiver callable _ => .method receiver callable args
  | .call callable _ => .call callable args
  | .new constructor _ _ insert => .new constructor args items insert
  | .newArray elem count _ => .newArray elem count items
  | form => form

theorem withLists_nil (form : Form α) :
    (form.withLists [] []).args = [] ∧ (form.withLists [] []).items = [] := by
  cases form <;> exact ⟨rfl, rfl⟩

end Form

/-- Where in the pool a list stands. -/
structure ListRange where
  start : UInt32
  length : UInt16
  deriving DecidableEq, Repr, Inhabited

/-- The place behind the list. -/
def ListRange.stop (r : ListRange) : Nat := r.start.toNat + r.length.toNat

/-- A node as it is kept: its form without lists, and where these stand. -/
structure KeptForm where
  form : Form Nat
  args : ListRange
  items : ListRange
  bare : form.args = [] ∧ form.items = []

/-- Why a node cannot be kept: its number would be too large, or the place of a list, or a list is
too long. -/
inductive Overflow where
  | nodes (count : Nat)
  | pool (size : Nat)
  | list (length : Nat)
  deriving DecidableEq, Repr, Inhabited

/-- The nodes built so far, each at the place that its number says, and the pool of their lists. -/
structure NodeTable where
  nodes : Array KeptForm
  pool : Array Nat

namespace NodeTable

/-- Nothing is kept. -/
def empty : NodeTable := ⟨#[], #[]⟩

instance : Inhabited NodeTable := ⟨empty⟩

/-- Put a list at the end of the pool. An empty one takes no place. -/
def putList (table : NodeTable) (numbers : List Nat) : Except Overflow (ListRange × NodeTable) :=
  if numbers = [] then return (⟨0, 0⟩, table)
  else if UInt32.size ≤ table.pool.size then throw (.pool table.pool.size)
  else if UInt16.size ≤ numbers.length then throw (.list numbers.length)
  else
    let range : ListRange := ⟨table.pool.size.toUInt32, numbers.length.toUInt16⟩
    return (range, { table with pool := table.pool ++ numbers })

/-- Keep a node: first its arguments, then its items, and then the node itself. -/
def add (table : NodeTable) (form : Form Nat) : Except Overflow NodeTable := do
  let (args, table) ← table.putList form.args
  let (items, table) ← table.putList form.items
  if UInt32.size ≤ table.nodes.size then throw (.nodes table.nodes.size)
  else
    let node : KeptForm := ⟨form.withLists [] [], args, items, form.withLists_nil⟩
    return { table with nodes := table.nodes.push node }

/-- The list in a range, if the range lies in the pool. -/
def list? (table : NodeTable) (r : ListRange) : Option (List Nat) :=
  if r.stop ≤ table.pool.size then some (table.pool.extract r.start.toNat r.stop).toList else none

/-- The node of a number, with its lists. -/
def form? (table : NodeTable) (n : Nat) : Option (Form Nat) := do
  let node ← table.nodes[n]?
  return node.form.withLists (← table.list? node.args) (← table.list? node.items)

end NodeTable

end TypedExpr
