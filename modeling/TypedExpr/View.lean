import TypedExpr.World
/-!
# Views of values

A value is shown with its contents. Arrays and objects are numbered in the order in which they are
first shown; one that has been shown before within the same value is shown by its number alone, so a
view is finite although values may contain themselves.

* `Registry.view`: the view of a value.
-/

namespace TypedExpr

/-- An array or an object, by its place. -/
inductive Handle where
  | array (place : Nat)
  | object (place : Nat)
  deriving DecidableEq, Repr, Inhabited

/-- What is shown of a value. Types are shown by name. -/
inductive View where
  | plain (v : Value)
  | shownArray (type : String) (id : Nat)
  | shownObject (type : String) (id : Nat)
  | array (type : String) (id : Nat) (elems : List View)
  /-- A collection, with its items if they can be indexed. -/
  | collection (type : String) (id : Nat) (text : Except Fault String) (count : Nat)
      (items : Option (List View))
  /-- Another object: what it is, and its fields. -/
  | record (type : String) (id : Nat) (text : Except Fault String) (kind : String)
      (fields : List View)

/-- The numbers of handles, the handles shown within the value at hand, and the world. -/
structure Viewing where
  ids : Numbering Handle
  shown : List Handle
  world : World

namespace Viewing

/-- The number of a handle. -/
def idOf (h : Handle) : StateM Viewing Nat :=
  modifyGet fun s => (s.ids.number h, { s with ids := s.ids.note h, shown := h :: s.shown })

/-- What a step in the world gives. What is called for it is not recorded. -/
def quietly {α : Type} (x : Run α) : StateM Viewing (Except Fault α) :=
  modifyGet fun s =>
    let (result, world) := x.run s.world
    (result, { s with world := { world with calls := s.world.calls } })

end Viewing

namespace Registry

/-- The number of items of a collection, if its type says how to count them. -/
def countOf (reg : Registry) (t : Ty) (v : Value) : Run (Option Nat) := do
  Run.noteTypes (reg.mentionedByProperty t "Count" false)
  match reg.resolveProperty t "Count" false with
  | .ok property =>
    let count ← reg.call property.get [v] property.type
    return some (← Run.lift count.toInt).toNatClampNeg
  | .error _ => return none

/-- The items of a collection, if its type has an indexer. -/
def itemsOf (reg : Registry) (t : Ty) (v : Value) (count : Nat) : Run (Option (List Value)) := do
  Run.noteTypes (reg.mentionedByIndexer t)
  match reg.resolveIndexer t with
  | .ok indexer =>
    let item (i : Nat) : Run Value := reg.call indexer.get [v, .int (Int64.ofNat i)] indexer.elem
    return some (← (List.range count).mapM item)
  | .error _ => return none

/-- The view of a value, down to a depth. -/
def viewUpTo (reg : Registry) : Nat → Value → StateM Viewing View
  | 0, v => return .plain v
  | depth + 1, v => do
    let s ← get
    match v with
    | .array t place =>
      let id ← Viewing.idOf (.array place)
      if .array place ∈ s.shown then return .shownArray (reg.typeName t) id
      else
        let elems ← (s.world.heap.elems place).toList.mapM (viewUpTo reg depth)
        return .array (reg.typeName t) id elems
    | .object t place =>
      let id ← Viewing.idOf (.object place)
      if .object place ∈ s.shown then return .shownObject (reg.typeName t) id
      else
        let text ← Viewing.quietly (reg.toText v)
        match (← get).world.heap.payload? place with
        | some (.record kind fields) =>
          let shown ← fields.toList.mapM (viewUpTo reg depth)
          return .record (reg.typeName t) id text kind shown
        | _ =>
          match ← Viewing.quietly (reg.countOf t v) with
          | .ok (some count) =>
            match ← Viewing.quietly (reg.itemsOf t v count) with
            | .ok (some items) =>
              let shown ← items.mapM (viewUpTo reg depth)
              return .collection (reg.typeName t) id text count (some shown)
            | _ => return .collection (reg.typeName t) id text count none
          | _ => return .record (reg.typeName t) id text "" []
    | v => return .plain v

/-- The view of a value. Within it no array or object has another view inside its own, so its depth
is bounded by their number. -/
def view (reg : Registry) (v : Value) : StateM Viewing View := do
  modify fun s => { s with shown := [] }
  let heap := (← get).world.heap
  reg.viewUpTo (heap.arrays.size + heap.objects.size + 1) v

end Registry

end TypedExpr
