import TypedExpr.Catalog
import TypedExpr.Value
/-!
# The heap

Where the contents of arrays and objects are kept. Both parts only grow: a place, once given out,
stays the place of the same array or object.

* `Heap.allocArray`, `Heap.allocObject`: a new place.
* `ElementSet`: the contents of a set. Elements are recognised by a key or, those that have none, by
  comparison with those that are there.
-/

namespace TypedExpr

/-- What a number, a truth value, a text or null is recognised by as an element of a set: by itself.
All zeros of a kind are one element, and so is all that is no number. -/
inductive ElementKey where
  | int (n : Int64)
  | double (x : Float)
  | bool (b : Bool)
  | str (s : String)
  | null
  deriving DecidableEq, Inhabited

/-- The key of a value, if it is recognised by one. -/
def Value.key? : Value → Option ElementKey
  | .int n => some (.int n)
  | .double x => some (.double (if x == 0 then 0 else if x.isNaN then Double.nan else x))
  | .bool b => some (.bool b)
  | .str s => some (.str s)
  | .null => some .null
  | .array _ _ | .object _ _ | .void => none

/-- A finite set of values, in two parts: the keys of the elements that have one, and the other
elements, which are compared with each other. -/
structure ElementSet where
  keys : List ElementKey
  handles : Array Value
  nodup : keys.Nodup
  keyless : ∀ v ∈ handles.toList, v.key? = none
  distinct : handles.toList.Pairwise fun v w => v.same w = false

namespace ElementSet

/-- No elements. -/
def empty : ElementSet := ⟨[], #[], List.nodup_nil, by simp, by simp⟩

instance : Inhabited ElementSet := ⟨empty⟩

/-- The number of elements. -/
def size (s : ElementSet) : Nat := s.keys.length + s.handles.size

/-- The value is among the elements without a key. -/
def holds (s : ElementSet) (v : Value) : Bool := s.handles.any (·.same v)

/-- The value is an element. -/
def contains (s : ElementSet) (v : Value) : Bool :=
  match v.key? with
  | some key => key ∈ s.keys
  | none => s.holds v

/-- One more key. -/
def addKey (s : ElementSet) (key : ElementKey) (h : key ∉ s.keys) : ElementSet :=
  { s with keys := key :: s.keys, nodup := List.nodup_cons.2 ⟨h, s.nodup⟩ }

/-- One more element without a key. -/
def addHandle (s : ElementSet) (v : Value) (hkey : v.key? = none) (h : s.holds v = false) :
    ElementSet where
  keys := s.keys
  handles := s.handles.push v
  nodup := s.nodup
  keyless w hw := by
    rw [Array.toList_push, List.mem_append, List.mem_singleton] at hw
    exact hw.elim (s.keyless w) (· ▸ hkey)
  distinct := by
    rw [Array.toList_push, List.pairwise_append]
    refine ⟨s.distinct, List.pairwise_singleton .., fun w hw u hu => ?_⟩
    rw [List.mem_singleton] at hu
    rw [hu, ← Bool.not_eq_true]
    exact Array.any_eq_false'.1 h w (Array.mem_toList_iff.1 hw)

/-- Whether the value is new to the set, and the set with the value as an element. -/
def insert (s : ElementSet) (v : Value) : Bool × ElementSet :=
  match hkey : v.key? with
  | some key => if h : key ∈ s.keys then (false, s) else (true, s.addKey key h)
  | none =>
    if h : s.holds v then (false, s)
    else (true, s.addHandle v hkey (eq_false_of_ne_true h))

end ElementSet

/-- The contents of an object. -/
inductive Payload where
  | list (items : Array Value)
  | stack (items : Array Value)
  | queue (items : Array Value)
  | set (items : ElementSet)
  /-- An object of an application: what it is, and its fields. -/
  | record (kind : String) (fields : Array Value)
  deriving Inhabited

/-- The contents of all arrays and objects. -/
structure Heap where
  arrays : Array (Array Value)
  objects : Array Payload

namespace Heap

/-- Nothing is kept. -/
def empty : Heap := ⟨#[], #[]⟩

instance : Inhabited Heap := ⟨empty⟩

/-- A new array of a type, as a value. -/
def allocArray (h : Heap) (type : Ty) (elems : Array Value) : Value × Heap :=
  (.array type h.arrays.size, { h with arrays := h.arrays.push elems })

/-- A new object of a type, as a value. -/
def allocObject (h : Heap) (type : Ty) (payload : Payload) : Value × Heap :=
  (.object type h.objects.size, { h with objects := h.objects.push payload })

/-- The elements of the array at a place. -/
def elems (h : Heap) (place : Nat) : Array Value := h.arrays[place]?.getD #[]

/-- The contents of the object at a place. -/
def payload? (h : Heap) (place : Nat) : Option Payload := h.objects[place]?

/-- Replace the elements of the array at a place. -/
def setElems (h : Heap) (place : Nat) (elems : Array Value) : Heap :=
  { h with arrays := h.arrays.setIfInBounds place elems }

/-- Replace the contents of the object at a place. -/
def setPayload (h : Heap) (place : Nat) (payload : Payload) : Heap :=
  { h with objects := h.objects.setIfInBounds place payload }

/-- How a value is shown in listings; objects, and arrays that hold arrays or objects, are not. -/
def listing? (h : Heap) (c : Catalog) (v : Value) : Option String :=
  match v with
  | .array type place => do
    let shown ← (h.elems place).toList.mapM Value.listing?
    let elems := ", ".intercalate shown
    return s!"Array \x7b ty: {c.typeLabel type}, elems: [{elems}] \x7d"
  | v => v.listing?

end Heap

/-- The item at an index, if the index is one. -/
def itemAt (items : Array Value) (index : Int) : Except Fault Value :=
  match items[index.toNat]? with
  | some v => if 0 ≤ index then .ok v else .error (.indexOutOfRange index items.size)
  | none => .error (.indexOutOfRange index items.size)

/-- The items with the one at an index replaced, if the index is one. -/
def replaceAt (items : Array Value) (index : Int) (v : Value) : Except Fault (Array Value) :=
  if 0 ≤ index ∧ index.toNat < items.size then .ok (items.setIfInBounds index.toNat v)
  else .error (.indexOutOfRange index items.size)

end TypedExpr
