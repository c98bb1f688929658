import TypedExpr.Registry.Lookup
/-!
# Calling the host

The world is what evaluation changes besides the variables: the heap, the numbers handed out, and
the record of the host calls made so far.

* `Run`: a step in the world that may fail; what was done before a failure stays done.
* `Registry.call`: call a host function.
* `Registry.toText`: a value as text, which may call the host.
-/

namespace TypedExpr

/-- What evaluation changes besides the variables. The latest call comes last. -/
structure World where
  heap : Heap
  catalog : Catalog
  calls : Array CallRecord

instance : Inhabited World := ⟨⟨.empty, .initial, #[]⟩⟩

/-- A step in the world. -/
abbrev Run := ExceptT Fault (StateM World)

namespace Run

/-- A result without effect. -/
def lift {α : Type} (x : Except Fault α) : Run α := ExceptT.mk (pure x)

/-- Mention a name. -/
def noteName (name : String) : Run Unit :=
  modify fun w => { w with catalog := w.catalog.noteName name }

/-- Mention types in order. -/
def noteTypes (ts : List Ty) : Run Unit :=
  modify fun w => { w with catalog := w.catalog.noteTypes ts }

/-- A new array. -/
def newArray (type : Ty) (elems : Array Value) : Run Value :=
  modifyGet fun w =>
    let (v, heap) := w.heap.allocArray type elems
    (v, { w with heap := heap })

/-- The elements of the array at a place. -/
def elems (place : Nat) : Run (Array Value) := return (← get).heap.elems place

/-- The element of an array at an index. -/
def element (place : Nat) (index : Int64) : Run Value := do
  lift (itemAt (← elems place) index.toInt)

/-- Replace the element of an array at an index. -/
def setElement (place : Nat) (index : Int64) (v : Value) : Run Unit := do
  let elems ← lift (replaceAt (← elems place) index.toInt v)
  modify fun w => { w with heap := w.heap.setElems place elems }

end Run

namespace Registry

/-- Call a host function, with the type expected of its result. -/
def call (reg : Registry) (id : CallableId) (args : List Value) (result : Ty) : Run Value :=
  ExceptT.mk fun w =>
    match reg.callable? id with
    | none => (.error (.host (CallableId.label id) "no such callable"), w)
    | some callable =>
      let w := { w with calls := w.calls.push ⟨id, args, result⟩ }
      let call : HostCall := ⟨args, result, w.catalog.typeLabel result⟩
      let (v, heap) := (callable.function.run call).run w.heap
      (v, { w with heap := heap })

section

variable {reg : Registry} {id : CallableId}

theorem run_call_of_none (h : reg.callable? id = none) (args : List Value) (t : Ty) (w : World) :
    (reg.call id args t).run w =
      (.error (.host (CallableId.label id) "no such callable"), w) := by
  show (match reg.callable? id with
    | none => _
    | some callable => _ : Except Fault Value × World) = _
  rw [h]

theorem run_call {c : Callable} (h : reg.callable? id = some c) (args : List Value) (t : Ty)
    (w : World) :
    (reg.call id args t).run w =
      (((c.function.run ⟨args, t, w.catalog.typeLabel t⟩).run w.heap).1,
        { w with
          calls := w.calls.push ⟨id, args, t⟩
          heap := ((c.function.run ⟨args, t, w.catalog.typeLabel t⟩).run w.heap).2 }) := by
  show (match reg.callable? id with
    | none => _
    | some callable => _ : Except Fault Value × World) = _
  rw [h]
  rfl

end

/-- The calls made so far that are to be shown. -/
def journal (reg : Registry) (w : World) : List String :=
  w.calls.toList.filterMap fun call => do
    let callable ← reg.callable? call.callable
    let name ← callable.function.journal
    return journalLine name call.args (w.catalog.typeLabel call.result)

/-- The method by which the objects of a type say what they are, if there is one: without
arguments and with a text as its result. -/
def textMethod? (reg : Registry) (t : Ty) : Option ResolvedCall :=
  match reg.resolveMethod t "ToString" [] [] false with
  | .ok call => if call.ret = .string then some call else none
  | .error _ => none

/-- A value as text: arrays by their type, and objects too unless their type has a method for
it. -/
def toText (reg : Registry) (v : Value) : Run String :=
  match v with
  | .array t _ => pure (reg.typeName t)
  | .object t _ => do
    Run.noteName "ToString"
    Run.noteTypes (reg.mentionedByMethod t "ToString" [] [] false)
    match reg.textMethod? t with
    | some method => return (← reg.call method.callable [v] method.ret).text
    | none => return reg.typeName t
  | v => pure v.text

end Registry

end TypedExpr
