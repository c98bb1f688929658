import TypedExpr.Heap
/-!
# Host callables

Members, operators, casts and functions are supplied by a host: an arbitrary function from a call
and the heap to a value, or a fault, and the heap after it.

* `Callable`: a host function with its name. One whose journal name is given has its calls shown.
* `CallRecord`: that a callable was called, with what. The record is made before the call.
-/

namespace TypedExpr

/-- A call as the host sees it: the arguments, a receiver first, the type expected of the result,
and how that type is written in listings. -/
structure HostCall where
  args : List Value
  result : Ty
  resultLabel : String

/-- What a host function does. -/
abbrev HostM := ExceptT Fault (StateM Heap)

/-- A host function, and the name under which its calls are shown, if they are. -/
structure HostFunction where
  journal : Option String
  run : HostCall → HostM Value

/-- A host function whose calls are not shown. -/
def HostFunction.quiet (run : HostCall → HostM Value) : HostFunction := ⟨none, run⟩

/-- A registered host function. -/
structure Callable where
  name : String
  function : HostFunction

/-- That a callable was called. -/
structure CallRecord where
  callable : Nat
  args : List Value
  result : Ty

/-- How a call is shown: each argument with its kind and its text, and the type expected. -/
def journalLine (name : String) (args : List Value) (resultLabel : String) : String :=
  let shown := args.map fun v => s!"{v.kindName}:{v.text}"
  let args := ", ".intercalate shown
  s!"{name}({args})->{resultLabel}"

namespace HostM

/-- A result without effect. -/
def lift {α : Type} (x : Except Fault α) : HostM α := ExceptT.mk (pure x)

/-- A new object. -/
def newObject (type : Ty) (payload : Payload) : HostM Value :=
  modifyGet fun h => h.allocObject type payload

/-- A new array. -/
def newArray (type : Ty) (elems : Array Value) : HostM Value :=
  modifyGet fun h => h.allocArray type elems

/-- The contents of the object at a place. -/
def payload? (place : Nat) : HostM (Option Payload) := return (← get).payload? place

/-- Replace the contents of the object at a place. -/
def setPayload (place : Nat) (payload : Payload) : HostM Unit :=
  modify fun h => h.setPayload place payload

end HostM

namespace HostCall

/-- An argument, for a function that needs it. -/
def arg (call : HostCall) (function : String) (i : Nat) : HostM Value :=
  match call.args[i]? with
  | some v => pure v
  | none => throw (.host function s!"missing argument {i}")

/-- An argument that must be an integer. -/
def int (call : HostCall) (function : String) (i : Nat) : HostM Int64 := do
  let v ← call.arg function i
  HostM.lift v.toInt

/-- An argument that must be a double. -/
def double (call : HostCall) (function : String) (i : Nat) : HostM Float := do
  let v ← call.arg function i
  HostM.lift v.toDouble

/-- An argument that must be a text. -/
def str (call : HostCall) (function : String) (i : Nat) : HostM String := do
  let v ← call.arg function i
  HostM.lift v.toStr

/-- An argument that must be an array: its place. -/
def array (call : HostCall) (function : String) (i : Nat) : HostM Nat := do
  let v ← call.arg function i
  HostM.lift v.toArray

/-- An argument that must be an object: its place. -/
def object (call : HostCall) (function : String) (i : Nat) : HostM Nat := do
  let v ← call.arg function i
  HostM.lift v.toObject

end HostCall

end TypedExpr
