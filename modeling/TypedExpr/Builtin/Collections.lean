import TypedExpr.Builtin.Text
/-!
# Collections

The generic collections `List`, `Stack`, `Queue` and `HashSet`: a constructor without arguments,
`Count`, `Clear` and `Contains`, and the operations of their own. An operation that fails leaves
the collection as it was.

* `Payload.count`, `Payload.contains`, `Collection.empty`: what all collections can do.
* `Collection`: which of the four a callable expects.
-/

namespace TypedExpr

/-- The kinds of collections. -/
inductive Collection where
  | list
  | stack
  | queue
  | set
  deriving DecidableEq, Repr, Inhabited

/-- The name of the definition. -/
def Collection.name : Collection → String
  | .list => "List"
  | .stack => "Stack"
  | .queue => "Queue"
  | .set => "HashSet"

/-- The contents of a new collection. -/
def Collection.empty : Collection → Payload
  | .list => .list #[]
  | .stack => .stack #[]
  | .queue => .queue #[]
  | .set => .set .empty

/-- Which collection the contents are of. -/
def Payload.collection? : Payload → Option Collection
  | .list _ => some .list
  | .stack _ => some .stack
  | .queue _ => some .queue
  | .set _ => some .set
  | .record _ _ => none

/-- The number of elements. -/
def Payload.count : Payload → Nat
  | .list items | .stack items | .queue items => items.size
  | .set items => items.size
  | .record _ fields => fields.size

/-- The value is an element. A list, a stack and a queue compare as the language does. -/
def Payload.contains (p : Payload) (v : Value) : Bool :=
  match p with
  | .list items | .stack items | .queue items => items.any (·.looseSame v)
  | .set items => items.contains v
  | .record _ fields => fields.any (·.looseSame v)

namespace Builtin

/-- The receiver of a callable that expects a kind of collection: its place and its contents. -/
def receiver (function : String) (kind : Collection) (call : HostCall) :
    HostM (Nat × Payload) := do
  let place ← call.object function 0
  match ← HostM.payload? place with
  | some payload =>
    if payload.collection? = some kind then return (place, payload)
    else throw (.host function "receiver has an unexpected payload")
  | none => throw (.host function "receiver has an unexpected payload")

/-- A new collection without elements. -/
def newCollection (kind : Collection) : HostFunction := .quiet fun call =>
  HostM.newObject call.result kind.empty

/-- The number of elements of a collection. -/
def collectionCount (kind : Collection) : HostFunction := .quiet fun call => do
  let (_, payload) ← receiver kind.name kind call
  return lengthValue payload.count

/-- Take all elements out of a collection. -/
def collectionClear (kind : Collection) : HostFunction := .quiet fun call => do
  let (place, _) ← receiver kind.name kind call
  HostM.setPayload place kind.empty
  return .void

/-- Whether a value is an element of a collection. -/
def collectionContains (kind : Collection) : HostFunction := .quiet fun call => do
  let v ← call.arg kind.name 1
  let (_, payload) ← receiver kind.name kind call
  return .bool (payload.contains v)

/-- Declare what all collections have. -/
def addCommon (d : DefId) (kind : Collection) : Build Unit := do
  Build.constructor d [] (newCollection kind)
  Build.property d "Count" (.fixed .int) (collectionCount kind)
  Build.method d "Clear" [] (.fixed .void) (collectionClear kind)
  Build.method d "Contains" [.param 0] (.fixed .bool) (collectionContains kind)

/-- The items of contents that have an order. -/
def items : Payload → Array Value
  | .list items | .stack items | .queue items => items
  | _ => #[]

/-- Append an item to a list. -/
def listAdd : HostFunction := .quiet fun call => do
  let v ← call.arg "List.Add" 1
  let (place, payload) ← receiver "List.Add" .list call
  HostM.setPayload place (.list ((items payload).push v))
  return .void

/-- The item of a list at an index. -/
def listGet : HostFunction := .quiet fun call => do
  let index ← call.int "List.get_Item" 1
  let (_, payload) ← receiver "List.get_Item" .list call
  HostM.lift (itemAt (items payload) index.toInt)

/-- Replace the item of a list at an index. -/
def listSet : HostFunction := .quiet fun call => do
  let index ← call.int "List.set_Item" 1
  let v ← call.arg "List.set_Item" 2
  let (place, payload) ← receiver "List.set_Item" .list call
  let replaced ← HostM.lift (replaceAt (items payload) index.toInt v)
  HostM.setPayload place (.list replaced)
  return .void

/-- Put an item on top of a stack. -/
def stackPush : HostFunction := .quiet fun call => do
  let v ← call.arg "Stack.Push" 1
  let (place, payload) ← receiver "Stack.Push" .stack call
  HostM.setPayload place (.stack ((items payload).push v))
  return .void

/-- The item on top of a stack. -/
def stackTop (function : String) (call : HostCall) : HostM (Nat × Array Value × Value) := do
  let (place, payload) ← receiver function .stack call
  match (items payload).back? with
  | some v => return (place, items payload, v)
  | none => throw (.host function "stack is empty")

/-- Take the item on top of a stack. -/
def stackPop : HostFunction := .quiet fun call => do
  let (place, items, v) ← stackTop "Stack.Pop" call
  HostM.setPayload place (.stack items.pop)
  return v

/-- Look at the item on top of a stack. -/
def stackPeek : HostFunction := .quiet fun call => do
  let (_, _, v) ← stackTop "Stack.Peek" call
  return v

/-- Put an item at the end of a queue. -/
def queueEnqueue : HostFunction := .quiet fun call => do
  let v ← call.arg "Queue.Enqueue" 1
  let (place, payload) ← receiver "Queue.Enqueue" .queue call
  HostM.setPayload place (.queue ((items payload).push v))
  return .void

/-- The item at the front of a queue. -/
def queueFront (function : String) (call : HostCall) : HostM (Nat × Array Value × Value) := do
  let (place, payload) ← receiver function .queue call
  match (items payload)[0]? with
  | some v => return (place, items payload, v)
  | none => throw (.host function "queue is empty")

/-- Take the item at the front of a queue. -/
def queueDequeue : HostFunction := .quiet fun call => do
  let (place, items, v) ← queueFront "Queue.Dequeue" call
  HostM.setPayload place (.queue (items.extract 1 items.size))
  return v

/-- Look at the item at the front of a queue. -/
def queuePeek : HostFunction := .quiet fun call => do
  let (_, _, v) ← queueFront "Queue.Peek" call
  return v

/-- Make a value an element of a set, and say whether it was none before. -/
def setAdd : HostFunction := .quiet fun call => do
  let v ← call.arg "HashSet.Add" 1
  let (place, payload) ← receiver "HashSet.Add" .set call
  match payload with
  | .set elements =>
    let (added, elements) := elements.insert v
    HostM.setPayload place (.set elements)
    return .bool added
  | _ => return .bool false

/-- Declare the collections. -/
def addCollections : Build Unit := do
  let item : TypeSig := .param 0
  let int : TypeSig := .fixed .int
  let void : TypeSig := .fixed .void
  let list ← Build.declareGeneric Collection.list.name 1
  addCommon list .list
  Build.method list "Add" [item] void listAdd
  Build.insertion list .listAppend item "Add" listAdd
  Build.indexer list int item listGet (some listSet)
  let stack ← Build.declareGeneric Collection.stack.name 1
  addCommon stack .stack
  Build.method stack "Push" [item] void stackPush
  Build.insertion stack .stackPush item "Push" stackPush
  Build.method stack "Pop" [] item stackPop
  Build.method stack "Peek" [] item stackPeek
  let queue ← Build.declareGeneric Collection.queue.name 1
  addCommon queue .queue
  Build.method queue "Enqueue" [item] void queueEnqueue
  Build.insertion queue .queueEnqueue item "Enqueue" queueEnqueue
  Build.method queue "Dequeue" [] item queueDequeue
  Build.method queue "Peek" [] item queuePeek
  let set ← Build.declareGeneric Collection.set.name 1
  addCommon set .set
  Build.method set "Add" [item] (.fixed .bool) setAdd
  Build.insertion set .genericAdd item "Add" setAdd

end Builtin

end TypedExpr
