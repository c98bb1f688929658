import TypedExpr.Registry.Builder
/-!
# Host functions by description

A host function that is given by data instead of code: what it returns, reads or changes. Its calls
are shown in the journal. The objects it makes are records of the arguments they were made with.

* `Body`: a description. `Body.function`: the host function it stands for.
-/

namespace TypedExpr

/-- What a described function does. -/
inductive Body where
  | const (v : Value)
  | arg (i : Nat)
  | fail (message : String)
  | new
  | get (i : Nat)
  | set (i : Nat)
  | push
  | count
  | text
  deriving Inhabited

namespace Body

/-- What a described record is recognised by. -/
def recordKind : String := "record"

/-- The fields of a described record. -/
def fields? : Payload → Option (Array Value)
  | .record kind fields => if kind = recordKind then some fields else none
  | _ => none

/-- The record that is the receiver: its place and its fields. -/
def receiver (name : String) (call : HostCall) : HostM (Nat × Array Value) := do
  let place ← call.object name 0
  match (← HostM.payload? place).bind fields? with
  | some fields => return (place, fields)
  | none => throw (.host name "bad payload")

/-- Carry a description out. -/
def run (name : String) (body : Body) (call : HostCall) : HostM Value :=
  match body with
  | .const v => return v
  | .arg i => call.arg name i
  | .fail message => throw (.host name message)
  | .new => HostM.newObject call.result (.record recordKind call.args.toArray)
  | .get i => do
    let (_, fields) ← receiver name call
    match fields[i]? with
    | some v => return v
    | none => throw (.host name "bad payload")
  | .set i => do
    let v ← call.arg name (call.args.length - 1)
    let (place, fields) ← receiver name call
    if i < fields.size then
      HostM.setPayload place (.record recordKind (fields.setIfInBounds i v))
      return .void
    else throw (.host name "bad payload")
  | .push => do
    let v ← call.arg name 1
    let (place, fields) ← receiver name call
    HostM.setPayload place (.record recordKind (fields.push v))
    return .void
  | .count => do
    let (_, fields) ← receiver name call
    return .int (Int64.ofNat fields.size)
  | .text => return .str (journalLine name call.args call.resultLabel)

/-- The host function of a description, shown in the journal under a name. -/
def function (name : String) (body : Body) : HostFunction := ⟨some name, body.run name⟩

end Body

end TypedExpr
