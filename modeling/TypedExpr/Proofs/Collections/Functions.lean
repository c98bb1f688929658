import TypedExpr.Builtin.Collections
import TypedExpr.Proofs.Steps
/-!
# What the functions of the collections do

Each function, called on an object whose contents are of the kind that it expects: its result, and
the heap after it.

* `Builtin.run_receiver`: the contents are found, whatever type the handle carries.
* `Builtin.run_newCollection`, `Builtin.run_count`, `Builtin.run_listAdd`, …: one for each function.
-/

namespace TypedExpr.Builtin

variable {h : Heap} {p : Nat} {t r : Ty} {label : String} {kind : Collection} {payload : Payload}
  {xs : Array Value} {items : ElementSet} {args : List Value} {v : Value} {i : Int64}

theorem run_receiver (hp : h.payload? p = some payload) (hk : payload.collection? = some kind)
    (function : String) :
    (receiver function kind ⟨.object t p :: args, r, label⟩).run h = (.ok (p, payload), h) := by
  have hpayload : (HostM.payload? p).run h = (.ok (some payload), h) := by
    rw [← hp]
    rfl
  refine (run_bind_of_ok (a := p) rfl).trans ((run_bind_of_ok hpayload).trans ?_)
  dsimp only
  rw [if_pos hk]
  rfl

theorem run_newCollection (kind : Collection) :
    ((newCollection kind).run ⟨args, r, label⟩).run h =
      (.ok (.object r h.objects.size), (h.allocObject r kind.empty).2) := rfl

theorem run_count (hp : h.payload? p = some payload) (hk : payload.collection? = some kind) :
    ((collectionCount kind).run ⟨[.object t p], r, label⟩).run h =
      (.ok (lengthValue payload.count), h) :=
  run_bind_of_ok (run_receiver hp hk _)

theorem run_clear (hp : h.payload? p = some payload) (hk : payload.collection? = some kind) :
    ((collectionClear kind).run ⟨[.object t p], r, label⟩).run h =
      (.ok .void, h.setPayload p kind.empty) :=
  run_bind_of_ok (run_receiver hp hk _)

theorem run_contains (hp : h.payload? p = some payload) (hk : payload.collection? = some kind) :
    ((collectionContains kind).run ⟨[.object t p, v], r, label⟩).run h =
      (.ok (.bool (payload.contains v)), h) :=
  (run_bind_of_ok (a := v) rfl).trans (run_bind_of_ok (run_receiver hp hk _))

theorem run_listAdd (hp : h.payload? p = some (.list xs)) :
    (listAdd.run ⟨[.object t p, v], r, label⟩).run h =
      (.ok .void, h.setPayload p (.list (xs.push v))) :=
  (run_bind_of_ok (a := v) rfl).trans (run_bind_of_ok (run_receiver hp rfl _))

theorem run_listGet (hp : h.payload? p = some (.list xs)) :
    (listGet.run ⟨[.object t p, .int i], r, label⟩).run h = (itemAt xs i.toInt, h) :=
  (run_bind_of_ok (a := i) rfl).trans (run_bind_of_ok (run_receiver hp rfl _))

theorem run_listSet (hp : h.payload? p = some (.list xs)) :
    (listSet.run ⟨[.object t p, .int i, v], r, label⟩).run h =
      match replaceAt xs i.toInt v with
      | .ok ys => (.ok .void, h.setPayload p (.list ys))
      | .error f => (.error f, h) := by
  refine (run_bind_of_ok (a := i) rfl).trans ((run_bind_of_ok (a := v) rfl).trans
    ((run_bind_of_ok (run_receiver hp rfl _)).trans ?_))
  show ((HostM.lift (replaceAt xs i.toInt v) >>= _ : HostM Value).run h) = _
  rw [run_bind]
  cases replaceAt xs i.toInt v <;> rfl

theorem run_stackPush (hp : h.payload? p = some (.stack xs)) :
    (stackPush.run ⟨[.object t p, v], r, label⟩).run h =
      (.ok .void, h.setPayload p (.stack (xs.push v))) :=
  (run_bind_of_ok (a := v) rfl).trans (run_bind_of_ok (run_receiver hp rfl _))

/-- What both functions that look at the top of a stack do first. -/
theorem run_stackTop (hp : h.payload? p = some (.stack xs)) (function : String) :
    (stackTop function ⟨[.object t p], r, label⟩).run h =
      match xs.back? with
      | some v => (.ok (p, xs, v), h)
      | none => (.error (.host function "stack is empty"), h) := by
  refine (run_bind_of_ok (run_receiver hp rfl _)).trans ?_
  show ((match xs.back? with
    | some v => return (p, xs, v)
    | none => throw (.host function "stack is empty") : HostM _).run h) = _
  cases xs.back? <;> rfl

theorem run_stackPop (hp : h.payload? p = some (.stack xs)) :
    (stackPop.run ⟨[.object t p], r, label⟩).run h =
      match xs.back? with
      | some v => (.ok v, h.setPayload p (.stack xs.pop))
      | none => (.error (.host "Stack.Pop" "stack is empty"), h) := by
  show ((stackTop _ _ >>= _ : HostM Value).run h) = _
  rw [run_bind, run_stackTop hp]
  cases xs.back? <;> rfl

theorem run_stackPeek (hp : h.payload? p = some (.stack xs)) :
    (stackPeek.run ⟨[.object t p], r, label⟩).run h =
      match xs.back? with
      | some v => (.ok v, h)
      | none => (.error (.host "Stack.Peek" "stack is empty"), h) := by
  show ((stackTop _ _ >>= _ : HostM Value).run h) = _
  rw [run_bind, run_stackTop hp]
  cases xs.back? <;> rfl

theorem run_queueEnqueue (hp : h.payload? p = some (.queue xs)) :
    (queueEnqueue.run ⟨[.object t p, v], r, label⟩).run h =
      (.ok .void, h.setPayload p (.queue (xs.push v))) :=
  (run_bind_of_ok (a := v) rfl).trans (run_bind_of_ok (run_receiver hp rfl _))

/-- What both functions that look at the front of a queue do first. -/
theorem run_queueFront (hp : h.payload? p = some (.queue xs)) (function : String) :
    (queueFront function ⟨[.object t p], r, label⟩).run h =
      match xs[0]? with
      | some v => (.ok (p, xs, v), h)
      | none => (.error (.host function "queue is empty"), h) := by
  refine (run_bind_of_ok (run_receiver hp rfl _)).trans ?_
  show ((match xs[0]? with
    | some v => return (p, xs, v)
    | none => throw (.host function "queue is empty") : HostM _).run h) = _
  cases xs[0]? <;> rfl

theorem run_queueDequeue (hp : h.payload? p = some (.queue xs)) :
    (queueDequeue.run ⟨[.object t p], r, label⟩).run h =
      match xs[0]? with
      | some v => (.ok v, h.setPayload p (.queue (xs.extract 1 xs.size)))
      | none => (.error (.host "Queue.Dequeue" "queue is empty"), h) := by
  show ((queueFront _ _ >>= _ : HostM Value).run h) = _
  rw [run_bind, run_queueFront hp]
  cases xs[0]? <;> rfl

theorem run_queuePeek (hp : h.payload? p = some (.queue xs)) :
    (queuePeek.run ⟨[.object t p], r, label⟩).run h =
      match xs[0]? with
      | some v => (.ok v, h)
      | none => (.error (.host "Queue.Peek" "queue is empty"), h) := by
  show ((queueFront _ _ >>= _ : HostM Value).run h) = _
  rw [run_bind, run_queueFront hp]
  cases xs[0]? <;> rfl

theorem run_setAdd (hp : h.payload? p = some (.set items)) :
    (setAdd.run ⟨[.object t p, v], r, label⟩).run h =
      (.ok (.bool (items.insert v).1), h.setPayload p (.set (items.insert v).2)) :=
  (run_bind_of_ok (a := v) rfl).trans (run_bind_of_ok (run_receiver hp rfl _))

end TypedExpr.Builtin
