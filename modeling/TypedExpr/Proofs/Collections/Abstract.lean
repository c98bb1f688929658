import TypedExpr.Builtin.Collections
import TypedExpr.Proofs.Collections.Elements
/-!
# Abstract collections

What the operations of the collections mean: a list, a stack as the list of its items from the top
on, a queue as the list of its items from the front on, and a finite set of elements.

* `Operation`: the operations of each kind of collection.
* `Collection.Model`: what a collection of a kind is.
* `Operation.step`: the answer to an operation, and what the collection is after it.
* `Operation.step_of_error`: an operation that fails changes nothing.
-/

namespace TypedExpr

/-- The operations of a kind of collection. All kinds can be asked for the number of elements and
for an element, emptied, and given an item, by the operation of their own or as an initializer
does. -/
inductive Operation : Collection → Type where
  | count {kind : Collection} : Operation kind
  | clear {kind : Collection} : Operation kind
  | contains {kind : Collection} (v : Value) : Operation kind
  | add {kind : Collection} (v : Value) : Operation kind
  | insert {kind : Collection} (v : Value) : Operation kind
  | get (index : Int64) : Operation .list
  | set (index : Int64) (v : Value) : Operation .list
  | pop : Operation .stack
  | top : Operation .stack
  | dequeue : Operation .queue
  | front : Operation .queue

/-- What a collection of a kind is: a list, a stack from the top on, a queue from the front on, and
a finite set. -/
def Collection.Model : Collection → Type
  | .list | .stack | .queue => List Value
  | .set => Finset Element

/-- A collection without elements. -/
def Collection.new : (kind : Collection) → kind.Model
  | .list | .stack | .queue => ([] : List Value)
  | .set => (∅ : Finset Element)

/-- How many elements there are. -/
def Collection.size : (kind : Collection) → kind.Model → Nat
  | .list, xs | .stack, xs | .queue, xs => List.length xs
  | .set, s => Finset.card s

namespace Operation

/-- A value is among the items, by the equality of the language. -/
def Among (v : Value) (xs : List Value) : Prop := ∃ x ∈ xs, x.looseSame v

instance (v : Value) (xs : List Value) : Decidable (Among v xs) :=
  inferInstanceAs (Decidable (∃ x ∈ xs, _))

/-- An operation on a list. An index is one from zero up to the length. -/
def onList (xs : List Value) : Operation .list → Except Fault Value × List Value
  | count => (.ok (Builtin.lengthValue xs.length), xs)
  | clear => (.ok .void, [])
  | contains v => (.ok (.bool (Among v xs)), xs)
  | add v | insert v => (.ok .void, xs ++ [v])
  | get i =>
    if h : 0 ≤ i.toInt ∧ i.toInt.toNat < xs.length then (.ok (xs[i.toInt.toNat]), xs)
    else (.error (.indexOutOfRange i.toInt xs.length), xs)
  | set i v =>
    if 0 ≤ i.toInt ∧ i.toInt.toNat < xs.length then (.ok .void, xs.set i.toInt.toNat v)
    else (.error (.indexOutOfRange i.toInt xs.length), xs)

/-- An operation on a stack, the item on top of which comes first. -/
def onStack (xs : List Value) : Operation .stack → Except Fault Value × List Value
  | count => (.ok (Builtin.lengthValue xs.length), xs)
  | clear => (.ok .void, [])
  | contains v => (.ok (.bool (Among v xs)), xs)
  | add v | insert v => (.ok .void, v :: xs)
  | pop =>
    match xs with
    | [] => (.error (.host "Stack.Pop" "stack is empty"), [])
    | x :: xs => (.ok x, xs)
  | top =>
    match xs with
    | [] => (.error (.host "Stack.Peek" "stack is empty"), [])
    | x :: xs => (.ok x, x :: xs)

/-- An operation on a queue, the item at the front of which comes first. -/
def onQueue (xs : List Value) : Operation .queue → Except Fault Value × List Value
  | count => (.ok (Builtin.lengthValue xs.length), xs)
  | clear => (.ok .void, [])
  | contains v => (.ok (.bool (Among v xs)), xs)
  | add v | insert v => (.ok .void, xs ++ [v])
  | dequeue =>
    match xs with
    | [] => (.error (.host "Queue.Dequeue" "queue is empty"), [])
    | x :: xs => (.ok x, xs)
  | front =>
    match xs with
    | [] => (.error (.host "Queue.Peek" "queue is empty"), [])
    | x :: xs => (.ok x, x :: xs)

/-- An operation on a set. An item is answered by whether it was no element before. -/
def onSet (s : Finset Element) : Operation .set → Except Fault Value × Finset Element
  | count => (.ok (Builtin.lengthValue s.card), s)
  | clear => (.ok .void, ∅)
  | contains v => (.ok (.bool (v.element ∈ s)), s)
  | add v | insert v => (.ok (.bool (v.element ∉ s)), Insert.insert v.element s)

/-- The answer to an operation, and what the collection is after it. -/
def step : {kind : Collection} → kind.Model → Operation kind → Except Fault Value × kind.Model
  | .list => onList
  | .stack => onStack
  | .queue => onQueue
  | .set => onSet

theorem step_count {kind : Collection} (m : kind.Model) :
    step m count = (.ok (Builtin.lengthValue (kind.size m)), m) := by
  cases kind <;> rfl

/-- The answers to operations one after the other, and what the collection is after them. -/
def steps {kind : Collection} (m : kind.Model) :
    List (Operation kind) → List (Except Fault Value) × kind.Model
  | [] => ([], m)
  | op :: ops =>
    let (answer, m) := step m op
    let (answers, m) := steps m ops
    (answer :: answers, m)

/-- An item is new to a set if it was none of its elements just before. -/
theorem steps_ask_add (s : Finset Element) (v : Value) :
    ∃ b, (@steps .set s [contains v, add v]).1 = [.ok (.bool b), .ok (.bool !b)] := by
  refine ⟨decide (v.element ∈ s), ?_⟩
  rw [← decide_not]
  rfl

/-- An operation that fails changes nothing. -/
theorem step_of_error {kind : Collection} {m : kind.Model} {op : Operation kind} {f : Fault}
    (h : (step m op).1 = .error f) : (step m op).2 = m := by
  cases op with
  | get i =>
    show (onList m (get i)).2 = m
    unfold onList
    dsimp only
    split <;> rfl
  | set i v =>
    change (onList m (set i v)).1 = _ at h
    show (onList m (set i v)).2 = m
    unfold onList at h ⊢
    dsimp only at h ⊢
    split at h
    · cases h
    · rename_i hi
      rw [if_neg hi]
  | pop | top | dequeue | front =>
    cases m with
    | nil => rfl
    | cons x xs => cases h
  | _ => cases kind <;> cases h

end Operation

end TypedExpr
