import TypedExpr.Proofs.Callables
import TypedExpr.Proofs.Collections.Abstract
import TypedExpr.Proofs.Collections.Functions
/-!
# Collections are what they stand for

Each operation on a collection, called through any handle of the object, answers as the abstract
collection does, and leaves what the abstract collection is then.

* `Collection.Represents`: the contents of an object are those of an abstract collection.
* `Operation.run_function`: one operation, as a function of the host.
* `Operation.Call.run_make`, `Operation.Call.run_makeAll`: one call in the world, and calls one
  after the other.
* `Collection.refines`: **every history of a new collection is that of an abstract one.**
-/

namespace TypedExpr

/-! ### Contents -/

/-- The contents of an object are those of an abstract collection. -/
inductive Collection.Represents : (kind : Collection) → Payload → kind.Model → Prop where
  | list {xs : Array Value} {ys : List Value} (h : xs.toList = ys) : Represents .list (.list xs) ys
  | stack {xs : Array Value} {ys : List Value} (h : xs.toList.reverse = ys) :
    Represents .stack (.stack xs) ys
  | queue {xs : Array Value} {ys : List Value} (h : xs.toList = ys) :
    Represents .queue (.queue xs) ys
  | set {items : ElementSet} {s : Finset Element}
    (hmem : ∀ v : Value, items.contains v = true ↔ v.element ∈ s) (hsize : items.size = s.card) :
    Represents .set (.set items) s

namespace Collection

theorem Represents.collection? {kind : Collection} {payload : Payload} {m : kind.Model}
    (h : kind.Represents payload m) : payload.collection? = some kind := by
  cases h <;> rfl

theorem represents_empty (kind : Collection) : kind.Represents kind.empty kind.new := by
  cases kind with
  | list => exact .list rfl
  | stack => exact .stack rfl
  | queue => exact .queue rfl
  | set =>
    refine .set (fun v => ⟨fun h => ?_, fun h => absurd h (Finset.notMem_empty _)⟩) rfl
    rw [ElementSet.contains_empty] at h
    cases h

theorem Represents.count {kind : Collection} {payload : Payload} {m : kind.Model}
    (h : kind.Represents payload m) : payload.count = kind.size m := by
  cases h with
  | list h | queue h => exact congrArg List.length h
  | stack h => exact (List.length_reverse ..).symm.trans (congrArg List.length h)
  | set _ hsize => exact hsize

theorem any_looseSame (xs : Array Value) {ys : List Value} (h : ∀ x, x ∈ xs ↔ x ∈ ys) (v : Value) :
    xs.any (·.looseSame v) = decide (Operation.Among v ys) := by
  rw [Bool.eq_iff_iff, Array.any_eq_true', decide_eq_true_iff]
  exact exists_congr fun x => and_congr_left fun _ => h x

theorem Represents.contains {kind : Collection} {payload : Payload} {m : kind.Model}
    (h : kind.Represents payload m) (v : Value) :
    (Operation.step m (.contains v)).1 = .ok (.bool (payload.contains v)) := by
  cases h with
  | @list xs _ h | @queue xs _ h =>
    refine congrArg (Except.ok ∘ Value.bool) (any_looseSame xs (fun _ => ?_) v).symm
    rw [← h, Array.mem_toList_iff]
  | @stack xs _ h =>
    refine congrArg (Except.ok ∘ Value.bool) (any_looseSame xs (fun _ => ?_) v).symm
    rw [← h, List.mem_reverse, Array.mem_toList_iff]
  | set hmem _ =>
    refine congrArg (Except.ok ∘ Value.bool) ?_
    rw [Bool.eq_iff_iff, decide_eq_true_iff]
    exact (hmem v).symm

/-- A set to which a value is added. -/
theorem represents_insert {items : ElementSet} {s : Finset Element}
    (h : Represents .set (.set items) s) (v : Value) :
    Represents .set (.set (items.insert v).2) (insert v.element s : Finset Element) := by
  obtain ⟨hmem, hsize⟩ : (∀ v : Value, items.contains v = true ↔ v.element ∈ s) ∧
      items.size = s.card := by
    cases h with
    | set hmem hsize => exact ⟨hmem, hsize⟩
  refine .set (fun w => ?_) ?_
  · rw [ElementSet.contains_insert, Finset.mem_insert, ← Value.element_eq_iff, hmem]
    exact or_congr_left eq_comm
  · rw [ElementSet.size_insert, Finset.card_insert_eq_ite, hsize]
    simp only [hmem]

end Collection

/-! ### One operation -/

namespace Heap

variable {h : Heap} {p q : Nat} {payload payload' : Payload}

theorem setPayload_self (hp : h.payload? p = some payload) : h.setPayload p payload = h := by
  obtain ⟨hlt, hget⟩ := Array.getElem?_eq_some_iff.mp hp
  have hset : h.objects.setIfInBounds p payload = h.objects := by
    subst hget
    rw [Array.setIfInBounds, dif_pos hlt, Array.set_getElem_self]
  rw [setPayload, hset]

theorem payload?_setPayload (hp : h.payload? p = some payload) :
    (h.setPayload p payload').payload? p = some payload' := by
  obtain ⟨hlt, -⟩ := Array.getElem?_eq_some_iff.mp hp
  exact Array.getElem?_setIfInBounds_self_of_lt hlt

theorem payload?_setPayload_of_ne (hq : p ≠ q) :
    (h.setPayload p payload').payload? q = h.payload? q :=
  Array.getElem?_setIfInBounds_ne hq

end Heap

namespace Operation

open TypedExpr.Builtin

variable {kind : Collection}

/-- The function behind an operation. -/
def function : {kind : Collection} → Operation kind → HostFunction
  | kind, count => collectionCount kind
  | kind, clear => collectionClear kind
  | kind, contains _ => collectionContains kind
  | .list, add _ | .list, insert _ => listAdd
  | .stack, add _ | .stack, insert _ => stackPush
  | .queue, add _ | .queue, insert _ => queueEnqueue
  | .set, add _ | .set, insert _ => setAdd
  | _, get _ => listGet
  | _, set _ _ => listSet
  | _, pop => stackPop
  | _, top => stackPeek
  | _, dequeue => queueDequeue
  | _, front => queuePeek

/-- What the function gets after the object. -/
def args : Operation kind → List Value
  | contains v | add v | insert v => [v]
  | get i => [.int i]
  | set i v => [.int i, v]
  | _ => []

/-- What a function does to the object at a place is what the operation does to an abstract
collection. If it fails, the contents are what they were. -/
def Matches (h : Heap) (p : Nat) (payload : Payload) (m : kind.Model) (op : Operation kind)
    (x : Except Fault Value × Heap) : Prop :=
  ∃ payload', x = ((step m op).1, h.setPayload p payload') ∧
    kind.Represents payload' (step m op).2 ∧ ∀ f, (step m op).1 = .error f → payload' = payload

section

variable {h : Heap} {p : Nat} {payload payload' : Payload} {m : kind.Model} {op : Operation kind}
  {x : Except Fault Value × Heap} {v : Value}

theorem Matches.kept (hp : h.payload? p = some payload) (hm : kind.Represents payload m)
    (hx : x = ((step m op).1, h)) (hs : (step m op).2 = m) : Matches h p payload m op x :=
  ⟨payload, by rw [hx, Heap.setPayload_self hp], by rw [hs]; exact hm, fun _ _ => rfl⟩

theorem Matches.changed (hx : x = (.ok v, h.setPayload p payload'))
    (hs : (step m op).1 = .ok v) (hm : kind.Represents payload' (step m op).2) :
    Matches h p payload m op x :=
  ⟨payload', by rw [hx, hs], hm, fun f hf => by rw [hs] at hf; cases hf⟩

end

section

variable {h : Heap} {p : Nat} {payload : Payload} {t r : Ty} {label : String} {xs : Array Value}
  {v : Value} {i : Int64}

theorem matches_count {m : kind.Model} (hp : h.payload? p = some payload)
    (hm : kind.Represents payload m) :
    Matches h p payload m count
      (((collectionCount kind).run ⟨[.object t p], r, label⟩).run h) := by
  refine .kept hp hm ?_ (congrArg Prod.snd (step_count m))
  rw [run_count hp hm.collection?, hm.count, step_count]

theorem matches_clear {m : kind.Model} (hp : h.payload? p = some payload)
    (hm : kind.Represents payload m) :
    Matches h p payload m clear
      (((collectionClear kind).run ⟨[.object t p], r, label⟩).run h) := by
  refine .changed (run_clear hp hm.collection?) (by cases kind <;> rfl) ?_
  cases kind <;> exact Collection.represents_empty _

theorem matches_contains {m : kind.Model} (hp : h.payload? p = some payload)
    (hm : kind.Represents payload m) :
    Matches h p payload m (contains v)
      (((collectionContains kind).run ⟨[.object t p, v], r, label⟩).run h) := by
  refine .kept hp hm ?_ (by cases kind <;> rfl)
  rw [run_contains hp hm.collection?, hm.contains]

theorem matches_add {m : kind.Model} (hp : h.payload? p = some payload)
    (hm : kind.Represents payload m) :
    Matches h p payload m (add v)
      (((add v : Operation kind).function.run ⟨[.object t p, v], r, label⟩).run h) := by
  cases hm with
  | list hm => exact .changed (run_listAdd hp) rfl (.list (by rw [Array.toList_push, hm]; rfl))
  | stack hm =>
    refine .changed (run_stackPush hp) rfl (.stack ?_)
    rw [Array.toList_push, List.reverse_append, hm]
    rfl
  | queue hm =>
    exact .changed (run_queueEnqueue hp) rfl (.queue (by rw [Array.toList_push, hm]; rfl))
  | set hmem hsize =>
    refine .changed (run_setAdd hp) ?_ (Collection.represents_insert (.set hmem hsize) v)
    refine congrArg (Except.ok ∘ Value.bool) ?_
    rw [ElementSet.insert_fst, Bool.eq_iff_iff, decide_eq_true_iff, Bool.not_eq_true',
      ← Bool.not_eq_true, hmem]

theorem matches_get {m : Collection.list.Model} (hp : h.payload? p = some payload)
    (hm : Collection.list.Represents payload m) :
    Matches h p payload m (get i)
      ((listGet.run ⟨[.object t p, .int i], r, label⟩).run h) := by
  cases hm with
  | @list xs _ hm =>
    subst hm
    by_cases hi : 0 ≤ i.toInt ∧ i.toInt.toNat < xs.toList.length
    · have hstep : @step .list xs.toList (get i) =
          (.ok xs.toList[i.toInt.toNat], xs.toList) := dif_pos hi
      refine .kept hp (.list rfl) ?_ (congrArg Prod.snd hstep)
      rw [run_listGet hp, hstep]
      unfold itemAt
      rw [Array.getElem?_eq_getElem hi.2]
      exact congrArg (·, h) (if_pos hi.1)
    · have hstep : @step .list xs.toList (get i) =
          (.error (.indexOutOfRange i.toInt xs.toList.length), xs.toList) := dif_neg hi
      refine .kept hp (.list rfl) ?_ (congrArg Prod.snd hstep)
      rw [run_listGet hp, hstep]
      unfold itemAt
      split
      · rename_i hget
        have hlt := (Array.getElem?_eq_some_iff.mp hget).1
        exact congrArg (·, h) (if_neg fun h0 => hi ⟨h0, hlt⟩)
      · rfl

theorem matches_set {m : Collection.list.Model} (hp : h.payload? p = some payload)
    (hm : Collection.list.Represents payload m) :
    Matches h p payload m (set i v)
      ((listSet.run ⟨[.object t p, .int i, v], r, label⟩).run h) := by
  cases hm with
  | @list xs _ hm =>
    subst hm
    by_cases hi : 0 ≤ i.toInt ∧ i.toInt.toNat < xs.toList.length
    · have hstep : @step .list xs.toList (set i v) =
          (.ok .void, xs.toList.set i.toInt.toNat v) := if_pos hi
      have hreplace : replaceAt xs i.toInt v = .ok (xs.setIfInBounds i.toInt.toNat v) := if_pos hi
      refine .changed (by rw [run_listSet hp, hreplace]) (congrArg Prod.fst hstep) ?_
      rw [hstep]
      exact .list Array.toList_setIfInBounds
    · have hstep : @step .list xs.toList (set i v) =
          (.error (.indexOutOfRange i.toInt xs.toList.length), xs.toList) := if_neg hi
      have hreplace : replaceAt xs i.toInt v = .error (.indexOutOfRange i.toInt xs.size) :=
        if_neg hi
      refine .kept hp (.list rfl) ?_ (congrArg Prod.snd hstep)
      rw [run_listSet hp, hreplace, hstep]
      rfl

/-- The items of a stack, with the one on top if there is one. -/
theorem stack_cases (xs : Array Value) :
    xs = #[] ∨ ∃ ys v, xs = Array.push ys v ∧ xs.toList.reverse = v :: ys.toList.reverse := by
  cases hback : xs.back? with
  | none => exact .inl (Array.back?_eq_none_iff.mp hback)
  | some v =>
    obtain ⟨ys, rfl⟩ := Array.back?_eq_some_iff.mp hback
    exact .inr ⟨ys, v, rfl, by rw [Array.toList_push, List.reverse_append]; rfl⟩

theorem matches_pop {m : Collection.stack.Model} (hp : h.payload? p = some payload)
    (hm : Collection.stack.Represents payload m) :
    Matches h p payload m pop ((stackPop.run ⟨[.object t p], r, label⟩).run h) := by
  cases hm with
  | @stack xs _ hm =>
    subst hm
    obtain rfl | ⟨ys, v, rfl, htop⟩ := stack_cases xs
    · exact .kept hp (.stack rfl) (run_stackPop hp) rfl
    · rw [htop]
      have hrun : (stackPop.run ⟨[.object t p], r, label⟩).run h =
          (.ok v, h.setPayload p (.stack ys)) := by
        rw [run_stackPop hp, Array.back?_push, Array.pop_push]
      exact .changed hrun rfl (.stack rfl)

theorem matches_top {m : Collection.stack.Model} (hp : h.payload? p = some payload)
    (hm : Collection.stack.Represents payload m) :
    Matches h p payload m top ((stackPeek.run ⟨[.object t p], r, label⟩).run h) := by
  cases hm with
  | @stack xs _ hm =>
    subst hm
    obtain rfl | ⟨ys, v, rfl, htop⟩ := stack_cases xs
    · exact .kept hp (.stack rfl) (run_stackPeek hp) rfl
    · rw [htop]
      refine .kept hp (.stack htop) ?_ rfl
      rw [run_stackPeek hp, Array.back?_push]
      rfl

theorem matches_dequeue {m : Collection.queue.Model} (hp : h.payload? p = some payload)
    (hm : Collection.queue.Represents payload m) :
    Matches h p payload m dequeue ((queueDequeue.run ⟨[.object t p], r, label⟩).run h) := by
  cases hm with
  | @queue xs _ hm =>
    subst hm
    obtain ⟨_ | ⟨x, xs⟩⟩ := xs
    · exact .kept hp (.queue rfl) (run_queueDequeue hp) rfl
    · exact .changed (run_queueDequeue hp) rfl (.queue (by simp; rfl))

theorem matches_front {m : Collection.queue.Model} (hp : h.payload? p = some payload)
    (hm : Collection.queue.Represents payload m) :
    Matches h p payload m front ((queuePeek.run ⟨[.object t p], r, label⟩).run h) := by
  cases hm with
  | @queue xs _ hm =>
    subst hm
    obtain ⟨_ | ⟨x, xs⟩⟩ := xs
    · exact .kept hp (.queue rfl) (run_queuePeek hp) rfl
    · exact .kept hp (.queue rfl) (run_queuePeek hp) rfl

end

/-- One operation, as a function of the host. -/
theorem run_function {h : Heap} {p : Nat} {payload : Payload} {m : kind.Model}
    (hp : h.payload? p = some payload) (hm : kind.Represents payload m) (op : Operation kind)
    (t r : Ty) (label : String) :
    Matches h p payload m op
      ((op.function.run ⟨.object t p :: op.args, r, label⟩).run h) := by
  cases op with
  | count => exact matches_count hp hm
  | clear => exact matches_clear hp hm
  | contains v => exact matches_contains hp hm
  | add v => exact matches_add hp hm
  | insert v =>
    have hstep : step m (insert v) = step m (add v) := by cases kind <;> rfl
    have hfunction : (insert v : Operation kind).function = (add v : Operation kind).function := by
      cases kind <;> rfl
    unfold Matches
    rw [hstep, hfunction]
    exact matches_add hp hm
  | get i => exact matches_get hp hm
  | set i v => exact matches_set hp hm
  | pop => exact matches_pop hp hm
  | top => exact matches_top hp hm
  | dequeue => exact matches_dequeue hp hm
  | front => exact matches_front hp hm

end Operation

/-! ### Histories -/

/-- The number of the constructor of a kind of collection; those of its other functions follow. -/
def Collection.first : Collection → CallableId
  | .list => 32
  | .stack => 40
  | .queue => 48
  | .set => 56

/-- The number of an operation among the functions of its kind. -/
def Operation.number {kind : Collection} : Operation kind → Nat
  | count => 1
  | clear => 2
  | contains _ => 3
  | add _ => 4
  | insert _ => 5
  | get _ | pop | dequeue => 6
  | set _ _ | top | front => 7

namespace Registry

open TypedExpr.Builtin

theorem callable?_first (decls : List Declaration) (kind : Collection) :
    ∃ name, (declared decls).callable? kind.first = some ⟨name, newCollection kind⟩ := by
  cases kind with
  | list => exact callable?_declared_collection decls (i := 0) rfl
  | stack => exact callable?_declared_collection decls (i := 8) rfl
  | queue => exact callable?_declared_collection decls (i := 16) rfl
  | set => exact callable?_declared_collection decls (i := 24) rfl

theorem callable?_operation (decls : List Declaration) {kind : Collection}
    (op : Operation kind) :
    ∃ name, (declared decls).callable? (kind.first + op.number) = some ⟨name, op.function⟩ := by
  have hfunction : collectionFunctions[kind.first - 32 + op.number]? = some op.function := by
    cases kind <;> cases op <;> rfl
  have hid : 32 + (kind.first - 32 + op.number) = kind.first + op.number := by
    cases kind <;> exact (Nat.add_assoc ..).symm
  exact hid ▸ callable?_declared_collection decls hfunction

end Registry

/-- A call of an operation: the type that the handle carries, the type expected of the result, and
the operation. -/
structure Operation.Call (kind : Collection) where
  handle : Ty
  result : Ty
  operation : Operation kind

namespace Operation.Call

variable {kind : Collection}

/-- It is made on the object at a place. -/
def make (decls : List Declaration) (p : Nat) (u : Call kind) : Run Value :=
  (Registry.declared decls).call (kind.first + u.operation.number)
    (.object u.handle p :: u.operation.args) u.result

/-- The answers to calls one after the other, and the world after them. A call that fails does not
keep those after it from being made. -/
def makeAll (decls : List Declaration) (p : Nat) :
    List (Call kind) → World → List (Except Fault Value) × World
  | [], w => ([], w)
  | u :: us, w =>
    let (answer, w) := (u.make decls p).run w
    let (answers, w) := makeAll decls p us w
    (answer :: answers, w)

/-- The object at a place is what an abstract collection is. -/
def Holds (w : World) (p : Nat) (m : kind.Model) : Prop :=
  ∃ payload, w.heap.payload? p = some payload ∧ kind.Represents payload m

variable (decls : List Declaration) {w : World} {p : Nat} {m : kind.Model}

/-- One operation, as a call in the world: nothing but the contents of the object may change, and
these change only if the call succeeds. -/
theorem run_make (h : Holds w p m) (u : Call kind) :
    ((u.make decls p).run w).1 = (step m u.operation).1 ∧
      Holds ((u.make decls p).run w).2 p (step m u.operation).2 ∧
      (∃ payload, ((u.make decls p).run w).2.heap = w.heap.setPayload p payload) ∧
      ∀ f, ((u.make decls p).run w).1 = .error f → ((u.make decls p).run w).2.heap = w.heap := by
  obtain ⟨payload, hp, hm⟩ := h
  obtain ⟨name, hid⟩ := Registry.callable?_operation decls u.operation
  obtain ⟨payload', hrun, hm', hfail⟩ :=
    run_function hp hm u.operation u.handle u.result (w.catalog.typeLabel u.result)
  unfold make
  rw [Registry.run_call hid, hrun]
  refine ⟨rfl, ⟨payload', Heap.payload?_setPayload hp, hm'⟩, ⟨payload', rfl⟩, fun f hf => ?_⟩
  rw [hfail f hf]
  exact Heap.setPayload_self hp

/-- Calls one after the other. -/
theorem run_makeAll (h : Holds w p m) (us : List (Call kind)) :
    (makeAll decls p us w).1 = (steps m (us.map (·.operation))).1 ∧
      Holds (makeAll decls p us w).2 p (steps m (us.map (·.operation))).2 ∧
      (∀ q ≠ p, (makeAll decls p us w).2.heap.payload? q = w.heap.payload? q) ∧
      (makeAll decls p us w).2.heap.arrays = w.heap.arrays := by
  induction us generalizing w m with
  | nil => exact ⟨rfl, h, fun _ _ => rfl, rfl⟩
  | cons u us ih =>
    obtain ⟨hanswer, hholds, ⟨payload, hheap⟩, -⟩ := run_make decls h u
    obtain ⟨hanswers, hholds', hothers, harrays⟩ := ih hholds
    refine ⟨?_, hholds', fun q hq => (hothers q hq).trans ?_, harrays.trans ?_⟩
    · exact congrArg₂ List.cons hanswer hanswers
    · rw [hheap, Heap.payload?_setPayload_of_ne hq.symm]
    · rw [hheap]
      rfl

end Operation.Call

namespace Collection

open TypedExpr.Operation

/-- A new object without elements. -/
theorem run_new (decls : List Declaration) (kind : Collection) (t : Ty) (w : World) :
    ∃ w', ((Registry.declared decls).call kind.first [] t).run w =
        (.ok (.object t w.heap.objects.size), w') ∧
      Call.Holds w' w.heap.objects.size kind.new ∧
      (∀ q ≠ w.heap.objects.size, w'.heap.payload? q = w.heap.payload? q) ∧
      w'.heap.arrays = w.heap.arrays := by
  obtain ⟨name, hid⟩ := Registry.callable?_first decls kind
  rw [Registry.run_call hid, Builtin.run_newCollection]
  refine ⟨_, rfl, ⟨kind.empty, ?_, represents_empty kind⟩, fun q hq => ?_, rfl⟩
  · exact Array.getElem?_push_size
  · refine (Array.getElem?_push ..).trans (if_neg hq)

/-- **Collections are what they stand for.** A new collection of any kind is an object of its own.
Whatever operations are called on it one after the other, through handles of any type: the answers
are those of the abstract collection, and what is asked next is answered so, too. An operation that
fails changes nothing. `Count` is the number of elements, as long as that is an integer. An item
that is added to a set is answered by whether the set did not contain it just before. No other
object and no array is touched. -/
theorem refines (decls : List Declaration) (kind : Collection) (t : Ty) (w : World)
    (us : List (Call kind)) :
    ∃ p w₁, ((Registry.declared decls).call kind.first [] t).run w = (.ok (.object t p), w₁) ∧
      w.heap.payload? p = none ∧
      let m := (steps kind.new (us.map (·.operation))).2
      let w₂ := (Call.makeAll decls p us w₁).2
      (Call.makeAll decls p us w₁).1 = (steps kind.new (us.map (·.operation))).1 ∧
      (∀ u : Call kind, ((u.make decls p).run w₂).1 = (step m u.operation).1 ∧
        ∀ f, ((u.make decls p).run w₂).1 = .error f →
          ((u.make decls p).run w₂).2.heap = w₂.heap ∧ (step m u.operation).2 = m) ∧
      (kind.size m < 2 ^ 63 → ∀ u : Call kind, u.operation = .count →
        ∃ n : Int64, ((u.make decls p).run w₂).1 = .ok (.int n) ∧ n.toInt = kind.size m) ∧
      (kind = .set → ∀ (v : Value) (asked added : Call kind), asked.operation = .contains v →
        added.operation = .add v →
        ∃ b, (Call.makeAll decls p [asked, added] w₂).1 = [.ok (.bool b), .ok (.bool !b)]) ∧
      (∀ q ≠ p, w₂.heap.payload? q = w.heap.payload? q) ∧ w₂.heap.arrays = w.heap.arrays := by
  obtain ⟨w₁, hnew, hholds, hothers, harrays⟩ := run_new decls kind t w
  obtain ⟨hanswers, hholds', hothers', harrays'⟩ := Call.run_makeAll decls hholds us
  refine ⟨_, w₁, hnew, Array.getElem?_size, hanswers, fun u => ?_, fun hsize u hu => ?_, ?_,
    fun q hq => (hothers' q hq).trans (hothers q hq), harrays'.trans harrays⟩
  · obtain ⟨hanswer, -, -, hfail⟩ := Call.run_make decls hholds' u
    exact ⟨hanswer, fun f hf => ⟨hfail f hf, step_of_error (hanswer.symm.trans hf)⟩⟩
  · have hlast {n : Nat} (h : n < 2 ^ 63) : (n : Int) ≤ Int64.maxValue.toInt := by
      rw [show Int64.maxValue.toInt = 2 ^ 63 - 1 from rfl]
      omega
    refine ⟨_, ?_, Builtin.toInt_lengthInt (hlast hsize)⟩
    rw [(Call.run_make decls hholds' u).1, hu, step_count]
    rfl
  · rintro rfl v asked added hasked hadded
    rw [(Call.run_makeAll decls hholds' [asked, added]).1]
    simp only [List.map_cons, List.map_nil, hasked, hadded]
    exact steps_ask_add _ v

/-- What an item is added by. -/
def adder : Collection → String
  | .list | .set => "Add"
  | .stack => "Push"
  | .queue => "Enqueue"

/-- What is found for a collection of items of a type, by the names of the operations and in the
order of their numbers. -/
def found (reg : Registry) (kind : Collection) (item : Ty) :
    List (Except ResolveError CallableId) :=
  let t : Ty := .named kind.place [item]
  let method (name : String) (args : List Ty) : Except ResolveError CallableId :=
    (reg.resolveMethod t name [] args false).map (·.callable)
  let own : List (Except ResolveError CallableId) := match kind with
    | .list => [(reg.resolveIndexer t).map (·.get), (reg.resolveIndexer t).map (·.set.getD 0)]
    | .stack => [method "Pop" [], method "Peek" []]
    | .queue => [method "Dequeue" [], method "Peek" []]
    | .set => []
  [(reg.resolveConstructor t []).map (·.callable),
    (reg.resolveProperty t "Count" false).map (·.get), method "Clear" [],
    method "Contains" [item], method kind.adder [item],
    (reg.resolveInsertion t).map (·.callable)] ++ own

/-- Operations on a set of doubles: both zeros are added, and what is no number twice. -/
def doubles : List (Call .set) :=
  [add (.double 0.0), add (.double (-0.0)), add (.double Double.nan), insert (.double Double.nan),
    contains (.double (-0.0)), count].map fun op => ⟨.named 7 [.double], .bool, op⟩

/-- It covers what the standard registry finds by name. In a set of doubles both zeros are one
element, and so is all that is no number. -/
theorem refines_doubles :
    (∀ kind : Collection,
      (Registry.declared []).resolveType (.named kind.name [.named "double" []]) =
        .ok (.named kind.place [.double]) ∧
      ∀ n < (found (Registry.declared []) kind .double).length,
        (found (Registry.declared []) kind .double)[n]? = some (.ok (kind.first + n))) ∧
    ∃ p w, ((Registry.declared []).call (first .set) [] (.named 7 [.double])).run default =
        (.ok (.object (.named 7 [.double]) p), w) ∧
      (Call.makeAll [] p doubles w).1 =
        [.ok (.bool true), .ok (.bool false), .ok (.bool true), .ok (.bool false),
          .ok (.bool true), .ok (.int 2)] := by
  refine ⟨fun kind => by cases kind <;> decide +kernel, ?_⟩
  obtain ⟨p, w, hnew, -, hanswers, -⟩ := refines [] .set (.named 7 [.double]) default doubles
  exact ⟨p, w, hnew, hanswers.trans (by decide +kernel)⟩

end Collection

end TypedExpr
