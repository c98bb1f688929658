import TypedExpr.Builtin.Standard
import TypedExpr.Proofs.Soundness.Keeps
/-!
# Functions that are built in

Every function that is built in may be called with arguments of its parameter types: a receiver of
the type it is a member of, numbers and texts where it takes some, and items of the type of the
items of a collection.
-/

namespace TypedExpr.Builtin

variable {reg : Registry} {l : Layout}

/-! ### Values -/

theorem has_int (n : Int64) : reg.Has l .int (.int n) := .of_type? (.int n) rfl

theorem has_double (x : Float) : reg.Has l .double (.double x) := .of_type? (.double x) rfl

theorem has_bool (b : Bool) : reg.Has l .bool (.bool b) := .of_type? (.bool b) rfl

theorem has_str (s : String) : reg.Has l .string (.str s) := .of_type? (.str s) rfl

theorem has_void : reg.Has l .void .void := ⟨.void, fun h => absurd rfl h⟩

theorem yields_itemAt {items : Array Value} (index : Int) :
    Yields Fault.Expected (fun v => v ∈ items) (itemAt items index) := by
  unfold itemAt
  split
  · rename_i v hv
    split
    · exact .ok (Array.mem_of_getElem? hv)
    · exact .error trivial
  · exact .error trivial

theorem yields_replaceAt {items : Array Value} (index : Int) (v : Value) :
    Yields Fault.Expected (fun replaced => ∀ w ∈ replaced, w = v ∨ w ∈ items)
      (replaceAt items index v) := by
  unfold replaceAt
  split
  · exact .ok fun w hw => (Array.mem_or_eq_of_mem_setIfInBounds hw).symm
  · exact .error trivial

theorem yields_substring (s : String) (start count : Int64) :
    Yields Fault.Expected (reg.Has l .string) (substring s start count) := by
  unfold substring
  dsimp only
  split
  · exact .error trivial
  · split
    · exact .error trivial
    · split
      · exact .ok (has_str _)
      · exact .error trivial

/-! ### Receivers -/

section Receiver

variable (hr : reg.Rooted) {params args : List Ty} {call : HostCall} {t : Ty} {kind : Collection}
  (h : List.Forall₂ (reg.Has l) params call.args)

include hr h

theorem keeps_receiver (hp : params[0]? = some (.named kind.place args)) (function : String) :
    reg.host.Keeps l (receiver function kind call) fun l' r =>
      l' = l ∧ l.objects[r.1]? = some (.named kind.place args) ∧
        r.2.collection? = some kind ∧ r.2.Typed reg l (.named kind.place args) := by
  have hd : kind.place < Registry.firstUser := by cases kind <;> decide
  refine (HostCall.keeps_object h hr hp hd function).bind ?_
  rintro l' p - ⟨rfl, hplace⟩
  refine Discipline.Keeps.get.bind ?_
  rintro l'' heap - ⟨rfl, hheap⟩
  split
  · rename_i payload hpayload
    refine .ite (fun hk => ?_) (fun _ => .throw trivial)
    exact .pure ⟨rfl, hplace, hk, Heap.Typed.payload hheap hplace hpayload⟩
  · exact .throw trivial

end Receiver

/-! ### Functions on numbers -/

section Functions

theorem safe_constant (x : Float) :
    HostFunction.Safe reg (.quiet fun _ => return .double x) [] .double := by
  intro l args label h
  exact .pure (has_double x)

variable (hr : reg.Rooted)

include hr

theorem safe_doubleFunction (name : String) (f : Float → Float) :
    (doubleFunction name f).Safe reg [.double] .double := by
  intro l args label h
  refine (HostCall.keeps_double h hr rfl name).bind ?_
  rintro _ x - rfl
  exact .pure (has_double _)

theorem safe_doubleFunction₂ (name : String) (f : Float → Float → Float) :
    (doubleFunction₂ name f).Safe reg [.double, .double] .double := by
  intro l args label h
  refine (HostCall.keeps_double h hr rfl name).bind ?_
  rintro _ x - rfl
  refine (HostCall.keeps_double h hr rfl name).bind ?_
  rintro _ y - rfl
  exact .pure (has_double _)

theorem safe_intFunction₂ (name : String) (f : Int64 → Int64 → Int64) :
    (intFunction₂ name f).Safe reg [.int, .int] .int := by
  intro l args label h
  refine (HostCall.keeps_int h hr rfl name).bind ?_
  rintro _ a - rfl
  refine (HostCall.keeps_int h hr rfl name).bind ?_
  rintro _ b - rfl
  exact .pure (has_int _)

theorem safe_absInt : absInt.Safe reg [.int] .int := by
  intro l args label h
  refine (HostCall.keeps_int h hr rfl _).bind ?_
  rintro _ a - rfl
  exact HostM.keeps_lift ((yields_fit "abs" _).map fun n _ => has_int n)

theorem safe_clampInt : clampInt.Safe reg [.int, .int, .int] .int := by
  intro l args label h
  refine (HostCall.keeps_int h hr rfl _).bind ?_
  rintro _ a - rfl
  refine (HostCall.keeps_int h hr rfl _).bind ?_
  rintro _ lo - rfl
  refine (HostCall.keeps_int h hr rfl _).bind ?_
  rintro _ hi - rfl
  exact .ite (fun _ => .throw trivial) (fun _ => .pure (has_int _))

theorem safe_clampDouble : clampDouble.Safe reg [.double, .double, .double] .double := by
  intro l args label h
  refine (HostCall.keeps_double h hr rfl _).bind ?_
  rintro _ x - rfl
  refine (HostCall.keeps_double h hr rfl _).bind ?_
  rintro _ lo - rfl
  refine (HostCall.keeps_double h hr rfl _).bind ?_
  rintro _ hi - rfl
  exact .ite (fun _ => .throw trivial) (fun _ => .pure (has_double _))

theorem safe_repeatValue (elem : Ty) : repeatValue.Safe reg [elem, .int] (.array elem) := by
  intro l args label h
  refine (HostCall.keeps_arg h rfl _).bind ?_
  rintro _ v - ⟨rfl, hv⟩
  refine (HostCall.keeps_int h hr rfl _).bind ?_
  rintro _ count - rfl
  refine .ite (fun _ => .throw trivial) (fun _ => HostM.keeps_newArray fun w hw => ?_)
  rw [Array.eq_of_mem_replicate hw]
  exact hv

/-! ### Operations of the collections -/

omit hr in
theorem typed_of_items (kind : Collection) {payload : Payload} {t : Ty}
    (hk : payload.collection? = some kind) (h : ∀ v ∈ items payload, reg.Has l t.itemType v) :
    payload.Typed reg l t := by
  refine ⟨h, ?_⟩
  rintro _ _ rfl
  cases hk

omit hr in
theorem typed_empty (kind : Collection) (t : Ty) : kind.empty.Typed reg l t := by
  refine typed_of_items kind (by cases kind <;> rfl) fun v hv => ?_
  cases kind <;> simp [Collection.empty, items] at hv

omit hr in
theorem has_push {vs : Array Value} {t : Ty} {v : Value} (h : ∀ w ∈ vs, reg.Has l t w)
    (hv : reg.Has l t v) : ∀ w ∈ vs.push v, reg.Has l t w := by
  intro w hw
  rcases Array.mem_push.1 hw with hw | rfl
  · exact h w hw
  · exact hv

variable {args : List Ty}

omit hr in
theorem safe_newCollection (kind : Collection) {params : List Ty} :
    (newCollection kind).Safe reg params (.named kind.place args) := by
  intro l vs label _
  exact HostM.keeps_newObject (by cases kind <;> decide) (typed_empty kind _)

theorem safe_collectionCount (kind : Collection) :
    (collectionCount kind).Safe reg [.named kind.place args] .int := by
  intro l vs label h
  refine (keeps_receiver hr h rfl _).bind ?_
  rintro _ ⟨p, payload⟩ - -
  exact .pure (has_int _)

theorem safe_collectionClear (kind : Collection) :
    (collectionClear kind).Safe reg [.named kind.place args] .void := by
  intro l vs label h
  refine (keeps_receiver hr h rfl _).bind ?_
  rintro _ ⟨p, payload⟩ - ⟨rfl, hp, -⟩
  refine (HostM.keeps_setPayload (Q := fun _ _ => True) hp (typed_empty kind _) trivial).bind ?_
  intro _ _ _ _
  exact .pure has_void

theorem safe_collectionContains (kind : Collection) (item : Ty) :
    (collectionContains kind).Safe reg [.named kind.place args, item] .bool := by
  intro l vs label h
  refine (HostCall.keeps_arg h rfl _).bind ?_
  rintro _ v - ⟨rfl, -⟩
  refine (keeps_receiver hr h rfl _).bind ?_
  rintro _ ⟨p, payload⟩ - -
  exact .pure (has_bool _)

omit hr in
/-- Replacing the items of a collection. -/
theorem keeps_setItems (kind : Collection) {p : Nat} {payload : Payload}
    (hp : l.objects[p]? = some (.named kind.place args)) (hk : payload.collection? = some kind)
    (h : ∀ v ∈ items payload, reg.Has l (Ty.named kind.place args).itemType v) {v : Value} {t : Ty}
    (hv : reg.Has l t v) :
    reg.host.Keeps l (do HostM.setPayload p payload; return v) fun l' v => reg.Has l' t v := by
  have hset := HostM.keeps_setPayload (Q := fun l' _ => l' = l) hp (typed_of_items kind hk h) rfl
  refine hset.bind ?_
  rintro _ _ - rfl
  exact .pure hv

theorem safe_listAdd :
    listAdd.Safe reg [.named Collection.list.place args, args.getD 0 .object] .void := by
  intro l vs label h
  refine (HostCall.keeps_arg h rfl _).bind ?_
  rintro _ v - ⟨rfl, hv⟩
  refine (keeps_receiver hr h rfl _).bind ?_
  rintro _ ⟨p, payload⟩ - ⟨rfl, hp, -, hpayload⟩
  refine keeps_setItems .list hp rfl ?_ has_void
  exact has_push hpayload.items hv

theorem safe_listGet :
    listGet.Safe reg [.named Collection.list.place args, .int] (args.getD 0 .object) := by
  intro l vs label h
  refine (HostCall.keeps_int h hr rfl _).bind ?_
  rintro _ index - rfl
  refine (keeps_receiver hr h rfl _).bind ?_
  rintro _ ⟨p, payload⟩ - ⟨rfl, -, -, hpayload⟩
  exact HostM.keeps_lift ((yields_itemAt _).mono hpayload.items)

theorem safe_listSet :
    listSet.Safe reg [.named Collection.list.place args, .int, args.getD 0 .object] .void := by
  intro l vs label h
  refine (HostCall.keeps_int h hr rfl _).bind ?_
  rintro _ index - rfl
  refine (HostCall.keeps_arg h rfl _).bind ?_
  rintro _ v - ⟨rfl, hv⟩
  refine (keeps_receiver hr h rfl _).bind ?_
  rintro l' ⟨p, payload⟩ - ⟨rfl, hp, -, hpayload⟩
  refine (HostM.keeps_lift
    (Q := fun l'' replaced => l'' = l' ∧ ∀ w ∈ replaced, w = v ∨ w ∈ items payload)
    ((yields_replaceAt _ v).mono fun _ hw => ⟨rfl, hw⟩)).bind ?_
  rintro _ replaced - ⟨rfl, hreplaced⟩
  refine keeps_setItems .list hp rfl (fun w hw => ?_) has_void
  rcases hreplaced w hw with rfl | hw
  · exact hv
  · exact hpayload.items w hw

theorem safe_stackPush :
    stackPush.Safe reg [.named Collection.stack.place args, args.getD 0 .object] .void := by
  intro l vs label h
  refine (HostCall.keeps_arg h rfl _).bind ?_
  rintro _ v - ⟨rfl, hv⟩
  refine (keeps_receiver hr h rfl _).bind ?_
  rintro _ ⟨p, payload⟩ - ⟨rfl, hp, -, hpayload⟩
  refine keeps_setItems .stack hp rfl ?_ has_void
  exact has_push hpayload.items hv

theorem safe_queueEnqueue :
    queueEnqueue.Safe reg [.named Collection.queue.place args, args.getD 0 .object] .void := by
  intro l vs label h
  refine (HostCall.keeps_arg h rfl _).bind ?_
  rintro _ v - ⟨rfl, hv⟩
  refine (keeps_receiver hr h rfl _).bind ?_
  rintro _ ⟨p, payload⟩ - ⟨rfl, hp, -, hpayload⟩
  refine keeps_setItems .queue hp rfl ?_ has_void
  exact has_push hpayload.items hv

/-- What is on top of a stack or at the front of a queue, and the items it is one of. -/
def IsEnd (reg : Registry) (l : Layout) (t : Ty) (r : Nat × Array Value × Value) : Prop :=
  l.objects[r.1]? = some t ∧ (∀ v ∈ r.2.1, reg.Has l t.itemType v) ∧ r.2.2 ∈ r.2.1

theorem keeps_stackTop {call : HostCall}
    (h : List.Forall₂ (reg.Has l) [.named Collection.stack.place args] call.args)
    (function : String) :
    reg.host.Keeps l (stackTop function call) fun l' r =>
      l' = l ∧ IsEnd reg l (.named Collection.stack.place args) r := by
  refine (keeps_receiver hr h rfl _).bind ?_
  rintro _ ⟨p, payload⟩ - ⟨rfl, hp, -, hpayload⟩
  dsimp only
  split
  · rename_i v hv
    exact .pure ⟨rfl, hp, hpayload.items, Array.mem_of_back? hv⟩
  · exact .throw trivial

theorem keeps_queueFront {call : HostCall}
    (h : List.Forall₂ (reg.Has l) [.named Collection.queue.place args] call.args)
    (function : String) :
    reg.host.Keeps l (queueFront function call) fun l' r =>
      l' = l ∧ IsEnd reg l (.named Collection.queue.place args) r := by
  refine (keeps_receiver hr h rfl _).bind ?_
  rintro _ ⟨p, payload⟩ - ⟨rfl, hp, -, hpayload⟩
  dsimp only
  split
  · rename_i v hv
    exact .pure ⟨rfl, hp, hpayload.items, Array.mem_of_getElem? hv⟩
  · exact .throw trivial

theorem safe_stackPop :
    stackPop.Safe reg [.named Collection.stack.place args] (args.getD 0 .object) := by
  intro l vs label h
  refine (keeps_stackTop hr h _).bind ?_
  rintro _ ⟨p, vs, v⟩ - ⟨rfl, hp, hvs, hv⟩
  refine keeps_setItems .stack hp rfl (fun w hw => hvs w ?_) (hvs v hv)
  obtain ⟨i, hi, rfl⟩ := Array.mem_iff_getElem.1 hw
  exact Array.getElem_pop (h := hi) ▸ Array.getElem_mem _

theorem safe_stackPeek :
    stackPeek.Safe reg [.named Collection.stack.place args] (args.getD 0 .object) := by
  intro l vs label h
  refine (keeps_stackTop hr h _).bind ?_
  rintro _ ⟨p, vs, v⟩ - ⟨rfl, hp, hvs, hv⟩
  exact .pure (hvs v hv)

theorem safe_queueDequeue :
    queueDequeue.Safe reg [.named Collection.queue.place args] (args.getD 0 .object) := by
  intro l vs label h
  refine (keeps_queueFront hr h _).bind ?_
  rintro _ ⟨p, vs, v⟩ - ⟨rfl, hp, hvs, hv⟩
  refine keeps_setItems .queue hp rfl (fun w hw => hvs w ?_) (hvs v hv)
  obtain ⟨i, hi, rfl⟩ := Array.mem_extract_iff_getElem.1 hw
  exact Array.getElem_mem _

theorem safe_queuePeek :
    queuePeek.Safe reg [.named Collection.queue.place args] (args.getD 0 .object) := by
  intro l vs label h
  refine (keeps_queueFront hr h _).bind ?_
  rintro _ ⟨p, vs, v⟩ - ⟨rfl, hp, hvs, hv⟩
  exact .pure (hvs v hv)

theorem safe_setAdd (item : Ty) :
    setAdd.Safe reg [.named Collection.set.place args, item] .bool := by
  intro l vs label h
  refine (HostCall.keeps_arg h rfl _).bind ?_
  rintro _ v - ⟨rfl, -⟩
  refine (keeps_receiver hr h rfl _).bind ?_
  rintro _ ⟨p, payload⟩ - ⟨rfl, hp, hk, -⟩
  dsimp only
  split
  · refine keeps_setItems .set hp rfl (fun w hw => ?_) (has_bool _)
    simp [items] at hw
  · exact .pure (has_bool _)

end Functions

end TypedExpr.Builtin
